import VisualNovel.Proofs.Life.Restore

/-!
# The course of a session

A host makes requests of a session: the inputs, and to enter a further node. A request is done in
two parts, and the session may run on after the first one. The host can also have a stored session
restored; then a stored traversal is taken up before the session runs on. Hosts may change variables
and settings at any time. The course of a session is what comes about in this way, one move after
the other, whether or not what is asked of the session succeeds.

## Main definitions

* `Request`: what a host can ask of a session;
* `Act.takeUp`: what is done to restore a session before it runs on;
* `Session.Move`: the sessions to which a single move leads;
* `Course`: the sessions to which moves and stored sessions lead;
* `Stage.walk`: moves that are computed.

## Main results

* `Request.perform_eq`, `Act.restore_eq`: requests and restoring, taken apart;
* `Course.perform`, `Course.restore`: requests and restoring are part of the course of a session.
-/

namespace VisualNovel

open Act

/-- What a host can ask of a session. -/
inductive Request where
  /-- An input is performed. -/
  | input (i : Input)
  /-- A further node is entered. -/
  | findNode (node context : String)

namespace Request

variable {σ : Type} (hear : Listener σ)

/-- Does what is asked. -/
def perform : Request → Act σ Unit
  | input i => i.perform hear
  | findNode node context => do let _ ← Act.findNode hear node context

/-- What is done at once, and the visits with which the session runs on. -/
def prepare : Request → Act σ (Option (List Visit))
  | input i => i.prepare hear
  | findNode node context => do
    if ← openNode hear node context then return some [] else return none

/-- Runs on, if the session does so. -/
def runOn : Request → Option (List Visit) → Act σ Unit
  | input i, r => i.runOn hear r
  | findNode _ _, some seen => run hear seen
  | findNode _ _, none => pure ()

/-- A request is its preparation and the run that may follow. -/
theorem perform_eq (r : Request) : r.perform hear = r.prepare hear >>= r.runOn hear := by
  cases r with
  | input i => exact i.perform_eq hear
  | findNode node context =>
    simp only [perform, prepare, Act.findNode, bind_assoc]
    refine bind_congr fun opened => ?_
    cases opened <;> simp [runOn]

end Request

namespace Act

variable {σ : Type} (hear : Listener σ)

/-- Takes up a stored traversal as far as the session does not run yet. The result says which stack
of nodes is the one that has been taken up. -/
def takeUp (stored : String) : Act σ Nat := do
  match Traversal.ofText stored with
  | .invalid ps => throw (.storedTraversal ps)
  | .valid t =>
    if t.frames.isEmpty then throw .nothingToResume
    let nodes ← loadOrUndo t
    edit fun s => s.resumed t nodes
    let era := (← session).nodesEra
    replay hear (goTo hear) t.history
    edit fun s => { s with unrecorded := some (nodes.length, t.cursor.line) }
    return era

/-- What is done when a session that has been restored has come to a rest. -/
def settle (era : Nat) : Act σ Unit := do
  edit fun s => { s with unrecorded := none }
  if ((← session).nodesOf era).isEmpty then throw .noElement

/-- A session is restored by taking up the traversal, running on and settling. -/
theorem restore_eq (stored : String) : restore hear stored =
    takeUp hear stored >>= fun era => run hear [] >>= fun _ => settle era := by
  unfold restore takeUp
  cases Traversal.ofText stored with
  | invalid ps => rfl
  | valid t =>
    simp only [resumeAt, settle]
    split
    · rfl
    · simp only [bind_assoc, pure_bind]

section Specs

variable {st : Stage σ} (o : Observer σ) {E : Failure → Stage σ → Prop}

/-- How a stored traversal is taken up. -/
theorem takeUp_ends {stored : String} {Q : Nat → Stage σ → Prop}
    (hleft : ∀ f vs st', st.Declared st' vs → E f st')
    (htaken : ∀ t ns vs era st', t.frames ≠ [] →
      st.shelf.load st.session.vars t.frames = (.ok ns, vs) → t.misfit? ns = none →
      st.Follows st' { st.session.resumed t ns with
        unrecorded := some (ns.length, t.cursor.line) } → Q era st') :
    Ends (takeUp o.hear stored) st Q E := by
  have hsame : st.Declared st st.session.vars := ⟨[], by simp [Session.withVars]⟩
  unfold takeUp
  split
  · exact hleft _ _ st hsame
  next t _ =>
  simp only [ends_bind, ends_ite, ends_throw]
  split
  · exact hleft _ _ st hsame
  next hframes =>
  refine loadOrUndo_ends (fun ns vs st₁ hload hfits h₁ => ?_) (fun f st₁ _ _ h₁ => hleft f _ st₁ h₁)
    fun f vs st₁ _ _ h₁ => hleft f vs st₁ h₁
  simp only [ends_edit, ends_session, ends_pure]
  refine replay_ends o fun st₂ h₂ => htaken t ns vs _ _ (by simpa using hframes) hload hfits ?_
  -- what is declared on the way gives way to the variables of the traversal
  have h₁ := h₁.follows
  obtain ⟨_, _, _, _, _, hs₁⟩ := h₁.session
  obtain ⟨_, _, _, _, _, hs₂⟩ := h₂.session
  refine ⟨h₂.setup.trans h₁.setup, h₂.files.trans h₁.files, ?_⟩
  dsimp only at hs₂ ⊢
  rw [hs₂, hs₁]
  exact ⟨_, _, _, _, _, rfl⟩

/-- How a session settles. -/
theorem settle_ends {era : Nat} {Q : Unit → Stage σ → Prop}
    (h : ∀ st', st' = { st with session := { st.session with unrecorded := none } } → Q () st')
    (hempty : ∀ st', st' = { st with session := { st.session with unrecorded := none } } →
      E .noElement st') : Ends (settle era) st Q E := by
  simp only [settle, ends_bind, ends_edit, ends_session, ends_ite, ends_throw, ends_pure]
  split
  · exact hempty _ rfl
  · exact h _ rfl

end Specs

end Act

/-- The sessions over a shelf of scripts to which a single move leads. What is done may fail. -/
inductive Session.Move {σ : Type} (o : Observer σ) (w : Shelf) (s : Session) : Session → Prop where
  /-- The first part of a request. -/
  | prepares {st st' : Stage σ} (hw : st.shelf = w) (hs : st.session = s) {r : Request}
      {seen : Option (List Visit)} (hr : r.prepare o.hear st = .ok seen st') :
      Move o w s st'.session
  /-- The first part of a request fails. -/
  | refuses {st st' : Stage σ} (hw : st.shelf = w) (hs : st.session = s) {r : Request}
      {f : Failure} (hr : r.prepare o.hear st = .error f st') : Move o w s st'.session
  /-- A run begins with visits. -/
  | begins (seen : List Visit) : Move o w s { s with seen }
  /-- A step of a run. -/
  | steps {st st' : Stage σ} (hw : st.shelf = w) (hs : st.session = s) {goesOn : Bool}
      (hstep : step o.hear s.era st = .ok goesOn st') : Move o w s st'.session
  /-- A step fails. -/
  | breaks {st st' : Stage σ} (hw : st.shelf = w) (hs : st.session = s) {f : Failure}
      (hstep : step o.hear s.era st = .error f st') : Move o w s st'.session
  /-- The host changes variables or settings. -/
  | adjusts (vars : Variables) (settings : Settings) : Move o w s { s with vars, settings }

/-- The sessions over a shelf of scripts to which moves and stored sessions lead. -/
inductive Course {σ : Type} (o : Observer σ) (w : Shelf) : Session → Prop where
  /-- A session begins with settings and variables. -/
  | fresh (settings : Settings) (vars : Variables) : Course o w { settings, vars }
  /-- A move has been made. -/
  | moves {s s' : Session} (h : Course o w s) (hs : s.Move o w s') : Course o w s'
  /-- A stored traversal has been taken up. -/
  | takes {s : Session} (h : Course o w s) {st st' : Stage σ} (hw : st.shelf = w)
      (hs : st.session = s) {stored : String} {era : Nat}
      (ht : takeUp o.hear stored st = .ok era st') : Course o w st'.session
  /-- A stored traversal has not been taken up. -/
  | leaves {s : Session} (h : Course o w s) {st st' : Stage σ} (hw : st.shelf = w)
      (hs : st.session = s) {stored : String} {f : Failure}
      (ht : takeUp o.hear stored st = .error f st') : Course o w st'.session
  /-- A session that has been restored has come to a rest. -/
  | settles {s : Session} (h : Course o w s) : Course o w { s with unrecorded := none }

namespace Request

variable {σ : Type} {st : Stage σ} (o : Observer σ)

/-- The first part of a request keeps the shelf. -/
theorem prepare_shelf (r : Request) :
    Ends (r.prepare o.hear) st (fun _ st' => st'.shelf = st.shelf)
      fun _ st' => st'.shelf = st.shelf := by
  cases r with
  | input i =>
    refine (Input.prepare_ends st o i).imp ?_ fun _ _ ⟨_, _, hfollows⟩ => hfollows.shelf
    rintro (_ | seen) st' ⟨_, -, hfollows⟩ <;> exact hfollows.shelf
  | findNode node context =>
    simp only [prepare, ends_bind, ends_ite, ends_pure]
    refine openNode_ends o ?_ ?_ ?_ ?_ ?_
    · exact fun _ => by simp
    · exact fun _ _ _ _ _ hfollows => by simpa using hfollows.shelf
    · exact fun _ _ _ _ _ hfollows => by simpa using hfollows.shelf
    · exact fun _ _ _ _ _ hfollows => hfollows.shelf
    · exact fun _ _ _ _ _ hfollows => hfollows.shelf

end Request

namespace Course

variable {σ : Type} {o : Observer σ} {w : Shelf} {st : Stage σ}

/-- A run is part of the course of a session. -/
theorem run (h : Course o w st.session) (hw : st.shelf = w) (seen : List Visit) :
    Ends (Act.run o.hear seen) st (fun _ st' => Course o w st'.session)
      fun _ st' => Course o w st'.session := by
  refine run_induction o (P := fun st' => st'.shelf = w ∧ Course o w st'.session) ?_
    (fun _ h => h.2) ⟨hw, h.moves (.begins seen)⟩
  rintro st₁ ⟨hw₁, h₁⟩
  refine ((step_shelf o st₁).and_eq).imp ?_ fun f st₂ hf => h₁.moves (.breaks hw₁ rfl hf.2)
  rintro goesOn st₂ ⟨hw₂, hstep⟩
  have h₂ : Course o w st₂.session := h₁.moves (.steps hw₁ rfl hstep)
  cases goesOn with
  | true => exact ⟨hw₂.trans hw₁, h₂⟩
  | false => exact h₂

/-- Requests are part of the course of a session. -/
theorem perform (h : Course o w st.session) (hw : st.shelf = w) (r : Request) :
    Ends (r.perform o.hear) st (fun _ st' => Course o w st'.session)
      fun _ st' => Course o w st'.session := by
  rw [r.perform_eq, ends_bind]
  refine ((r.prepare_shelf o).and_eq).imp ?_ fun f st₁ hf => h.moves (.refuses hw rfl hf.2)
  rintro seen? st₁ ⟨hw₁, hr⟩
  have h₁ : Course o w st₁.session := h.moves (.prepares hw rfl hr)
  have hrun (seen : List Visit) := h₁.run (hw₁.trans hw) seen
  -- a start is announced behind its run, which the session does not notice
  cases r with
  | findNode node context =>
    cases seen? with
    | none => exact h₁
    | some seen => exact hrun seen
  | input i =>
    cases seen? with
    | none => exact h₁
    | some seen =>
      simp only [Request.runOn, Input.runOn, ends_bind]
      refine (hrun seen).imp (fun _ st₂ h₂ => ?_) fun _ _ h₂ => h₂
      cases i with
      | start node context => simpa [Input.conclude] using h₂
      | _ => exact h₂

/-- Restoring a session is part of its course. -/
theorem restore (h : Course o w st.session) (hw : st.shelf = w) (stored : String) :
    Ends (Act.restore o.hear stored) st (fun _ st' => Course o w st'.session)
      fun _ st' => Course o w st'.session := by
  rw [restore_eq, ends_bind]
  have htake : Ends (takeUp o.hear stored) st (fun _ st' => st'.shelf = st.shelf) fun _ _ => True :=
    takeUp_ends o (fun _ _ _ _ => trivial) fun _ _ _ _ _ _ _ _ hfollows => hfollows.shelf
  refine htake.and_eq.imp ?_ fun f st₁ hf => h.leaves hw rfl hf.2
  rintro era st₁ ⟨hw₁, ht⟩
  rw [ends_bind]
  refine ((h.takes hw rfl ht).run (hw₁.trans hw) []).imp (fun _ st₂ h₂ => ?_) fun _ _ h₂ => h₂
  refine settle_ends ?_ ?_
  · rintro st₃ rfl
    exact h₂.settles
  · rintro st₃ rfl
    exact h₂.settles

end Course

/-- A move of a session. -/
inductive Stride where
  /-- A request is made. -/
  | asks (r : Request)
  /-- A run begins with visits. -/
  | begins (seen : List Visit)
  /-- A step of a run is taken. -/
  | steps

namespace Stage

variable {σ : Type} {o : Observer σ}

variable (o) in
/-- The stage after a move, if the move succeeds. -/
def stride (st : Stage σ) : Stride → Option (Stage σ)
  | .asks r =>
    match r.prepare o.hear st with
    | .ok _ st' => some st'
    | .error _ _ => none
  | .begins seen => some { st with session := { st.session with seen } }
  | .steps =>
    match step o.hear st.session.era st with
    | .ok _ st' => some st'
    | .error _ _ => none

variable (o) in
/-- The stage after moves, if each of them leads to a session that may be gone through. -/
def walk (through : Session → Bool) : List Stride → Stage σ → Option (Stage σ)
  | [], st => some st
  | x :: xs, st => do
    let st' ← st.stride o x
    if through st'.session then walk through xs st' else none

/-- What is computed is a move on the same shelf. -/
theorem move_of_stride {st st' : Stage σ} {x : Stride} (h : st.stride o x = some st') :
    st.session.Move o st.shelf st'.session ∧ st'.shelf = st.shelf := by
  cases x with
  | asks r =>
    dsimp only [stride] at h
    split at h
    · next hr =>
      obtain rfl := Option.some.inj h
      exact ⟨.prepares rfl rfl hr, (r.prepare_shelf o).of_ok hr⟩
    · cases h
  | begins seen =>
    obtain rfl := Option.some.inj h
    exact ⟨.begins seen, rfl⟩
  | steps =>
    dsimp only [stride] at h
    split at h
    · next hstep =>
      obtain rfl := Option.some.inj h
      exact ⟨.steps rfl rfl hstep, (step_shelf o st).of_ok hstep⟩
    · cases h

/-- What every move through certain sessions keeps is kept by a walk. -/
theorem walk_keep {w : Shelf} {through : Session → Bool} {P : Session → Prop}
    (hmove : ∀ s s', P s → s.Move o w s' → through s' → P s') {st st' : Stage σ}
    {xs : List Stride} (hw : st.shelf = w) (h : P st.session)
    (hwalk : st.walk o through xs = some st') : P st'.session ∧ st'.shelf = w := by
  induction xs generalizing st with
  | nil =>
    obtain rfl := Option.some.inj hwalk
    exact ⟨h, hw⟩
  | cons x xs ih =>
    obtain ⟨st₁, hx, hxs⟩ := Option.bind_eq_some_iff.mp hwalk
    obtain ⟨hmoves, hshelf⟩ := move_of_stride hx
    split at hxs
    · next hthrough =>
      exact ih (hshelf.trans hw) (hmove _ _ h (hw ▸ hmoves) hthrough) hxs
    · cases hxs

end Stage

end VisualNovel
