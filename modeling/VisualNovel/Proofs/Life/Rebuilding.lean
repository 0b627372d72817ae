import VisualNovel.Proofs.Life.Effects
import VisualNovel.Proofs.Life.Play

/-!
# Rebuilding a scene

A session keeps the lines of all commands that it has carried out since its start. When this history
is carried out once more, helpers are asked for what they were asked by commands since the start, in
the same order, and only effects are left out.

## Main definitions

* `Session.carriedOut`: the command line that the next step carries out;
* `Request.sessionsOfAll`: the sessions before each step that is taken for requests;
* `Notice.scenery`: what commands have asked of helpers.

## Main results

* `Act.step_history`: a step adds to the history what it carries out;
* `Request.history_afterAll`: so the history is what has been carried out;
* `Act.endures_answers`: helpers have been asked for what the lines in the history ask of them;
* `Request.replayed`: the history, and what comes of it when it is carried out once more.
-/

namespace VisualNovel

/-! ### What is carried out -/

/-- The command line that the next step carries out, if it carries one out: blocks leave the cursor
at the line, and no decision stands in the way. -/
def Session.carriedOut (s : Session) : List String :=
  match s.node with
  | none => []
  | some n =>
    if s.halted || n.lines.length ≤ s.traversal.cursor.line then []
    else
      let m := n.passConditionals s.vars s.nodes.length s.seen s.traversal.cursor
      if m.stuck then []
      else
        match n.passDecisions s.nodes.length m.seen m.cursor with
        | (c, .onward) =>
          if c.line = s.traversal.cursor.line then
            (at? n.lines c.line).toList.filter fun text => Command.isCommandLine text.toList
          else []
        | _ => []

namespace Session

variable {s : Session} {n : Node} {m : Motion} {c : Cursor} {turn : Turn}

/-- Where an open conditional does not exist, nothing is carried out. -/
theorem carriedOut_of_stuck (hn : s.node = some n)
    (h : (n.passConditionals s.vars s.nodes.length s.seen s.traversal.cursor).stuck) :
    s.carriedOut = [] := by
  simp only [carriedOut, hn, h, if_true, ite_self]

/-- Where a decision stands in the way, nothing is carried out. -/
theorem Passes.carriedOut_of_ne_onward (h : s.Passes n m c turn) (hturn : turn ≠ .onward) :
    s.carriedOut = [] := by
  simp only [carriedOut, h.node, h.conditionals, h.decisions]
  cases turn with
  | onward => exact absurd rfl hturn
  | _ => simp only [ite_self]

/-- Where none does, the line is carried out if it is a command and the cursor is still there. -/
theorem Passes.carriedOut_of_onward (h : s.Passes n m c .onward) (hstuck : m.stuck = false) :
    s.carriedOut = if c.line = s.traversal.cursor.line then
      (at? n.lines c.line).toList.filter fun text => Command.isCommandLine text.toList else [] := by
  have hline : ¬(n.lines.length : Int) ≤ s.traversal.cursor.line := by
    have := h.line
    omega
  simp [carriedOut, h.node, h.halted, hline, h.conditionals, h.decisions, hstuck]

end Session

/-- The era is the same, and lines have been added to the history. -/
def Stage.Adds {σ : Type} (lines : List String) (st st' : Stage σ) : Prop :=
  st'.session.retired = st.session.retired ∧
    st'.session.traversal.history = st.session.traversal.history ++ lines

theorem Stage.Adds.trans {σ : Type} {lines lines' : List String} {st st₁ st₂ : Stage σ}
    (h : st.Adds lines st₁) (h' : st₁.Adds lines' st₂) : st.Adds (lines ++ lines') st₂ :=
  ⟨h'.1.trans h.1, by rw [h'.2, h.2, List.append_assoc]⟩

namespace Act

variable {σ : Type} {o : Observer σ} {st : Stage σ}

/-- Only commands add to the history. -/
theorem keptByNodes_adds_nil (o : Observer σ) : KeptByNodes o (Stage.Adds []) where
  refl st := ⟨rfl, by simp⟩
  trans h h' := h.trans h'
  shows st s' h := by
    obtain ⟨_, _, _, _, _, rfl⟩ := h
    exact ⟨rfl, by simp⟩
  remarks st rs := ⟨rfl, by simp⟩
  asks st c _ := ⟨by simp, by simp⟩
  tells st e _ := ⟨by simp, by simp⟩
  moves st s' h := ⟨h.retired, by rw [h.history, List.append_nil]⟩
  retired h := h.1
  enters st n _ htop := by
    rw [Stage.Adds, Observer.session_react, List.append_nil]
    simp only [Session.entered, htop, Bool.false_eq_true, if_false, Traversal.history_enter,
      and_self]
  completes st f _ := by
    rw [Stage.Adds, Observer.session_react, List.append_nil]
    exact ⟨rfl, rfl⟩

/-- A line that is taken up is added to the history if it is a command. -/
theorem takeLine_history (n : Node) (text : String) :
    LeavesFrom (Stage.Adds (if Command.isCommandLine text.toList then [text] else [])) st
      (takeLine o.hear st.session.era n text) := by
  have hR := keptByNodes_adds_nil o
  unfold takeLine
  split
  · rw [LeavesFrom, ends_bind, ends_edit, Session.era, Session.modifyTraversalOf_era]
    obtain ⟨st₁, hst₁⟩ : ∃ st₁ : Stage σ, { st with session := { st.session with
      traversal := { st.session.traversal with
        history := st.session.traversal.history ++ [text] } } } = st₁ := ⟨_, rfl⟩
    have hadds : st.Adds [text] st₁ := by
      rw [← hst₁]
      exact ⟨rfl, rfl⟩
    have hera : st.session.retired.length = st₁.session.era := by rw [← hst₁]; rfl
    rw [hst₁, hera]
    -- whatever comes of the command, it has been added before
    have hnext : LeavesFrom (Stage.Adds []) st₁ (nextLine st₁.session.era) := hR.nextLine
    have hrest := hR.bind_from hnext fun _ st₂ _ =>
      hR.bind (hR.dispatch (fun st c => ⟨by simp, by simp⟩) hR.goTo text false)
        (fun _ => hR.pure true) st₂
    exact hrest.imp (fun _ _ h => hadds.trans h) fun _ _ h => hadds.trans h
  · dsimp only
    split
    · exact hR.bind_from hR.nextLine fun _ _ _ => hR.pure _ _
    · exact hR.bind_from (hR.present _ _ _) fun _ _ _ => hR.pure _ _

variable (o st) in
/-- A step adds to the history what it carries out, whether or not it succeeds. -/
theorem step_history :
    LeavesFrom (Stage.Adds st.session.carriedOut) st (step o.hear st.session.era) := by
  have hR := keptByNodes_adds_nil o
  refine step_rule (fun hrest => ?_) (fun n _ hn hline => ?_) fun n hhalted hn hline => ?_
  · have hnil : st.session.carriedOut = [] := by
      rcases hrest with hhalted | hn
      · cases hn : st.session.node <;> simp [Session.carriedOut, hn, hhalted]
      · simp [Session.carriedOut, hn]
    rw [hnil]
    exact hR.refl st
  · rw [Session.era, Session.traversalOf_era] at hline
    have hnil : st.session.carriedOut = [] := by simp [Session.carriedOut, hn, hline]
    rw [hnil]
    exact hR.finishNode st
  rw [Session.era, Session.traversalOf_era] at hline ⊢
  obtain ⟨m, hm⟩ : ∃ m, n.passConditionals st.session.vars st.session.nodes.length st.session.seen
    st.session.traversal.cursor = m := ⟨_, rfl⟩
  obtain ⟨⟨c, turn⟩, hd⟩ : ∃ r, n.passDecisions st.session.nodes.length m.seen m.cursor = r :=
    ⟨_, rfl⟩
  have hpass : st.session.Passes n m c turn := ⟨hhalted, hn, hline, hm, hd⟩
  -- the blocks are passed over without a trace in the history
  have hpassed : Ends (passConditionals n) st
      (fun _ st₁ => m.stuck = false ∧ st.Follows st₁ (st.session.passed m m.cursor))
      fun _ _ => m.stuck = true :=
    passConditionals_ends hm (fun _ hstuck h₁ => ⟨hstuck, h₁⟩) fun _ hstuck => hstuck
  refine (hpassed.and (hR.passConditionals n st)).imp ?_ ?_
  case refine_2 =>
    rintro f st₁ ⟨hstuck, h⟩
    rw [Session.carriedOut_of_stuck hn (by rw [hm, hstuck])]
    exact h
  rintro _ st₁ ⟨⟨hstuck, h₁⟩, hadds₁⟩
  obtain ⟨_, _, _, _, _, hs₁⟩ := h₁.session
  have hd₁ : n.passDecisions st₁.session.nodes.length st₁.session.seen
      st₁.session.traversal.cursor = (c, turn) := by
    rw [hs₁]
    exact hd
  have hdecided : Ends (passDecisions o.hear n) st₁
      (fun asked st₂ => if asked then turn ≠ .onward
        else turn = .onward ∧ st₁.Follows st₂ (st₁.session.withCursor c))
      fun _ _ => turn ≠ .onward :=
    passDecisions_ends o hd₁ (fun d _ hturn _ => by simp [hturn])
      (fun _ hturn h₂ => ⟨hturn, h₂⟩) fun _ hturn => by simp [hturn]
  refine (hdecided.and (hR.passDecisions n st₁)).imp ?_ ?_
  case refine_2 =>
    rintro f st₂ ⟨hturn, h⟩
    rw [hpass.carriedOut_of_ne_onward hturn]
    exact hadds₁.trans h
  rintro asked st₂ ⟨hturn, hadds₂⟩
  have hadds₂ : st.Adds [] st₂ := hadds₁.trans hadds₂
  cases asked with
  | true =>
    rw [hpass.carriedOut_of_ne_onward hturn]
    exact hadds₂
  | false =>
  -- what the line adds depends on whether the cursor is still there
  obtain ⟨rfl, h₂⟩ := hturn
  have hera : st.session.retired.length = st₂.session.era := by rw [Session.era, hadds₂.1]
  have hcursor : (st₂.session.traversalOf st.session.retired.length).cursor = c := by
    obtain ⟨_, _, _, _, _, hs₂⟩ := h₂.session
    rw [hera, Session.era, Session.traversalOf_era, hs₂]
    rfl
  have hcarriedOut := hpass.carriedOut_of_onward hstuck
  constructor
  · intro hmoved
    rw [hcursor] at hmoved
    rw [hcarriedOut, if_neg hmoved]
    exact hadds₂
  · intro hsame htext
    rw [hcursor] at hsame
    rw [hcarriedOut, if_pos hsame, hsame, htext]
    exact hadds₂
  · intro text hsame htext
    rw [hcursor] at hsame
    rw [if_pos hsame, hsame, htext, Option.toList_some, List.filter_cons, List.filter_nil]
      at hcarriedOut
    rw [hcarriedOut, hera]
    exact (takeLine_history n text).imp (fun _ _ h => hadds₂.trans h) fun _ _ h => hadds₂.trans h

/-- The sessions before each step of a run of so many steps at most. -/
def sessionsBefore (hear : Listener σ) (era : Nat) : Nat → Stage σ → List Session
  | 0, _ => []
  | k + 1, st => st.session ::
    match step hear era st with
    | .ok true st' => sessionsBefore hear era k st'
    | _ => []

/-- Steps add to the history what they carry out, in this order. -/
theorem steps_history (k : Nat) (st : Stage σ) :
    LeavesFrom (Stage.Adds ((sessionsBefore o.hear st.session.era k st).flatMap Session.carriedOut))
      st (steps o.hear st.session.era k) := by
  induction k generalizing st with
  | zero => exact (keptByNodes_adds_nil o).throw _ st
  | succ k ih =>
    rw [steps, LeavesFrom, ends_bind]
    refine (step_history o st).and_eq.imp ?_ ?_
    · rintro goesOn st₁ ⟨hadds, hstep⟩
      rw [sessionsBefore, hstep, List.flatMap_cons]
      cases goesOn with
      | false =>
        rw [List.flatMap_nil, List.append_nil]
        exact hadds
      | true =>
        have hera : st.session.era = st₁.session.era := by rw [Session.era, Session.era, hadds.1]
        rw [hera, if_pos rfl]
        exact (ih st₁).imp (fun _ _ h => hadds.trans h) fun _ _ h => hadds.trans h
    · rintro f st₁ ⟨hadds, hstep⟩
      rw [sessionsBefore, hstep, List.flatMap_cons, List.flatMap_nil, List.append_nil]
      exact hadds

/-- The sessions before each step of a run that begins with visits. -/
def sessionsOfRun (hear : Listener σ) (seen : List Visit) (st : Stage σ) : List Session :=
  sessionsBefore hear st.session.era st.setup.patience
    { st with session := { st.session with seen } }

variable (o st) in
theorem run_history (seen : List Visit) :
    LeavesFrom (Stage.Adds ((sessionsOfRun o.hear seen st).flatMap Session.carriedOut)) st
      (run o.hear seen) :=
  steps_history st.setup.patience { st with session := { st.session with seen } }

end Act

/-! ### The history of requests -/

namespace Request

variable {σ : Type} (hear : Listener σ)

/-- The sessions before each step that is taken for a request. -/
def sessionsOf (r : Request) (st : Stage σ) : List Session :=
  match r.prepare hear st with
  | .ok (some seen) st₁ => Act.sessionsOfRun hear seen st₁
  | _ => []

/-- The sessions before each step that is taken for requests, whether or not these succeed. -/
def sessionsOfAll : List Request → Stage σ → List Session
  | [], _ => []
  | r :: rs, st => r.sessionsOf hear st ++ sessionsOfAll rs (r.after hear st)

variable {hear} {o : Observer σ} {st : Stage σ}

variable (o st) in
/-- A request adds to the history what its steps carry out. -/
theorem history_after (r : Request) :
    (r.begun st).Adds ((r.sessionsOf o.hear st).flatMap Session.carriedOut)
      (r.after o.hear st) := by
  have hR := Act.keptByNodes_adds_nil o
  refine after_of_ends ?_
  rw [r.perform_eq, Act.ends_bind]
  refine (hR.prepare r).and_eq.imp ?_ ?_
  · rintro seen? st₁ ⟨hadds, hprepare⟩
    rw [sessionsOf, hprepare]
    cases seen? with
    | none => cases r <;> exact hadds
    | some seen =>
      have hrun := Act.run_history o st₁ seen
      -- nothing is added when the run is over
      have hrunOn : Act.LeavesFrom
          (Stage.Adds ((Act.sessionsOfRun o.hear seen st₁).flatMap Session.carriedOut)) st₁
          (r.runOn o.hear (some seen)) := by
        cases r with
        | findNode node context => exact hrun
        | input i =>
          rw [runOn, Input.runOn, Act.LeavesFrom, Act.ends_bind]
          refine hrun.imp (fun _ st₂ h => ?_) fun _ _ h => h
          exact (hR.conclude i st₂).imp (fun _ _ h' => by simpa using h.trans h') fun _ _ h' => by
            simpa using h.trans h'
      exact hrunOn.imp (fun _ _ h => hadds.trans h) fun _ _ h => hadds.trans h
  · rintro f st₁ ⟨hadds, hprepare⟩
    rw [sessionsOf, hprepare]
    exact hadds

/-- As long as the session is not asked to start anew, requests add to the history what their steps
carry out. -/
theorem history_afterAll {rs : List Request} (hrs : ∀ r ∈ rs, r.isStart = false) :
    st.Adds ((sessionsOfAll o.hear rs st).flatMap Session.carriedOut) (afterAll o.hear rs st) := by
  induction rs generalizing st with
  | nil => exact (Act.keptByNodes_adds_nil o).refl st
  | cons r rs ih =>
    obtain ⟨hr, hrest⟩ := List.forall_mem_cons.mp hrs
    have hafter := history_after o st r
    rw [begun, hr, if_neg Bool.false_ne_true] at hafter
    rw [sessionsOfAll, List.flatMap_append]
    exact hafter.trans (ih hrest)

end Request

/-! ### What helpers are asked for -/

/-- What commands have asked of helpers. -/
def Notice.scenery (ns : List Notice) : List Call :=
  ns.filterMap fun
    | .call c => if c.isScenery then some c else none
    | _ => none

namespace Notice

variable {ns : List Notice} {cs : List Call}

theorem scenery_append (ns ns' : List Notice) : scenery (ns ++ ns') = scenery ns ++ scenery ns' :=
  List.filterMap_append

theorem scenery_map_call (cs : List Call) :
    scenery (cs.map .call) = cs.filter Call.isScenery := by
  rw [scenery, List.filterMap_map, ← List.filterMap_eq_filter]
  rfl

end Notice

namespace Stage

variable {σ : Type} {lines lines' : List String} {cs cs' : List Call} {st st₁ st₂ : Stage σ}

/-- Lines have been added to the history, and meanwhile commands have asked helpers for
something. -/
structure Calls (lines : List String) (cs : List Call) (st st' : Stage σ) : Prop where
  setup : st'.setup = st.setup
  adds : st.Adds lines st'
  notices : ∃ added, st'.notices = st.notices ++ added ∧ Notice.scenery added = cs

theorem Calls.trans (h : st.Calls lines cs st₁) (h' : st₁.Calls lines' cs' st₂) :
    st.Calls (lines ++ lines') (cs ++ cs') st₂ := by
  obtain ⟨added, hnotices, hadded⟩ := h.notices
  obtain ⟨added', hnotices', hadded'⟩ := h'.notices
  refine ⟨h'.setup.trans h.setup, h.adds.trans h'.adds, added ++ added', ?_, ?_⟩
  · rw [hnotices', hnotices, List.append_assoc]
  · rw [Notice.scenery_append, hadded, hadded']

/-- Helpers have been asked for what the lines ask of them that have been added to the history, and
for something else before. -/
def Answers (cs : List Call) (st st' : Stage σ) : Prop :=
  ∃ lines, st.Calls lines
    (Call.heeded st.setup.helpers (cs ++ lines.flatMap fun line => Command.calls line false)) st'

/-- Nothing has been added, and nothing has been asked for. -/
theorem Answers.of_adds_nil (hsetup : st₁.setup = st.setup) (hadds : st.Adds [] st₁)
    {added : List Notice} (hnotices : st₁.notices = st.notices ++ added)
    (hadded : Notice.scenery added = []) : st.Answers [] st₁ :=
  ⟨[], hsetup, hadds, added, hnotices, by simp [hadded, Call.heeded]⟩

theorem Answers.trans (h : st.Answers cs st₁) (h' : st₁.Answers [] st₂) : st.Answers cs st₂ := by
  obtain ⟨lines, hcalls⟩ := h
  obtain ⟨lines', hcalls'⟩ := h'
  refine ⟨lines ++ lines', ?_⟩
  have hboth := hcalls.trans hcalls'
  rwa [hcalls.setup, List.nil_append, Call.heeded, Call.heeded, ← List.filter_append,
    List.append_assoc, ← List.flatMap_append] at hboth

end Stage

namespace Act

variable {σ : Type}

/-- Apart from commands, nothing is asked for that belongs to the scene. -/
theorem keptByNodes_answers :
    KeptByNodes (Observer.noting (σ := σ)) (Stage.Answers []) where
  refl st := .of_adds_nil rfl ⟨rfl, by simp⟩ (List.append_nil _).symm rfl
  trans h h' := h.trans h'
  shows st s' h :=
    .of_adds_nil rfl ((keptByNodes_adds_nil .noting).shows st s' h) (List.append_nil _).symm rfl
  remarks st rs := .of_adds_nil rfl ⟨rfl, by simp⟩ (List.append_nil _).symm rfl
  asks st c hc := by
    rw [st.asked_eq]
    refine .of_adds_nil rfl ⟨rfl, by simp⟩ rfl ?_
    rw [Notice.scenery_map_call, List.filter_eq_nil_iff]
    intro c' hc'
    obtain rfl := List.mem_singleton.mp (List.mem_filter.mp hc').1
    simp [hc]
  tells st e _ := .of_adds_nil rfl ⟨rfl, by simp [Observer.noting]⟩ rfl rfl
  moves st s' h :=
    .of_adds_nil rfl ((keptByNodes_adds_nil .noting).moves st s' h) (List.append_nil _).symm rfl
  retired h := by
    obtain ⟨_, hcalls⟩ := h
    exact hcalls.adds.1
  enters st n hn htop :=
    .of_adds_nil rfl ((keptByNodes_adds_nil .noting).enters st n hn htop) rfl rfl
  completes st f hf :=
    .of_adds_nil rfl ((keptByNodes_adds_nil .noting).completes st f hf) rfl rfl

/-- A command that is carried out in play asks helpers for what its line says, and the node to which
it leads asks for what its own commands do. -/
theorem dispatch_answers (st : Stage σ) (text : String) :
    LeavesFrom (Stage.Answers (Command.calls text false)) st
      (dispatch Observer.noting.hear (goTo Observer.noting.hear) text false) := by
  have hR := keptByNodes_answers (σ := σ)
  unfold dispatch Command.calls
  cases Command.ofLine? text with
  | none => exact hR.refl st
  | some c =>
    dsimp only
    cases Directive.ofName? c.name with
    | none => exact hR.refl st
    | some d =>
      dsimp only
      -- what is announced behind the command does not belong to the scene
      have hrest : Leaves (Stage.Answers []) (do
          if !false then Observer.noting.hear (.commandExecuted c.name c.argument)
          return true : Act σ Bool) := hR.bind (hR.hear rfl) fun _ => hR.pure true
      have heffect : LeavesFrom (Stage.Answers (d.effect c.argument false).calls) st
          (bringAbout (goTo Observer.noting.hear) (d.effect c.argument false)) := by
        cases he : d.effect c.argument false with
        | none => exact hR.pure () st
        | incomplete message => exact hR.remarkAll _ st
        | goTo name => exact hR.goTo name st
        | call call =>
          have hscenery := Directive.isScenery_of_effect he
          refine ends_ask.mpr ?_
          rw [st.asked_eq]
          refine ⟨[], rfl, ⟨rfl, by simp⟩, _, rfl, ?_⟩
          rw [Notice.scenery_map_call, List.flatMap_nil, List.append_nil, Effect.calls,
            List.filter_eq_self]
          intro c' hc'
          obtain rfl := List.mem_singleton.mp (List.mem_filter.mp hc').1
          exact hscenery
      exact heffect.bind id Stage.Answers.trans fun _ st₁ _ => hrest st₁

/-- Whatever is done, helpers are asked for what the lines in the history ask of them. -/
theorem endures_answers : Endures (Observer.noting (σ := σ)) (Stage.Answers []) where
  toKeptByNodes := keptByNodes_answers
  takes st n text hc := by
    -- the line is in the history already when its command asks for something
    have hadded (s : Session) (hs : s = (st.session.noted text).atNextLine) (st' : Stage σ)
        (h : Stage.Answers (Command.calls text false) { st with session := s } st') :
        st.Answers [] st' := by
      obtain ⟨lines, hcalls⟩ := h
      have hnoted : st.Calls [text] [] { st with session := s } := by
        rw [hs]
        exact ⟨rfl, ⟨rfl, rfl⟩, [], (List.append_nil _).symm, rfl⟩
      exact ⟨[text] ++ lines, by simpa using hnoted.trans hcalls⟩
    unfold takeLine
    rw [if_pos hc]
    simp only [LeavesFrom, nextLine, ends_bind, ends_edit, Session.era,
      Session.modifyTraversalOf_era, ends_pure]
    exact (dispatch_answers _ text).imp (fun _ st' h => hadded _ rfl st' h) fun _ st' h =>
      hadded _ rfl st' h

end Act

/-! ### Carrying out the history once more -/

/-- Of a history that is carried out once more helpers hear what they have heard, but for
effects. -/
theorem Call.heeded_replay (helpers : List Helper) (lines : List String) :
    heeded helpers (lines.flatMap fun line => Command.calls line true) =
      (heeded helpers (lines.flatMap fun line => Command.calls line false)).filter
        fun c => !c.isEffect := by
  have hcalls : (lines.flatMap fun line => Command.calls line true) =
      (lines.flatMap fun line => Command.calls line false).filter fun c => !c.isEffect := by
    rw [List.filter_flatMap]
    exact congrArg (List.flatMap · lines) (funext Command.calls_replay)
  rw [hcalls, heeded, heeded, List.filter_comm]

namespace Request

variable {σ : Type}

theorem answers_after (r : Request) (st : Stage σ) :
    (r.begun st).Answers [] (r.after Observer.noting.hear st) :=
  after_of_ends (Act.endures_answers.perform r)

theorem answers_afterAll {rs : List Request} (hrs : ∀ r ∈ rs, r.isStart = false) (st : Stage σ) :
    st.Answers [] (afterAll Observer.noting.hear rs st) := by
  induction rs generalizing st with
  | nil => exact Act.keptByNodes_answers.refl st
  | cons r rs ih =>
    obtain ⟨hr, hrest⟩ := List.forall_mem_cons.mp hrs
    have hafter := answers_after r st
    rw [begun, hr, if_neg Bool.false_ne_true] at hafter
    exact hafter.trans (ih hrest _)

/-- A session starts at a node, and is then asked for whatever else; what it is asked may fail. Its
history are the lines of all commands that its steps have carried out since the start, in this
order. Whoever carries out the history once more asks the same helpers for just what commands have
asked of them since the start, but for effects. The scene is rebuilt on any stage; nothing else
changes there than what is seen and remarked, so that no event is told and no node is gone to,
whatever would be done with them. -/
theorem replayed (st : Stage σ) (node context : String) {rs : List Request}
    (hrs : ∀ r ∈ rs, r.isStart = false) :
    let hear : Listener σ := Observer.noting.hear
    let all := input (.start node context) :: rs
    let st' := afterAll hear all st
    st'.session.traversal.history = (sessionsOfAll hear all st).flatMap Session.carriedOut ∧
      ∃ added, st'.notices = st.notices ++ added ∧
        ∀ {τ : Type} (hear' : Listener τ) (goTo : String → Act τ Unit) (st₀ : Stage τ),
          st₀.setup.helpers = st.setup.helpers →
          ∃ remarks, Act.replay hear' goTo st'.session.traversal.history st₀ = .ok () { st₀ with
            notices := st₀.notices ++
              ((Notice.scenery added).filter fun c => !c.isEffect).map .call
            remarks := st₀.remarks ++ remarks } := by
  intro hear all st'
  constructor
  · -- the history is empty when the session starts
    have hadds := (history_after .noting st (input (.start node context))).trans
      (history_afterAll (o := .noting) hrs)
    have hhistory := hadds.2
    rw [← List.flatMap_append] at hhistory
    exact hhistory
  · obtain ⟨lines, hcalls⟩ := (answers_after (input (.start node context)) st).trans
      (answers_afterAll hrs _)
    obtain ⟨added, hnotices, hadded⟩ := hcalls.notices
    have hhistory : st'.session.traversal.history = lines := hcalls.adds.2
    refine ⟨added, hnotices, fun {τ} hear' goTo st₀ hst₀ => ?_⟩
    obtain ⟨remarks, hreplay⟩ := Act.replay_apply hear' goTo lines
    refine ⟨remarks, ?_⟩
    rw [hhistory, hreplay st₀, hst₀, Call.heeded_replay, hadded]
    rfl

/-- Music and pictures accompany two nodes. Nobody moves a camera. -/
private def concert : Stage Unit :=
  let st := Stage.ofScript
    ["#Node: hall", "[Music=overture]", "[ShowPlayer]", "[Bow]", "[GoTo=stage]", "Bravo.",
      "#EndNode", "#Node: stage", "[CG=curtain]", "[Sfx=bell]", "[CG]", "Hush.", "#EndNode"]
  { st with setup := { st.setup with helpers := [.illustrations, .sound] } }

/-- The session starts, and the reader listens until the applause. -/
private def evening : List Request :=
  [input (.start "hall" ""), input .advance, input .advance]

private theorem concert_plays :
    let st' := afterAll (Observer.noting (σ := Unit)).hear evening concert
    st'.session.line = some ⟨"", "Bravo."⟩ ∧
      st'.session.traversal.history = ["[Music=overture]", "[ShowPlayer]", "[Bow]", "[GoTo=stage]",
        "[CG=curtain]", "[Sfx=bell]", "[CG]"] ∧
      Notice.scenery st'.notices =
        [.playMusic "overture", .showIllustration "curtain", .playEffect "bell"] := by
  decide +kernel

/-- The history of a concert is carried out once more, without its effects. -/
theorem replayed_concert :
    let hear : Listener Unit := Observer.noting.hear
    let st' := afterAll hear evening concert
    st'.session.line = some ⟨"", "Bravo."⟩ ∧
      (sessionsOfAll hear evening concert).flatMap Session.carriedOut =
        ["[Music=overture]", "[ShowPlayer]", "[Bow]", "[GoTo=stage]", "[CG=curtain]", "[Sfx=bell]",
          "[CG]"] ∧
      ∃ remarks, Act.replay Act.noting (Act.goTo Act.noting) st'.session.traversal.history concert =
        .ok () { concert with
          notices := [.call (.playMusic "overture"), .call (.showIllustration "curtain")]
          remarks } := by
  intro hear st'
  obtain ⟨hline, hhistory, hscenery⟩ := concert_plays
  obtain ⟨hcarriedOut, added, hnotices, hreplay⟩ := replayed concert "hall" ""
    (show ∀ r ∈ [input .advance, input .advance], r.isStart = false by simp [isStart])
  obtain ⟨remarks, hreplay⟩ := hreplay Act.noting (Act.goTo Act.noting) concert rfl
  refine ⟨hline, hcarriedOut.symm.trans hhistory, remarks, hreplay.trans ?_⟩
  have hadded : added = st'.notices := by
    show added = (afterAll hear evening concert).notices
    rw [show evening = input (.start "hall" "") :: [input .advance, input .advance] from rfl,
      hnotices]
    rfl
  rw [hadded, hscenery]
  rfl

end Request

end VisualNovel
