import VisualNovel.Session.Input

/-!
# Sessions that are only observed

What becomes of the events of a session is up to its host. An observer may do with its own part of
the stage whatever it likes, but it leaves the session, its surroundings and the files alone. Much
of what a session does only changes what is on show; such acts leave the session at its place.

## Main definitions

* `Observer`: a listener that leaves the session alone;
* `Session.Alike`: sessions that differ at most in what is on show;
* `Stage.Follows`: a stage whose session has become another one, up to what is on show;
* `Act.Ends`: how an act ends, well or not.

## Main results

* `Act.ends_bind` and the other rules by which the end of an act is computed;
* `Act.turnTo_ends`, `Act.completeText_ends`, `Act.showWhole_ends`, `Act.setMode_ends`: acts that
  only change what is on show.
-/

namespace VisualNovel

/-- A listener that leaves the session alone. -/
structure Observer (σ : Type) where
  /-- The stage after an event has been heard. -/
  react : Event → Stage σ → Stage σ
  /-- The session is left alone. -/
  session_react : ∀ e st, (react e st).session = st.session
  /-- The surroundings are left alone. -/
  setup_react : ∀ e st, (react e st).setup = st.setup
  /-- The files are left alone. -/
  files_react : ∀ e st, (react e st).files = st.files

attribute [simp] Observer.session_react Observer.setup_react Observer.files_react

namespace Observer

variable {σ : Type}

/-- What an observer does with an event. -/
def hear (o : Observer σ) : Listener σ := fun e => modify (o.react e)

/-- The observer that notes every event. -/
def noting : Observer σ where
  react e st := { st with notices := st.notices ++ [.event e] }
  session_react _ _ := rfl
  setup_react _ _ := rfl
  files_react _ _ := rfl

end Observer

/-- Two sessions differ at most in what is on show: who spoke last, the text as it is revealed, and
how it advances. -/
def Session.Alike (s s' : Session) : Prop :=
  ∃ speaker typewriter autoTimer skipTimer mode,
    s' = { s with speaker, typewriter, autoTimer, skipTimer, mode }

/-- A session is like itself. -/
theorem Session.Alike.refl (s : Session) : s.Alike s := ⟨_, _, _, _, _, rfl⟩

/-- Likeness is handed on. -/
theorem Session.Alike.trans {s s' s'' : Session} (h : s.Alike s') (h' : s'.Alike s'') :
    s.Alike s'' := by
  obtain ⟨_, _, _, _, _, rfl⟩ := h
  obtain ⟨_, _, _, _, _, rfl⟩ := h'
  exact ⟨_, _, _, _, _, rfl⟩

namespace Stage

variable {σ : Type}

/-- A stage follows on another one: its session is a given one up to what is on show, and the
surroundings and the files are the same. -/
structure Follows (st st' : Stage σ) (s : Session) : Prop where
  /-- The surroundings are the same. -/
  setup : st'.setup = st.setup
  /-- The files are the same. -/
  files : st'.files = st.files
  /-- The session is the given one. -/
  session : s.Alike st'.session

/-- A stage follows on itself. -/
theorem Follows.refl (st : Stage σ) : st.Follows st st.session := ⟨rfl, rfl, .refl _⟩

/-- A helper has been asked to do something, if it is there. -/
def asked (st : Stage σ) (c : Call) : Stage σ :=
  if st.setup.helpers.contains c.helper then { st with notices := st.notices ++ [.call c] } else st

variable (st : Stage σ) (c : Call)

@[simp]
theorem session_asked : (st.asked c).session = st.session := by
  unfold asked
  split <;> rfl

@[simp]
theorem host_asked : (st.asked c).host = st.host := by
  unfold asked
  split <;> rfl

@[simp]
theorem setup_asked : (st.asked c).setup = st.setup := by
  unfold asked
  split <;> rfl

@[simp]
theorem files_asked : (st.asked c).files = st.files := by
  unfold asked
  split <;> rfl

end Stage

namespace Act

variable {σ α β : Type} {st : Stage σ}

/-- An act ends well with one property or fails with another one. -/
def Ends (x : Act σ α) (st : Stage σ) (Q : α → Stage σ → Prop) (E : Failure → Stage σ → Prop) :
    Prop :=
  match x st with
  | .ok a st' => Q a st'
  | .error f st' => E f st'

/-- How an act ends can be computed. -/
instance {x : Act σ α} {Q : α → Stage σ → Prop} {E : Failure → Stage σ → Prop}
    [∀ a st', Decidable (Q a st')] [∀ f st', Decidable (E f st')] : Decidable (Ends x st Q E) :=
  match h : x st with
  | .ok a st' => decidable_of_iff (Q a st') (by simp [Ends, h])
  | .error f st' => decidable_of_iff (E f st') (by simp [Ends, h])

section Rules

variable {Q : α → Stage σ → Prop} {R : β → Stage σ → Prop} {U : Unit → Stage σ → Prop}
  {E : Failure → Stage σ → Prop}

/-- What an act that has ended well ends with. -/
theorem Ends.of_ok {x : Act σ α} (h : Ends x st Q E) {a : α} {st' : Stage σ}
    (hx : x st = .ok a st') : Q a st' := by
  simpa [Ends, hx] using h

/-- What an act that has failed fails with. -/
theorem Ends.of_error {x : Act σ α} (h : Ends x st Q E) {f : Failure} {st' : Stage σ}
    (hx : x st = .error f st') : E f st' := by
  simpa [Ends, hx] using h

/-- What an act ends with implies what follows from it. -/
theorem Ends.imp {Q' : α → Stage σ → Prop} {E' : Failure → Stage σ → Prop} {x : Act σ α}
    (h : Ends x st Q E) (hQ : ∀ a st', Q a st' → Q' a st') (hE : ∀ f st', E f st' → E' f st') :
    Ends x st Q' E' := by
  unfold Ends at h ⊢
  split
  · next hx => exact hQ _ _ (by simpa [hx] using h)
  · next hx => exact hE _ _ (by simpa [hx] using h)

/-- An act ends with both of two things. -/
theorem Ends.and {Q' : α → Stage σ → Prop} {E' : Failure → Stage σ → Prop} {x : Act σ α}
    (h : Ends x st Q E) (h' : Ends x st Q' E') :
    Ends x st (fun a st' => Q a st' ∧ Q' a st') fun f st' => E f st' ∧ E' f st' := by
  unfold Ends at h h' ⊢
  split <;> next hx => exact ⟨by simpa [hx] using h, by simpa [hx] using h'⟩

/-- An act ends with what it comes to. -/
theorem Ends.and_eq {x : Act σ α} (h : Ends x st Q E) :
    Ends x st (fun a st' => Q a st' ∧ x st = .ok a st')
      fun f st' => E f st' ∧ x st = .error f st' := by
  unfold Ends at h ⊢
  split <;> next hx => exact ⟨by simpa [hx] using h, hx⟩

/-- Nothing is asked of how an act ends. -/
theorem ends_of_forall {x : Act σ α} (hQ : ∀ a st', Q a st') (hE : ∀ f st', E f st') :
    Ends x st Q E := by
  unfold Ends
  split
  · exact hQ _ _
  · exact hE _ _

/-- An act that cannot fail ends well. -/
theorem Ends.exists_ok {x : Act σ α} (h : Ends x st Q fun _ _ => False) :
    ∃ a st', x st = .ok a st' ∧ Q a st' := by
  unfold Ends at h
  cases hx : x st with
  | ok a st' => exact ⟨a, st', rfl, by simpa [hx] using h⟩
  | error f st' => simp [hx] at h

/-- Two acts one after the other. -/
theorem bind_apply (x : Act σ α) (f : α → Act σ β) : (x >>= f) st = match x st with
    | .ok a st' => f a st'
    | .error e st' => .error e st' := by
  show EStateM.bind x f st = _
  rw [EStateM.bind]
  cases x st <;> rfl

/-- What is done with the session. -/
theorem session_bind_apply (f : Session → Act σ β) (st : Stage σ) :
    (session >>= f) st = f st.session st := rfl

/-- What is done when the session has been changed. -/
theorem edit_bind_apply (f : Session → Session) (x : Unit → Act σ β) (st : Stage σ) :
    (edit f >>= x) st = x () { st with session := f st.session } := rfl

/-- Two acts succeed one after the other if each of them does. -/
theorem bind_eq_ok_iff {x : Act σ α} {f : α → Act σ β} {b : β} {st' : Stage σ} :
    (x >>= f) st = .ok b st' ↔ ∃ a st₁, x st = .ok a st₁ ∧ f a st₁ = .ok b st' := by
  rw [bind_apply]
  cases x st with
  | ok a st₁ =>
    constructor
    · exact fun h => ⟨a, st₁, rfl, h⟩
    · rintro ⟨a, st₁, hx, h⟩
      obtain ⟨rfl, rfl⟩ := EStateM.Result.ok.inj hx
      exact h
  | error f st₁ => simp

@[simp]
theorem ends_bind {x : Act σ α} {f : α → Act σ β} :
    Ends (x >>= f) st R E ↔ Ends x st (fun a st' => Ends (f a) st' R E) E := by
  unfold Ends
  rw [bind_apply]
  cases x st <;> rfl

@[simp]
theorem ends_pure {a : α} : Ends (pure a) st Q E ↔ Q a st := Iff.rfl

@[simp]
theorem ends_throw {f : Failure} : Ends (throw f) st Q E ↔ E f st := Iff.rfl

@[simp]
theorem ends_get {Q : Stage σ → Stage σ → Prop} : Ends get st Q E ↔ Q st st := Iff.rfl

@[simp]
theorem ends_session {Q : Session → Stage σ → Prop} :
    Ends session st Q E ↔ Q st.session st := Iff.rfl

@[simp]
theorem ends_edit {f : Session → Session} :
    Ends (edit f) st U E ↔ U () { st with session := f st.session } := Iff.rfl

@[simp]
theorem ends_editTraversal {f : Traversal → Traversal} :
    Ends (editTraversal f) st U E ↔
      U () { st with session := { st.session with traversal := f st.session.traversal } } :=
  Iff.rfl

@[simp]
theorem ends_remarkAll {rs : List Remark} :
    Ends (remarkAll rs) st U E ↔ U () { st with remarks := st.remarks ++ rs } := Iff.rfl

@[simp]
theorem ends_remark {severity : Severity} {source message : String} :
    Ends (remark severity source message) st U E ↔
      U () { st with remarks := st.remarks ++ [⟨severity, source, message⟩] } := Iff.rfl

@[simp]
theorem ends_ask {c : Call} : Ends (ask c) st U E ↔ U () (st.asked c) := by
  unfold Stage.asked
  by_cases hc : st.setup.helpers.contains c.helper <;> simp only [hc] <;> unfold ask
  all_goals
    simp only [ends_bind, ends_get, hc]
    rfl

@[simp]
theorem ends_hear {o : Observer σ} {e : Event} : Ends (o.hear e) st U E ↔ U () (o.react e st) :=
  Iff.rfl

@[simp]
theorem ends_ite {p : Prop} [Decidable p] {x y : Act σ α} :
    Ends (if p then x else y) st Q E ↔ if p then Ends x st Q E else Ends y st Q E := by
  split <;> rfl

@[simp]
theorem ends_ofExcept {r : Except Failure α} :
    Ends (ofExcept r) st Q E ↔ match r with
      | .ok a => Q a st
      | .error f => E f st := by
  cases r <;> rfl

/-- What is caught is handed to the handler. -/
theorem tryCatch_apply (x : Act σ α) (handle : Failure → Act σ α) :
    tryCatch x handle st = match x st with
      | .ok a st' => .ok a st'
      | .error f st' => handle f st' := by
  simp only [tryCatch, tryCatchThe, MonadExceptOf.tryCatch]
  delta EStateM.tryCatch
  cases x st <;> rfl

@[simp]
theorem ends_attempt {caught : Failure → Bool} {x : Act σ α}
    {Q : Except Failure α → Stage σ → Prop} :
    Ends (attempt caught x) st Q E ↔
      Ends x st (fun a st' => Q (.ok a) st')
        (fun f st' => if caught f then Q (.error f) st' else E f st') := by
  have happly : attempt caught x st = match x st with
      | .ok a st' => .ok (.ok a) st'
      | .error f st' => if caught f then .ok (.error f) st' else .error f st' := by
    rw [attempt, tryCatch_apply]
    simp only [bind, EStateM.bind]
    cases x st with
    | ok a st' => rfl
    | error f st' => by_cases hf : caught f <;> simp only [hf, if_true] <;> rfl
  unfold Ends
  rw [happly]
  cases x st with
  | ok a st' => rfl
  | error f st' => by_cases hf : caught f <;> simp [hf]

end Rules

section Specs

variable (o : Observer σ) {Q : Unit → Stage σ → Prop} {E : Failure → Stage σ → Prop}

/-- Showing a text leaves the session as it is. -/
theorem refresh_ends (h : ∀ st', st.Follows st' st.session → Q () st') :
    Ends refresh st Q E := by
  unfold refresh
  cases hw : st.session.typewriter with
  | none => simpa [hw] using h st (.refl st)
  | some w => simpa [hw] using h _ ⟨by simp, by simp, by simp [Session.Alike.refl]⟩

/-- Revealing the whole text leaves the session at its place. -/
theorem completeText_ends (h : ∀ st', st.Follows st' st.session → Q () st') :
    Ends (completeText o.hear) st Q E := by
  unfold completeText
  cases hw : st.session.typewriter with
  | none => simpa [hw] using h st (.refl st)
  | some w =>
    cases hc : w.complete with
    | true => simpa [hw, hc] using h st (.refl st)
    | false =>
      simp only [ends_bind, ends_session, hw, hc, tellCompletion, ends_edit, ends_hear,
        Bool.not_false, if_true]
      exact h _ ⟨by simp, by simp, by simp [Session.Alike]⟩

/-- Revealing and showing the whole text leaves the session at its place. -/
theorem showWhole_ends (h : ∀ st', st.Follows st' st.session → Q () st') :
    Ends (showWhole o.hear) st Q E := by
  unfold showWhole
  cases hw : st.session.typewriter with
  | none => simpa [hw] using h st (.refl st)
  | some w =>
    cases hc : w.complete with
    | true => simpa [hw, hc] using h st (.refl st)
    | false =>
      simp only [ends_bind, ends_session, hw, hc, Bool.not_false, if_true]
      refine completeText_ends o fun st₁ h₁ => refresh_ends fun st₂ h₂ => h st₂ ?_
      exact ⟨h₂.setup.trans h₁.setup, h₂.files.trans h₁.files, h₁.session.trans h₂.session⟩

/-- Noting who speaks leaves the session at its place. -/
theorem turnTo_ends {speaker : String} (h : ∀ st', st.Follows st' st.session → Q () st') :
    Ends (turnTo speaker) st Q E := by
  unfold turnTo
  simp only [ends_bind, ends_session, ends_ite, ends_edit, ends_ask, ends_pure]
  split
  · split
    · exact h _ ⟨by simp, by simp, by simp [Session.Alike]⟩
    · exact h _ ⟨rfl, rfl, _, _, _, _, _, rfl⟩
  · exact h st (.refl st)

/-- Changing how lines advance leaves the session at its place. -/
theorem setMode_ends {mode : PlaybackMode} (h : ∀ st', st.Follows st' st.session → Q () st') :
    Ends (setMode o.hear mode) st Q E := by
  unfold setMode
  simp only [ends_bind, ends_session, ends_ite, ends_edit, ends_hear, ends_pure]
  split
  · exact h _ ⟨by simp, by simp, by simp [Session.Alike]⟩
  · exact h _ ⟨rfl, rfl, _, _, _, _, _, rfl⟩

end Specs

end Act

end VisualNovel
