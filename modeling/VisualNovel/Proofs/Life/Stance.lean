import VisualNovel.Proofs.Life.Effects

/-!
# The stance of a session

The stance of a session is what it waits for, the text on screen, how lines advance, and whether it
has been halted. Where the session is in its scripts is another matter. A relation between the
stages before and after an act that depends on the stance only is kept by most of what a run does;
if it is kept where a run changes the stance, it is kept by runs, whether they end well or fail. A
run changes the stance in four ways: the session ends, a node cannot be loaded, the reader has to
choose, or a line is presented.

## Main definitions

* `Session.SameStance`: sessions in the same stance;
* `Act.BlindToStory`: relations for which it does not matter where a session is in its scripts;
* `Act.KeptByStory`: such relations that are kept where a run changes the stance;
* `Act.KeptByTravel`: those of them that are kept where a session goes to another place.

## Main results

* `Act.KeptByStory.openNode`, `Act.KeptByStory.run`: they are kept when nodes are opened and by
  runs;
* `Act.KeptByTravel.start`, `Act.KeptByTravel.restore`: so they are by starts and restorations.
-/

namespace VisualNovel

/-- Two sessions are in the same stance. -/
structure Session.SameStance (s s' : Session) : Prop where
  phase : s'.phase = s.phase
  pausedFrom : s'.pausedFrom = s.pausedFrom
  halted : s'.halted = s.halted
  mode : s'.mode = s.mode
  typewriter : s'.typewriter = s.typewriter
  autoTimer : s'.autoTimer = s.autoTimer
  skipTimer : s'.skipTimer = s.skipTimer

namespace Session.SameStance

variable {s s' s'' : Session}

theorem refl (s : Session) : s.SameStance s := ⟨rfl, rfl, rfl, rfl, rfl, rfl, rfl⟩

theorem trans (h : s.SameStance s') (h' : s'.SameStance s'') : s.SameStance s'' where
  phase := h'.phase.trans h.phase
  pausedFrom := h'.pausedFrom.trans h.pausedFrom
  halted := h'.halted.trans h.halted
  mode := h'.mode.trans h.mode
  typewriter := h'.typewriter.trans h.typewriter
  autoTimer := h'.autoTimer.trans h.autoTimer
  skipTimer := h'.skipTimer.trans h.skipTimer

/-- Changing a traversal does not change the stance. -/
theorem modifyTraversalOf (s : Session) (era : Nat) (f : Traversal → Traversal) :
    s.SameStance (s.modifyTraversalOf era f) := by
  unfold Session.modifyTraversalOf
  split <;> exact ⟨rfl, rfl, rfl, rfl, rfl, rfl, rfl⟩

end Session.SameStance

namespace Act

variable {σ α β : Type} {R : Stage σ → Stage σ → Prop} {st : Stage σ} {o : Observer σ}

/-- It does not matter for a relation between stages where the session is in its scripts, nor what
is remarked, asked of helpers and told meanwhile. -/
structure BlindToStory (o : Observer σ) (R : Stage σ → Stage σ → Prop) : Prop where
  refl : ∀ st, R st st
  trans : ∀ {st st₁ st₂}, R st st₁ → R st₁ st₂ → R st st₂
  moves : ∀ st s', st.session.SameStance s' → R st { st with session := s' }
  remarks : ∀ st rs, R st { st with remarks := st.remarks ++ rs }
  asks : ∀ st c, R st (st.asked c)
  tells : ∀ st e, R st (o.react e st)

variable (o) in
/-- A relation of the sessions alone is such a relation if it sees no more than their stance. -/
theorem BlindToStory.of_session {P : Session → Session → Prop} (hrefl : ∀ s, P s s)
    (htrans : ∀ {s s' s''}, P s s' → P s' s'' → P s s'')
    (hmoves : ∀ {s s'}, s.SameStance s' → P s s') :
    BlindToStory o fun st st' : Stage σ => P st.session st'.session where
  refl st := hrefl st.session
  trans := htrans
  moves _ _ := hmoves
  remarks st _ := hrefl st.session
  asks st c := by
    rw [st.session_asked]
    exact hrefl _
  tells st e := by
    rw [o.session_react]
    exact hrefl _

variable (o) in
/-- To be in the same stance is such a relation. -/
theorem blindToStory_sameStance :
    BlindToStory o fun st st' : Stage σ => st.session.SameStance st'.session :=
  .of_session o .refl .trans id

namespace BlindToStory

variable (hR : BlindToStory o R)

include hR

/-! ### Acts in general -/

theorem pure (a : α) : Leaves R (pure a : Act σ α) := hR.refl

theorem throw (f : Failure) : Leaves R (throw f : Act σ α) := hR.refl

theorem session : Leaves R (session : Act σ Session) := hR.refl

theorem get : Leaves R (get : Act σ (Stage σ)) := hR.refl

theorem remarkAll (rs : List Remark) : Leaves R (remarkAll rs : Act σ Unit) :=
  fun st => hR.remarks st rs

theorem ask (c : Call) : Leaves R (ask c : Act σ Unit) := fun st => ends_ask.mpr (hR.asks st c)

theorem hear (e : Event) : Leaves R (o.hear e) := fun st => hR.tells st e

/-- A change that leaves the session in its stance. -/
theorem edit {f : Session → Session} (hf : ∀ s : Session, s.SameStance (f s)) :
    Leaves R (Act.edit f : Act σ Unit) := fun st => hR.moves st _ (hf st.session)

theorem ofExcept (r : Except Failure α) : Leaves R (ofExcept r : Act σ α) :=
  Leaves.ofExcept hR.refl r

theorem bind_from {x : Act σ α} {f : α → Act σ β} (hx : LeavesFrom R st x)
    (hf : ∀ a st', R st st' → LeavesFrom R st' (f a)) : LeavesFrom R st (x >>= f) :=
  hx.bind id hR.trans hf

theorem bind {x : Act σ α} {f : α → Act σ β} (hx : Leaves R x) (hf : ∀ a, Leaves R (f a)) :
    Leaves R (x >>= f) := fun st => hR.bind_from (hx st) fun a st' _ => hf a st'

/-! ### The stack of nodes, blocks and lines -/

theorem findScript (name context : String) : Leaves R (findScript name context : Act σ Node) := by
  refine hR.bind hR.get fun st => ?_
  dsimp only
  exact hR.bind (hR.edit fun _ => ⟨rfl, rfl, rfl, rfl, rfl, rfl, rfl⟩) fun _ =>
    hR.bind (hR.remarkAll _) fun _ => hR.ofExcept _

theorem enter (n : Node) : Leaves R (enter o.hear n) := by
  refine hR.bind hR.session fun s => ?_
  dsimp only
  split
  · exact hR.edit fun _ => ⟨rfl, rfl, rfl, rfl, rfl, rfl, rfl⟩
  · exact hR.bind (hR.edit fun _ => ⟨rfl, rfl, rfl, rfl, rfl, rfl, rfl⟩) fun _ =>
      hR.bind (hR.edit fun _ => ⟨rfl, rfl, rfl, rfl, rfl, rfl, rfl⟩) fun _ => hR.hear _

theorem passConditionals (n : Node) : Leaves R (passConditionals n : Act σ Unit) := by
  refine hR.bind hR.session fun _ =>
    hR.bind (hR.edit fun _ => ⟨rfl, rfl, rfl, rfl, rfl, rfl, rfl⟩) fun _ =>
    hR.bind (hR.remarkAll _) fun _ => ?_
  split
  · exact hR.throw _
  · exact hR.pure ()

theorem nextLine (era : Nat) : Leaves R (nextLine era : Act σ Unit) :=
  hR.edit fun s => .modifyTraversalOf s era _

theorem turnTo (speaker : String) : Leaves R (turnTo speaker : Act σ Unit) := by
  refine hR.bind hR.session fun _ => ?_
  split
  · refine hR.bind (hR.edit fun _ => ⟨rfl, rfl, rfl, rfl, rfl, rfl, rfl⟩) fun _ => ?_
    split
    · exact hR.ask _
    · exact hR.pure ()
  · exact hR.pure ()

theorem record (line : Spoken) : Leaves R (record line : Act σ Unit) := by
  refine hR.bind hR.session fun _ => ?_
  split
  · exact hR.bind (hR.edit fun _ => ⟨rfl, rfl, rfl, rfl, rfl, rfl, rfl⟩) fun _ =>
      hR.edit fun _ => ⟨rfl, rfl, rfl, rfl, rfl, rfl, rfl⟩
  · exact hR.edit fun _ => ⟨rfl, rfl, rfl, rfl, rfl, rfl, rfl⟩

theorem refresh : Leaves R (refresh : Act σ Unit) := by
  refine hR.bind hR.session fun _ => ?_
  split
  · exact hR.ask _
  · exact hR.pure ()

theorem currentNode : Leaves R (currentNode : Act σ Node) := by
  refine hR.bind hR.session fun _ => ?_
  split
  · exact hR.pure _
  · exact hR.throw _

/-! ### Commands -/

theorem dispatch {goTo : String → Act σ Unit} (hgo : ∀ name, Leaves R (goTo name)) (text : String)
    (replay : Bool) : Leaves R (dispatch o.hear goTo text replay) := by
  have heffect (e : Effect) : Leaves R (bringAbout goTo e) := by
    cases e with
    | none => exact hR.pure ()
    | incomplete message => exact hR.remarkAll _
    | call c => exact hR.ask c
    | goTo name => exact hgo name
  unfold Act.dispatch
  split
  · exact hR.pure _
  split
  · exact hR.pure _
  refine hR.bind (heffect _) fun _ => ?_
  split
  · exact hR.bind (hR.hear _) fun _ => hR.pure _
  · exact hR.pure _

theorem replay {goTo : String → Act σ Unit} (hgo : ∀ name, Leaves R (goTo name))
    (lines : List String) : Leaves R (replay o.hear goTo lines) := by
  induction lines with
  | nil => exact hR.pure ()
  | cons line lines ih => exact hR.bind (hR.dispatch hgo line true) fun _ => ih

/-! ### Loading the nodes of a traversal -/

theorem loadNodes (fs : List Frame) : Leaves R (loadNodes fs : Act σ (List Node)) := by
  induction fs with
  | nil => exact hR.pure _
  | cons f fs ih =>
    exact hR.bind (hR.findScript _ _) fun _ => hR.bind ih fun _ => hR.pure _

theorem loadOrUndo (t : Traversal) : Leaves R (loadOrUndo t : Act σ (List Node)) := by
  have hfitting : Leaves R (loadFitting t : Act σ (List Node)) := by
    refine hR.bind (hR.loadNodes _) fun nodes => ?_
    split
    · exact hR.throw _
    · exact hR.pure _
  refine hR.bind hR.session fun _ => hR.bind (hfitting.attempt _) fun loaded => ?_
  split
  · exact hR.pure _
  · exact hR.bind (hR.edit fun _ => ⟨rfl, rfl, rfl, rfl, rfl, rfl, rfl⟩) fun _ => hR.throw _

theorem settle (era : Nat) : Leaves R (settle era : Act σ Unit) := by
  refine hR.bind (hR.edit fun _ => ⟨rfl, rfl, rfl, rfl, rfl, rfl, rfl⟩) fun _ =>
    hR.bind hR.session fun _ => ?_
  split
  · exact hR.throw _
  · exact hR.pure ()

end BlindToStory

/-- The relation is kept where a run changes the stance. The reader is asked, and lines are
presented, only as long as the session has not been halted. -/
structure KeptByStory (o : Observer σ) (R : Stage σ → Stage σ → Prop) : Prop
    extends BlindToStory o R where
  ends : Leaves R (endSession o.hear)
  abandons : ∀ name f, Leaves R (abandonNode o.hear name f)
  awaits : ∀ st d, st.session.halted = false → LeavesFrom R st (awaitChoice o.hear d)
  presents : ∀ st n line, st.session.halted = false → LeavesFrom R st (present o.hear n line)

namespace KeptByStory

variable (hR : KeptByStory o R)

include hR

theorem openNode (name context : String) : Leaves R (openNode o.hear name context) := by
  refine hR.bind hR.session fun _ => ?_
  split
  · exact hR.pure _
  refine hR.bind ((hR.findScript _ _).attempt _) fun found => ?_
  split
  · exact hR.bind (hR.abandons _ _) fun _ => hR.throw _
  · split
    · exact hR.bind (hR.remarkAll _) fun _ => hR.pure _
    · exact hR.bind (hR.enter _) fun _ => hR.pure _

theorem goTo (name : String) : Leaves R (goTo o.hear name) :=
  hR.bind hR.session fun _ => hR.bind ((hR.openNode _ _).attempt _) fun _ => hR.pure ()

theorem finishNode : Leaves R (finishNode o.hear) := by
  refine hR.bind hR.session fun s => ?_
  split
  · exact hR.throw _
  refine hR.bind (hR.edit fun _ => ⟨rfl, rfl, rfl, rfl, rfl, rfl, rfl⟩) fun _ =>
    hR.bind (hR.hear _) fun _ => hR.bind hR.session fun _ =>
    hR.bind (hR.edit fun s => .modifyTraversalOf s _ _) fun _ => ?_
  split
  · exact hR.bind hR.ends fun _ => hR.pure _
  · exact hR.pure _

/-- A session that goes on behind its decisions has not changed its stance. -/
theorem passDecisions (n : Node) (hhalted : st.session.halted = false) :
    Ends (passDecisions o.hear n) st
      (fun asks st' => R st st' ∧ (asks = false → st.session.SameStance st'.session))
      fun _ st' => R st st' := by
  unfold Act.passDecisions
  simp only [ends_bind, ends_session, ends_edit]
  -- the cursor has no bearing on the stance
  generalize hst₁ : ({ st with session := st.session.withCursor _ } : Stage σ) = st₁
  have hsame : st.session.SameStance st₁.session := by
    rw [← hst₁]
    exact ⟨rfl, rfl, rfl, rfl, rfl, rfl, rfl⟩
  have hmove : R st st₁ := by
    rw [← hst₁]
    exact hR.moves _ _ ⟨rfl, rfl, rfl, rfl, rfl, rfl, rfl⟩
  split
  · exact ⟨hmove, fun _ => hsame⟩
  · exact hmove
  · next d _ =>
    rw [ends_bind]
    refine (hR.awaits st₁ d (hsame.halted.trans hhalted)).imp (fun _ _ h => ?_) fun _ _ h => ?_
    · exact ⟨hR.trans hmove h, fun hno => by cases hno⟩
    · exact hR.trans hmove h

theorem takeLine (era : Nat) (n : Node) (text : String) (hhalted : st.session.halted = false) :
    LeavesFrom R st (takeLine o.hear era n text) := by
  unfold Act.takeLine
  split
  · refine hR.bind (hR.edit fun s => .modifyTraversalOf s era _) (fun _ => ?_) st
    exact hR.bind (hR.nextLine era) fun _ =>
      hR.bind (hR.dispatch hR.goTo text false) fun _ => hR.pure _
  · dsimp only
    split
    · exact hR.bind (hR.nextLine era) (fun _ => hR.pure _) st
    · exact hR.bind_from (hR.presents st n _ hhalted) fun _ st' _ => hR.pure _ st'

theorem step (era : Nat) : Leaves R (step o.hear era) := by
  intro st
  refine step_rule (fun _ => hR.refl st) (fun _ _ _ _ => hR.finishNode st) fun n hhalted _ _ => ?_
  -- up to the line itself the session keeps its stance, so it is not halted there either
  have hpass := (blindToStory_sameStance o).passConditionals n st
  refine ((hR.passConditionals n st).and hpass).imp ?_ fun _ _ h => h.1
  rintro - st₁ ⟨h₁, hsame₁⟩
  have hhalted₁ := hsame₁.halted.trans hhalted
  refine (hR.passDecisions n hhalted₁).imp ?_ fun _ _ h => hR.trans h₁ h
  rintro asks st₂ ⟨h₂, hsame₂⟩
  have h₂ := hR.trans h₁ h₂
  cases asks with
  | true => exact h₂
  | false =>
    refine ⟨fun _ => h₂, fun _ _ => h₂, fun text _ _ => ?_⟩
    refine (hR.takeLine era n text ((hsame₂ rfl).halted.trans hhalted₁)).imp ?_ ?_
    · exact fun _ _ h₃ => hR.trans h₂ h₃
    · exact fun _ _ h₃ => hR.trans h₂ h₃

theorem steps (era k : Nat) : Leaves R (steps o.hear era k) := by
  -- on the number of steps that are left
  induction k with
  | zero => exact hR.throw _
  | succ k ih =>
    refine hR.bind (hR.step era) fun goesOn => ?_
    split
    · exact ih
    · exact hR.pure ()

theorem run (seen : List Visit) : Leaves R (run o.hear seen) := by
  refine hR.bind (hR.edit fun _ => ⟨rfl, rfl, rfl, rfl, rfl, rfl, rfl⟩) fun _ => ?_
  exact hR.bind hR.session fun s => hR.bind hR.get fun st => hR.steps s.era st.setup.patience

theorem findNode (name context : String) : Leaves R (findNode o.hear name context) := by
  refine hR.bind (hR.openNode _ _) fun opened => ?_
  split
  · exact hR.bind (hR.run []) fun _ => hR.pure _
  · exact hR.pure _

end KeptByStory

/-- The relation is kept also where a session starts anew and where a stored traversal takes its
place. -/
structure KeptByTravel (o : Observer σ) (R : Stage σ → Stage σ → Prop) : Prop
    extends KeptByStory o R where
  freshens : ∀ st, R st { st with session := st.session.fresh }
  resumes : ∀ st t nodes, R st { st with session := st.session.resumed t nodes }

namespace KeptByTravel

variable (hR : KeptByTravel o R)

include hR

theorem start (name context : String) : Leaves R (start o.hear name context) := by
  refine hR.bind (x := Act.edit Session.fresh) hR.freshens fun _ =>
    hR.bind (hR.findNode _ _) fun found => ?_
  split
  · exact hR.bind (hR.hear _) fun _ => hR.pure _
  · exact hR.bind hR.ends fun _ => hR.pure _

/-- Going on in a traversal keeps the relation. -/
theorem resumeAt (t : Traversal) (nodes : List Node) : Leaves R (resumeAt o.hear t nodes) := by
  refine hR.bind (x := Act.edit fun s => s.resumed t nodes) (fun st => hR.resumes st t nodes)
    fun _ => hR.bind hR.session fun s => ?_
  -- none of the commands that are replayed goes to a node, but it would not matter either
  refine hR.bind (hR.replay hR.goTo t.history) fun _ => ?_
  refine hR.bind (hR.edit fun _ => ⟨rfl, rfl, rfl, rfl, rfl, rfl, rfl⟩) fun _ => ?_
  exact hR.bind (hR.run []) fun _ => hR.settle _

theorem restore (stored : String) : Leaves R (restore o.hear stored) := by
  unfold Act.restore
  split
  · exact hR.throw _
  · next t _ =>
    have htake : Leaves R (Act.loadOrUndo t >>= Act.resumeAt o.hear t) :=
      hR.bind (hR.loadOrUndo t) fun nodes => hR.resumeAt t nodes
    split
    · exact hR.bind (hR.throw _) fun _ => htake
    · exact htake

end KeptByTravel

end Act

end VisualNovel
