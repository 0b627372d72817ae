import VisualNovel.Proofs.Life.Moves
import VisualNovel.Proofs.Life.Replaying

/-!
# What acts leave alone

Most of what a session does has no bearing on the nodes that it is in or on the commands that it
has carried out. A relation between the stages before and after an act that depends on these only
is therefore kept by most acts as a matter of course, whether they end well or fail; and if it is
kept where nodes are opened and finished and where commands are carried out, it is kept by all that
can be asked of a session.

## Main definitions

* `Act.Leaves`: however an act ends, the stage is in a relation to the one before;
* `Act.BlindToShow`, `Act.BlindToPlace`: relations for which it does not matter what is on show, or
  even where the session is in its node;
* `Act.Endures`: such a relation that is kept where a session does more than that;
* `Request.after`, `Request.afterAll`: the stage after requests, whether or not they succeed.

## Main results

* `Act.Endures.step`, `Act.Endures.run`: the relation is kept by steps and runs;
* `Act.Endures.perform`: it is kept by requests.
-/

namespace VisualNovel

/-- The events that tell of the stack of nodes. -/
def Event.isOfNodes : Event → Bool
  | nodeEntered _ | nodeCompleted _ => true
  | _ => false

/-- The session when the innermost node has been taken off the stack, and the node below has not
come back yet. -/
def Session.popped (s : Session) (f : Frame) : Session :=
  { s with traversal := s.traversal.complete f.node, nodes := s.nodes.dropLast }

/-- A session has become another one in the same era. It is in nodes of the same names, the same
nodes are complete, and the same commands have been carried out. -/
structure Session.Undisturbed (s s' : Session) : Prop where
  retired : s'.retired = s.retired
  names : s'.traversal.names = s.traversal.names
  completed : s'.traversal.completed = s.traversal.completed
  history : s'.traversal.history = s.traversal.history

namespace Traversal

variable (t : Traversal)

theorem history_enter (node context : String) : (t.enter node context).history = t.history := by
  unfold enter
  split <;> rfl

theorem history_comeBack : t.comeBack.history = t.history := by
  unfold comeBack
  split <;> rfl

end Traversal

namespace Act

variable {σ α β : Type} {R : Stage σ → Stage σ → Prop} {st : Stage σ} {o : Observer σ}

/-- However an act on a stage ends, it leaves a stage that is in a relation to the one before. -/
def LeavesFrom (R : Stage σ → Stage σ → Prop) (st : Stage σ) (x : Act σ α) : Prop :=
  Ends x st (fun _ => R st) fun _ => R st

/-- However an act ends, the stage is in a relation to the one before. -/
def Leaves (R : Stage σ → Stage σ → Prop) (x : Act σ α) : Prop := ∀ st, LeavesFrom R st x

/-- It does not matter for a relation between stages what is on show, what is remarked and asked of
helpers meanwhile, and what is told, unless it is told of nodes. -/
structure BlindToShow (o : Observer σ) (R : Stage σ → Stage σ → Prop) : Prop where
  refl : ∀ st, R st st
  trans : ∀ {st st₁ st₂}, R st st₁ → R st₁ st₂ → R st st₂
  shows : ∀ st s', st.session.Alike s' → R st { st with session := s' }
  remarks : ∀ st rs, R st { st with remarks := st.remarks ++ rs }
  asks : ∀ st c, c.isScenery = false → R st (st.asked c)
  tells : ∀ st e, e.isOfNodes = false → R st (o.react e st)

/-! ### Acts in general -/

/-- What is caught has been done as well. -/
theorem Leaves.attempt {x : Act σ α} (hx : Leaves R x) (caught : Failure → Bool) :
    Leaves R (attempt caught x) := by
  intro st
  rw [LeavesFrom, ends_attempt]
  refine (hx st).imp (fun _ _ h => h) fun _ _ h => ?_
  split <;> exact h

/-- Two acts one after the other: the first one may fail, or the second one goes on from what the
first one has left. -/
theorem LeavesFrom.bind {S T : Stage σ → Stage σ → Prop} {x : Act σ α} {f : α → Act σ β}
    (hx : LeavesFrom R st x) (hfails : ∀ {st'}, R st st' → T st st')
    (hjoin : ∀ {st₁ st₂}, R st st₁ → S st₁ st₂ → T st st₂)
    (hf : ∀ a st', R st st' → LeavesFrom S st' (f a)) : LeavesFrom T st (x >>= f) := by
  rw [LeavesFrom, ends_bind]
  refine hx.imp (fun a st' h => ?_) fun _ _ h => hfails h
  exact (hf a st' h).imp (fun _ _ h' => hjoin h h') fun _ _ h' => hjoin h h'

/-- What is computed without a stage leaves it as it is. -/
theorem Leaves.ofExcept (hrefl : ∀ st, R st st) (r : Except Failure α) :
    Leaves R (ofExcept r : Act σ α) := by
  cases r with
  | ok a => exact hrefl
  | error f => exact hrefl

namespace BlindToShow

variable (hR : BlindToShow o R)

include hR

theorem pure (a : α) : Leaves R (pure a : Act σ α) := hR.refl

theorem throw (f : Failure) : Leaves R (throw f : Act σ α) := hR.refl

theorem session : Leaves R (session : Act σ Session) := hR.refl

theorem get : Leaves R (get : Act σ (Stage σ)) := hR.refl

theorem remarkAll (rs : List Remark) : Leaves R (remarkAll rs : Act σ Unit) :=
  fun st => hR.remarks st rs

theorem ask {c : Call} (hc : c.isScenery = false) : Leaves R (ask c : Act σ Unit) :=
  fun st => ends_ask.mpr (hR.asks st c hc)

theorem hear {e : Event} (he : e.isOfNodes = false) : Leaves R (o.hear e) :=
  fun st => hR.tells st e he

/-- A change of what is on show. -/
theorem edit {f : Session → Session} (hf : ∀ s : Session, s.Alike (f s)) :
    Leaves R (edit f : Act σ Unit) := fun st => hR.shows st _ (hf st.session)

theorem ofExcept (r : Except Failure α) : Leaves R (ofExcept r : Act σ α) :=
  Leaves.ofExcept hR.refl r

/-- Two acts one after the other. -/
theorem bind_from {x : Act σ α} {f : α → Act σ β} (hx : LeavesFrom R st x)
    (hf : ∀ a st', R st st' → LeavesFrom R st' (f a)) : LeavesFrom R st (x >>= f) :=
  hx.bind id hR.trans hf

theorem bind {x : Act σ α} {f : α → Act σ β} (hx : Leaves R x) (hf : ∀ a, Leaves R (f a)) :
    Leaves R (x >>= f) := fun st => hR.bind_from (hx st) fun a st' _ => hf a st'

/-! ### What is on show -/

theorem refresh : Leaves R (refresh : Act σ Unit) := by
  refine hR.bind hR.session fun s => ?_
  split
  · exact hR.ask rfl
  · exact hR.pure ()

theorem tellCompletion : Leaves R (tellCompletion o.hear) :=
  hR.bind (hR.edit fun _ => ⟨_, _, _, _, _, rfl⟩) fun _ => hR.hear rfl

theorem completeText : Leaves R (completeText o.hear) := by
  refine hR.bind hR.session fun s => ?_
  split
  · exact hR.pure ()
  · split
    · exact hR.bind (hR.edit fun _ => ⟨_, _, _, _, _, rfl⟩) fun _ => hR.tellCompletion
    · exact hR.pure ()

theorem showWhole : Leaves R (showWhole o.hear) := by
  refine hR.bind hR.session fun s => ?_
  split
  · exact hR.pure ()
  · split
    · exact hR.bind hR.completeText fun _ => hR.refresh
    · exact hR.pure ()

theorem turnTo (speaker : String) : Leaves R (turnTo speaker : Act σ Unit) := by
  refine hR.bind hR.session fun s => ?_
  split
  · refine hR.bind (hR.edit fun _ => ⟨_, _, _, _, _, rfl⟩) fun _ => ?_
    split
    · exact hR.ask rfl
    · exact hR.pure ()
  · exact hR.pure ()

theorem setMode (mode : PlaybackMode) : Leaves R (setMode o.hear mode) := by
  refine hR.bind (hR.edit fun _ => ⟨_, _, _, _, _, rfl⟩) fun _ => hR.bind hR.session fun s => ?_
  split
  · exact hR.bind (hR.edit fun _ => ⟨_, _, _, _, _, rfl⟩) fun _ => hR.hear rfl
  · exact hR.pure ()

theorem type (w : Typewriter) (dt : Float) : Leaves R (type o.hear w dt) := by
  refine hR.bind (hR.edit fun _ => ⟨_, _, _, _, _, rfl⟩) fun _ => ?_
  dsimp only
  split
  · exact hR.bind hR.tellCompletion fun _ => hR.refresh
  · exact hR.refresh

theorem toggleAuto : Leaves R (toggleAuto o.hear) := hR.bind hR.session fun _ => hR.setMode _

theorem toggleFastForward : Leaves R (toggleFastForward o.hear) := by
  refine hR.bind hR.session fun s => ?_
  split
  · exact hR.setMode _
  · exact hR.bind (hR.setMode _) fun _ => hR.showWhole

theorem currentNode : Leaves R (currentNode : Act σ Node) := by
  refine hR.bind hR.session fun s => ?_
  split
  · exact hR.pure _
  · exact hR.throw _

end BlindToShow

/-! ### The place of a session -/

/-- It does not even matter for a relation between stages where the session is in its node. -/
structure BlindToPlace (o : Observer σ) (R : Stage σ → Stage σ → Prop) : Prop
    extends BlindToShow o R where
  moves : ∀ st s', st.session.Undisturbed s' → R st { st with session := s' }
  /-- The era stays the same. -/
  retired : ∀ {st st'}, R st st' → st'.session.retired = st.session.retired

namespace BlindToPlace

variable (hR : BlindToPlace o R)

include hR

/-- A change that leaves the session undisturbed. -/
theorem move {f : Session → Session} (hf : ∀ s : Session, s.Undisturbed (f s)) :
    Leaves R (Act.edit f : Act σ Unit) := fun st => hR.moves st _ (hf st.session)

theorem endSession : Leaves R (endSession o.hear) :=
  hR.bind (hR.move fun _ => ⟨rfl, rfl, rfl, rfl⟩) fun _ => hR.hear rfl

theorem findScript (name context : String) : Leaves R (findScript name context : Act σ Node) :=
  hR.bind hR.get fun _ => hR.bind (hR.move fun _ => ⟨rfl, rfl, rfl, rfl⟩) fun _ =>
    hR.bind (hR.remarkAll _) fun _ => hR.ofExcept _

theorem abandonNode (name : String) (f : Failure) : Leaves R (abandonNode o.hear name f) :=
  hR.bind (hR.remarkAll _) fun _ => hR.bind (hR.move fun _ => ⟨rfl, rfl, rfl, rfl⟩) fun _ =>
    hR.hear rfl

theorem passConditionals (n : Node) : Leaves R (passConditionals n : Act σ Unit) := by
  refine hR.bind hR.session fun s => hR.bind (hR.move fun _ => ⟨rfl, rfl, rfl, rfl⟩) fun _ =>
    hR.bind (hR.remarkAll _) fun _ => ?_
  split
  · exact hR.throw _
  · exact hR.pure ()

theorem passDecisions (n : Node) : Leaves R (passDecisions o.hear n) := by
  refine hR.bind hR.session fun s => hR.bind (hR.move fun _ => ⟨rfl, rfl, rfl, rfl⟩) fun _ => ?_
  split
  · exact hR.pure _
  · exact hR.throw _
  · exact hR.bind (hR.bind (hR.move fun _ => ⟨rfl, rfl, rfl, rfl⟩) fun _ =>
      hR.bind (hR.ask rfl) fun _ => hR.hear rfl) fun _ => hR.pure _

theorem nextLine : LeavesFrom R st (nextLine st.session.era : Act σ Unit) := by
  simp only [Act.nextLine, LeavesFrom, ends_edit, Session.era, Session.modifyTraversalOf_era]
  exact hR.moves _ _ ⟨rfl, rfl, rfl, rfl⟩

theorem record (line : Spoken) : Leaves R (record line : Act σ Unit) := by
  refine hR.bind hR.session fun s => ?_
  split
  · exact hR.bind (hR.move fun _ => ⟨rfl, rfl, rfl, rfl⟩) fun _ =>
      hR.move fun _ => ⟨rfl, rfl, rfl, rfl⟩
  · exact hR.move fun _ => ⟨rfl, rfl, rfl, rfl⟩

theorem present (n : Node) (line : Spoken) : Leaves R (present o.hear n line) := by
  refine hR.bind hR.session fun _ => hR.bind hR.session fun _ => hR.bind (hR.turnTo _) fun _ =>
    hR.bind (hR.record _) fun _ => hR.bind (hR.move fun _ => ⟨rfl, rfl, rfl, rfl⟩) fun _ =>
    hR.bind hR.session fun _ => hR.bind (hR.ofExcept _) fun _ =>
    hR.bind (hR.edit fun _ => ⟨_, _, _, _, _, rfl⟩) fun _ => hR.bind (hR.ask rfl) fun _ =>
    hR.bind (hR.hear rfl) fun _ => hR.bind hR.session fun _ => ?_
  split
  · exact hR.bind hR.completeText fun _ => hR.refresh
  · exact hR.refresh

/-! ### Preparations -/

theorem leaveLine : Leaves R (leaveLine : Act σ (Option (List Visit))) :=
  hR.bind (hR.edit fun _ => ⟨_, _, _, _, _, rfl⟩) fun _ =>
    hR.bind (hR.move fun _ => ⟨rfl, rfl, rfl, rfl⟩) fun _ => hR.pure _

theorem waitOut (dt : Float) : Leaves R (waitOut dt : Act σ (Option (List Visit))) := by
  refine hR.bind hR.session fun s => ?_
  -- each mode but the normal one has a timer
  split
  · exact hR.pure _
  all_goals
    refine hR.bind (hR.edit fun _ => ⟨_, _, _, _, _, rfl⟩) fun _ => hR.bind hR.session fun _ => ?_
    split
    · exact hR.leaveLine
    · exact hR.pure _

theorem takeOption (index : Int) : Leaves R (takeOption o.hear index) := by
  refine hR.bind hR.session fun s => ?_
  split
  · exact hR.bind (hR.remarkAll _) fun _ => hR.pure _
  split
  · exact hR.throw _
  split
  · exact hR.throw _
  refine hR.bind (hR.move fun _ => ⟨rfl, rfl, rfl, rfl⟩) fun _ => hR.bind (hR.ask rfl) fun _ =>
    hR.bind (hR.hear rfl) fun _ => hR.bind hR.session fun _ => ?_
  split
  · exact hR.bind (hR.setMode _) fun _ => hR.bind hR.currentNode fun _ =>
      hR.bind hR.session fun _ => hR.pure _
  · exact hR.bind hR.currentNode fun _ => hR.bind hR.session fun _ => hR.pure _

theorem pause : Leaves R (pause : Act σ Unit) := by
  refine hR.move fun s => ?_
  split <;> exact ⟨rfl, rfl, rfl, rfl⟩

theorem resume : Leaves R (resume : Act σ Unit) := by
  refine hR.move fun s => ?_
  split <;> exact ⟨rfl, rfl, rfl, rfl⟩

/-! ### Commands -/

/-- A command is carried out, if it does not matter what is asked of helpers. -/
theorem dispatch (hasks : ∀ st c, R st (st.asked c)) {goTo : String → Act σ Unit}
    (hgo : ∀ name, Leaves R (goTo name)) (text : String) (replay : Bool) :
    Leaves R (dispatch o.hear goTo text replay) := by
  have heffect (e : Effect) : Leaves R (bringAbout goTo e) := by
    cases e with
    | none => exact hR.pure ()
    | incomplete message => exact hR.remarkAll _
    | call c => exact fun st => ends_ask.mpr (hasks st c)
    | goTo name => exact hgo name
  unfold Act.dispatch
  split
  · exact hR.pure _
  split
  · exact hR.pure _
  refine hR.bind (heffect _) fun _ => ?_
  split
  · exact hR.bind (hR.hear rfl) fun _ => hR.pure _
  · exact hR.pure _

end BlindToPlace

/-- The relation is kept where nodes are entered and completed. -/
structure KeptByNodes (o : Observer σ) (R : Stage σ → Stage σ → Prop) : Prop
    extends BlindToPlace o R where
  enters : ∀ st (n : Node), n.name ∉ st.session.traversal.completed →
    (st.session.traversal.top.any fun f => f.node = n.name) = false →
    R st (o.react (.nodeEntered n.name) { st with session := st.session.entered n })
  completes : ∀ st f, st.session.traversal.top = some f →
    R st (o.react (.nodeCompleted f.node) { st with session := st.session.popped f })

namespace KeptByNodes

variable (hR : KeptByNodes o R)

include hR

theorem enter {n : Node} (hn : n.name ∉ st.session.traversal.completed) :
    LeavesFrom R st (enter o.hear n) := by
  have henters := hR.enters st n hn
  unfold Act.enter
  simp only [LeavesFrom, ends_bind, ends_session, ends_ite, ends_edit, ends_hear]
  split
  · exact hR.moves _ _ ⟨rfl, rfl, rfl, rfl⟩
  · next htop =>
    have htop : (st.session.traversal.top.any fun f => f.node = n.name) = false := by
      simpa using htop
    simpa only [Session.entered, htop, Bool.false_eq_true, if_false, Session.modifyNode] using
      henters htop

/-- A node is entered only if it is not complete. -/
theorem openNode (name context : String) : Leaves R (openNode o.hear name context) := by
  intro st
  unfold Act.openNode
  simp only [LeavesFrom, ends_bind, ends_session, ends_ite, ends_pure]
  split
  · exact hR.refl st
  next hnew =>
  have hnew : name ∉ st.session.traversal.completed := by simpa using hnew
  have hdeclared {st₁ : Stage σ} {vs : Variables} (h₁ : st.Declared st₁ vs) : R st st₁ := by
    obtain ⟨rs, rfl⟩ := h₁
    exact hR.trans (hR.moves st (st.session.withVars vs) ⟨rfl, rfl, rfl, rfl⟩) (hR.remarks _ rs)
  rw [ends_attempt]
  refine findScript_ends (fun n st₁ hn h₁ => ?_) fun f st₁ _ h₁ => ?_
  · -- what is declared on the way does not complete the node that has been found
    have hn : n.name ∉ st₁.session.traversal.completed := by
      obtain ⟨rs, rfl⟩ := h₁
      rw [(Script.search_header hn).1]
      exact hnew
    have hrest : LeavesFrom R st₁ (if n.lines.isEmpty then do
          remark .warning Session.remarkSource s!"Node '{name}' has no lines"
          return false
        else do
          Act.enter o.hear n
          return true) := by
      split
      · exact hR.bind (hR.remarkAll _) (fun _ => hR.pure _) st₁
      · exact hR.bind_from (hR.enter hn) fun _ _ _ => hR.pure _ _
    exact hrest.imp (fun _ _ h => hR.trans (hdeclared h₁) h) fun _ _ h =>
      hR.trans (hdeclared h₁) h
  · have hrest : LeavesFrom R st₁ (do
        Act.abandonNode o.hear name f
        throw f : Act σ Bool) := hR.bind (hR.abandonNode _ _) (fun _ => hR.throw _) st₁
    split
    · exact hrest.imp (fun _ _ h => hR.trans (hdeclared h₁) h) fun _ _ h =>
        hR.trans (hdeclared h₁) h
    · exact hdeclared h₁

theorem goTo (name : String) : Leaves R (goTo o.hear name) :=
  hR.bind hR.session fun _ => hR.bind ((hR.openNode _ _).attempt _) fun _ => hR.pure ()

/-- Below a node that has been completed another one comes back, or the session is over. -/
theorem finishNode : Leaves R (finishNode o.hear) := by
  intro st
  unfold Act.finishNode
  rw [LeavesFrom, ends_bind, ends_session]
  cases htop : st.session.traversal.top with
  | none => exact hR.refl st
  | some f =>
    let st₁ := o.react (.nodeCompleted f.node) { st with session := st.session.popped f }
    have hera : st₁.session.era = st.session.era := by simp [st₁, Session.era, Session.popped]
    -- the node below goes on at its own place, which does not matter
    have hcomeBack : R st { st₁ with
        session := st₁.session.modifyTraversalOf st.session.era Traversal.comeBack } := by
      rw [← hera, Session.era, Session.modifyTraversalOf_era]
      exact hR.trans (hR.completes st f htop) (hR.moves _ _ ⟨rfl, Traversal.names_comeBack _,
        Traversal.completed_comeBack _, Traversal.history_comeBack _⟩)
    have hrest (ended : Bool) : Leaves R (do
        if ended then Act.endSession o.hear
        return !ended) := by
      split
      · exact hR.bind hR.endSession fun _ => hR.pure _
      · exact hR.pure _
    simp only [ends_bind, ends_edit, ends_hear, ends_session]
    exact (hrest (st₁.session.traversalOf st.session.era).top.isNone _).imp
      (fun _ _ h => hR.trans hcomeBack h) fun _ _ h => hR.trans hcomeBack h

end KeptByNodes

/-- The relation is kept where nodes are entered and completed and where commands are carried
out. -/
structure Endures (o : Observer σ) (R : Stage σ → Stage σ → Prop) : Prop
    extends KeptByNodes o R where
  takes : ∀ st n text, Command.isCommandLine text.toList →
    LeavesFrom R st (takeLine o.hear st.session.era n text)

namespace Endures

variable (hR : Endures o R)

include hR

theorem takeLine (n : Node) (text : String) :
    LeavesFrom R st (takeLine o.hear st.session.era n text) := by
  by_cases hc : Command.isCommandLine text.toList
  · exact hR.takes st n text hc
  unfold Act.takeLine
  rw [if_neg hc]
  dsimp only
  split
  · exact hR.bind_from hR.nextLine fun _ _ _ => hR.pure _ _
  · exact hR.bind_from (hR.present _ _ _) fun _ _ _ => hR.pure _ _

/-- The relation is kept by a step. -/
theorem step : LeavesFrom R st (step o.hear st.session.era) := by
  refine step_rule (fun _ => hR.refl st) (fun _ _ _ _ => hR.finishNode st) fun n _ _ _ => ?_
  refine (hR.passConditionals n st).imp (fun _ st₁ h₁ => ?_) fun _ _ h => h
  refine (hR.passDecisions n st₁).imp (fun asked st₂ h₂ => ?_) fun _ _ h => hR.trans h₁ h
  have h₂ := hR.trans h₁ h₂
  cases asked with
  | true => exact h₂
  | false =>
    refine ⟨fun _ => h₂, fun _ _ => h₂, fun text _ _ => ?_⟩
    -- the era has not changed on the way
    have hera : st.session.era = st₂.session.era := by
      rw [Session.era, Session.era, hR.retired h₂]
    rw [hera]
    exact (hR.takeLine n text).imp (fun _ _ h => hR.trans h₂ h) fun _ _ h => hR.trans h₂ h

theorem steps (k : Nat) : LeavesFrom R st (steps o.hear st.session.era k) := by
  induction k generalizing st with
  | zero => exact hR.throw _ _
  | succ k ih =>
    refine hR.bind_from hR.step fun goesOn st' h => ?_
    split
    · have hera : st.session.era = st'.session.era := by
        rw [Session.era, Session.era, hR.retired h]
      rw [hera]
      exact ih
    · exact hR.pure _ _

/-- The relation is kept by a run. -/
theorem run (seen : List Visit) : Leaves R (run o.hear seen) :=
  hR.bind (hR.move fun _ => ⟨rfl, rfl, rfl, rfl⟩) fun _ st => hR.steps st.setup.patience

end Endures

end Act

/-! ### Requests -/

namespace Request

variable {σ : Type} {R : Stage σ → Stage σ → Prop} {o : Observer σ} {st : Stage σ}

/-- The request is to start anew. -/
def isStart : Request → Bool
  | input (.start _ _) => true
  | _ => false

/-- The stage on which a request is carried out: a start puts aside what there was. -/
def begun (r : Request) (st : Stage σ) : Stage σ :=
  if r.isStart then { st with session := st.session.fresh } else st

end Request

namespace Act.KeptByNodes

variable {σ : Type} {R : Stage σ → Stage σ → Prop} {o : Observer σ} {st : Stage σ}
  (hR : KeptByNodes o R)

include hR

/-- The relation is kept by the first part of a request. -/
theorem prepare (r : Request) : Ends (r.prepare o.hear) st (fun _ => R (r.begun st))
    fun _ => R (r.begun st) := by
  cases r with
  | findNode node context =>
    refine hR.bind (hR.openNode _ _) (fun opened => ?_) st
    split <;> exact hR.pure _
  | input i =>
    cases i with
    | start node context =>
      -- a start is compared with the fresh session, which it makes first
      refine ends_bind.mpr (ends_edit.mpr ?_)
      refine hR.bind (hR.openNode _ _) (fun opened => ?_) _
      split
      · exact hR.pure _
      · exact hR.bind hR.endSession fun _ => hR.pure _
    | advance =>
      refine hR.bind hR.session (fun s => ?_) st
      split
      · split
        · exact hR.bind (hR.setMode _) fun _ => hR.pure _
        · split
          · exact hR.leaveLine
          · exact hR.bind hR.showWhole fun _ => hR.pure _
      · exact hR.pure _
    | update dt =>
      refine hR.bind hR.session (fun s => ?_) st
      split
      · split
        · exact hR.waitOut dt
        · exact hR.bind (hR.type _ dt) fun _ => hR.pure _
      · exact hR.pure _
    | decide index => exact hR.takeOption index st
    | toggleAuto => exact hR.bind hR.toggleAuto (fun _ => hR.pure _) st
    | toggleFastForward => exact hR.bind hR.toggleFastForward (fun _ => hR.pure _) st
    | pause => exact hR.bind hR.pause (fun _ => hR.pure _) st
    | resume => exact hR.bind hR.resume (fun _ => hR.pure _) st

/-- Nothing else happens when a request has been carried out. -/
theorem conclude (i : Input) : Leaves R (i.conclude o.hear) := by
  cases i with
  | start node context => exact hR.hear rfl
  | _ => exact hR.pure ()

end Act.KeptByNodes

namespace Act.Endures

variable {σ : Type} {R : Stage σ → Stage σ → Prop} {o : Observer σ} {st : Stage σ}
  (hR : Endures o R)

include hR

/-- The relation is kept by a request. -/
theorem perform (r : Request) : Ends (r.perform o.hear) st (fun _ => R (r.begun st))
    fun _ => R (r.begun st) := by
  have hrunOn (seen : Option (List Visit)) : Leaves R (r.runOn o.hear seen) := by
    cases r with
    | findNode node context =>
      cases seen with
      | none => exact hR.pure ()
      | some seen => exact hR.run seen
    | input i =>
      cases seen with
      | none => exact hR.pure ()
      | some seen => exact hR.bind (hR.run seen) fun _ => hR.conclude i
  rw [r.perform_eq, ends_bind]
  refine (hR.prepare r).imp (fun seen st' h => ?_) fun _ _ h => h
  exact (hrunOn seen st').imp (fun _ _ h' => hR.trans h h') fun _ _ h' => hR.trans h h'

end Act.Endures

namespace Request

variable {σ : Type} (hear : Listener σ)

/-- The stage after a request, whether or not it succeeds. -/
def after (r : Request) (st : Stage σ) : Stage σ :=
  match r.perform hear st with
  | .ok _ st' => st'
  | .error _ st' => st'

/-- The stage after requests, whether or not they succeed. -/
def afterAll (rs : List Request) (st : Stage σ) : Stage σ :=
  rs.foldl (fun st r => r.after hear st) st

variable {hear} {st : Stage σ}

/-- What holds however a request ends holds of the stage after it. -/
theorem after_of_ends {r : Request} {P : Stage σ → Prop}
    (h : Act.Ends (r.perform hear) st (fun _ => P) fun _ => P) : P (r.after hear st) := by
  unfold Act.Ends at h
  unfold after
  split at h <;> next hr => simpa [hr] using h

end Request

end VisualNovel
