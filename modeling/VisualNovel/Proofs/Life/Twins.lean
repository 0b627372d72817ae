import VisualNovel.Proofs.Life.Lockstep
import VisualNovel.Proofs.Life.Replaying

/-!
# Twins

Sessions are twins if they differ only in what had been put aside before some point, and in timers
that are set before they are looked at again. Nothing that is done to twins tells them apart: not a
run, not a request, and not restoring one more stored session. The listener may do what it likes
with the events, as long as it does not tell twins apart either.

## Main definitions

* `Session.Twins`: sessions that differ in their pasts only;
* `Past.twins`: the correspondence of stages whose sessions are twins.

## Main results

* `Act.lockstep_step`, `Act.lockstep_run`: steps and runs of twins are in lockstep;
* `Act.lockstep_request`: so are requests;
* `Act.lockstep_restore`: so is restoring a stored session.
-/

namespace VisualNovel

/-- Changing an element behind a list leaves the list alone. -/
theorem modify_append_add {α : Type} (l l' : List α) (j : Nat) (f : α → α) :
    (l ++ l').modify (l.length + j) f = l ++ l'.modify j f := by
  induction l with
  | nil => simp
  | cons a l ih => simp [Nat.add_right_comm _ 1 j, ih]

namespace Past

variable (p q : Past)

/-- Two eras are the same, counted from the end of the pasts. -/
def SameEra (e e' : Nat) : Prop :=
  ∃ j, e = p.retired.length + j ∧ e' = q.retired.length + j

/-- The same for the stacks of nodes. -/
def SameNodesEra (e e' : Nat) : Prop :=
  ∃ j, e = p.retiredNodes.length + j ∧ e' = q.retiredNodes.length + j

end Past

namespace Session

/-- The timers count: a line is on screen, or it was when the session was paused. -/
def TimersCount (s : Session) : Prop :=
  s.phase = .presenting ∨ s.phase = .paused ∧ s.pausedFrom = some .presenting

/-- The parts in which twins may differ. -/
structure Margin where
  /-- The traversals that have been put aside. -/
  retired : List Traversal
  /-- The stacks of nodes that have been put aside. -/
  retiredNodes : List (List Node)
  /-- The time since the text was complete. -/
  autoTimer : Float
  /-- The time since the text was presented. -/
  skipTimer : Float

/-- The session with other such parts. -/
def withMargin (s : Session) (m : Margin) : Session :=
  { s with
    retired := m.retired
    retiredNodes := m.retiredNodes
    autoTimer := m.autoTimer
    skipTimer := m.skipTimer }

/-- Two sessions differ only in what had been put aside before some point, and in timers that do not
count. -/
def Twins (p q : Past) (s t : Session) : Prop :=
  ∃ later laterNodes autoTimer skipTimer,
    s.retired = p.retired ++ later ∧ s.retiredNodes = p.retiredNodes ++ laterNodes ∧
    (s.TimersCount → autoTimer = s.autoTimer ∧ skipTimer = s.skipTimer) ∧
    t = s.withMargin ⟨q.retired ++ later, q.retiredNodes ++ laterNodes, autoTimer, skipTimer⟩

/-- The timers of an idle session do not count. -/
theorem not_timersCount {s : Session} (h : s.phase = .idle) : ¬s.TimersCount := by
  simp [TimersCount, h]

namespace Twins

variable {p q : Past} {s t : Session} (h : s.Twins p q t)

include h

/-- What takes no account of the past and of the timers is the same. -/
theorem congr {α : Type} (f : Session → α) (hf : ∀ s m, f (withMargin s m) = f s) : f t = f s := by
  obtain ⟨_, _, _, _, -, -, -, rfl⟩ := h
  exact hf s _

/-- The present eras are the same. -/
theorem era : p.SameEra q s.era t.era := by
  obtain ⟨later, _, _, _, hretired, _, _, rfl⟩ := h
  exact ⟨later.length, by simp [Session.era, hretired], by simp [Session.era, withMargin]⟩

/-- So are those of the nodes. -/
theorem nodesEra : p.SameNodesEra q s.nodesEra t.nodesEra := by
  obtain ⟨_, later, _, _, _, hnodes, _, rfl⟩ := h
  exact ⟨later.length, by simp [Session.nodesEra, hnodes],
    by simp [Session.nodesEra, withMargin]⟩

/-- The traversals of an era are the same. -/
theorem traversalOf {e e' : Nat} (he : p.SameEra q e e') : t.traversalOf e' = s.traversalOf e := by
  obtain ⟨later, _, _, _, hretired, _, _, rfl⟩ := h
  obtain ⟨j, rfl, rfl⟩ := he
  simp [Session.traversalOf, withMargin, hretired, List.getElem?_append_right]

/-- The stacks of nodes of an era are the same. -/
theorem nodesOf {e e' : Nat} (he : p.SameNodesEra q e e') : t.nodesOf e' = s.nodesOf e := by
  obtain ⟨_, later, _, _, _, hnodes, _, rfl⟩ := h
  obtain ⟨j, rfl, rfl⟩ := he
  simp [Session.nodesOf, withMargin, hnodes, List.getElem?_append_right]

/-- The traversals of an era may be changed. -/
theorem modifyTraversalOf {e e' : Nat} (he : p.SameEra q e e') (f : Traversal → Traversal) :
    (s.modifyTraversalOf e f).Twins p q (t.modifyTraversalOf e' f) := by
  obtain ⟨later, laterNodes, a, b, hretired, hnodes, htimers, rfl⟩ := h
  obtain ⟨j, rfl, rfl⟩ := he
  -- it is one of those put aside since the pasts, or it is the present one
  unfold Session.modifyTraversalOf
  simp only [withMargin, hretired, List.length_append, Nat.add_lt_add_iff_left]
  split
  · exact ⟨later.modify j f, laterNodes, a, b, by simp [modify_append_add], hnodes, htimers,
      by simp [modify_append_add, withMargin]⟩
  · exact ⟨later, laterNodes, a, b, rfl, hnodes, htimers, rfl⟩

end Twins

end Session

/-- The correspondence of stages whose sessions are twins. -/
def Past.twins {σ : Type} (p q : Past) (host : σ → σ → Prop) : Pairing σ where
  session := Session.Twins p q
  host := host
  first := p
  second := q

namespace Act

variable {σ : Type} {p q : Past} {host : σ → σ → Prop}

/-! ### Sessions and changes -/

section Rules

variable {α β : Type} {W : α → β → Prop}

/-- What is done with a session, but takes no account of the past and of the timers. -/
theorem lockstep_session {f : Session → Act σ α} {f' : Session → Act σ β}
    (hf : ∀ s m, f' (s.withMargin m) = f' s) (h : ∀ s, Lockstep (p.twins q host) W (f s) (f' s)) :
    Lockstep (p.twins q host) W (session >>= f) (session >>= f') := by
  refine .bind .session fun s t hs => ?_
  rw [hs.congr f' hf]
  exact h s

/-- A change that takes no account of the past and of the timers, and after which timers count only
if they did before. -/
theorem lockstep_edit {f : Session → Session}
    (hf : ∀ s m, f (s.withMargin m) = (f s).withMargin m ∧ ((f s).TimersCount → s.TimersCount)) :
    Lockstep (p.twins q host) Eq (edit f) (edit f) := by
  refine .edit ?_
  rintro s t ⟨later, laterNodes, a, b, hretired, hnodes, htimers, rfl⟩
  have hs : f s = (f s).withMargin ⟨s.retired, s.retiredNodes, s.autoTimer, s.skipTimer⟩ :=
    (hf s ⟨s.retired, s.retiredNodes, s.autoTimer, s.skipTimer⟩).1
  refine ⟨later, laterNodes, a, b, ?_, ?_, fun h => ?_, (hf s _).1⟩
  all_goals rw [hs]
  · exact hretired
  · exact hnodes
  · exact htimers ((hf s ⟨s.retired, s.retiredNodes, s.autoTimer, s.skipTimer⟩).2 h)

end Rules

/-- Showing a text is in lockstep. -/
theorem lockstep_refresh : Lockstep (p.twins q host) Eq refresh refresh := by
  refine lockstep_session (fun _ _ => rfl) fun s => ?_
  cases s.typewriter with
  | none => exact .pure rfl
  | some w => exact .ask _

/-- Noting who speaks is in lockstep. -/
theorem lockstep_turnTo (speaker : String) :
    Lockstep (p.twins q host) Eq (turnTo speaker) (turnTo speaker) := by
  refine lockstep_session (fun _ _ => rfl) fun s => .ite ?_ (.pure rfl)
  exact .seq (lockstep_edit fun _ _ => ⟨rfl, id⟩) fun _ => .ite (.ask _) (.pure rfl)

/-- Recording a line is in lockstep. -/
theorem lockstep_record (line : Spoken) :
    Lockstep (p.twins q host) Eq (record line) (record line) := by
  refine lockstep_session (fun _ _ => rfl) fun s => .ite ?_ (lockstep_edit fun _ _ => ⟨rfl, id⟩)
  refine .seq (lockstep_edit fun _ _ => ⟨rfl, id⟩) fun _ => ?_
  exact lockstep_edit fun _ _ => ⟨rfl, id⟩

/-- Looking for a node is in lockstep. -/
theorem lockstep_findScript (name context : String) :
    Lockstep (p.twins q host) Eq (findScript name context) (findScript name context) := by
  refine .bind .get fun st st' h => ?_
  have hfound : Script.search st'.files st'.setup.scripts st'.session.vars name context =
      Script.search st.files st.setup.scripts st.session.vars name context := by
    rw [h.files, h.setup, h.session.congr Session.vars fun _ _ => rfl]
  dsimp only
  rw [hfound]
  exact .seq (lockstep_edit fun _ _ => ⟨rfl, id⟩) fun _ => .seq (.remarkAll _) fun _ => .ofExcept _

/-- Passing over conditionals is in lockstep. -/
theorem lockstep_passConditionals (n : Node) :
    Lockstep (p.twins q host) Eq (passConditionals n) (passConditionals n) := by
  refine lockstep_session (fun _ _ => rfl) fun s => ?_
  refine .seq (lockstep_edit fun _ _ => ⟨rfl, id⟩) fun _ => .seq (.remarkAll _) fun _ => ?_
  exact .ite (.throw _) (.pure rfl)

/-- Going to the next line is in lockstep. -/
theorem lockstep_nextLine {e e' : Nat} (he : p.SameEra q e e') :
    Lockstep (p.twins q host) Eq (nextLine e) (nextLine e') :=
  .edit fun _ _ h => h.modifyTraversalOf he _

/-! ### Loading nodes -/

section Loading

variable {k : Pairing σ}

/-- Loading the nodes of frames is in lockstep if looking for a node is. -/
theorem lockstep_loadNodes
    (hfind : ∀ name context, Lockstep k Eq (findScript name context) (findScript name context))
    (fs : List Frame) : Lockstep k Eq (loadNodes fs) (loadNodes fs) := by
  induction fs with
  | nil => exact .pure rfl
  | cons f fs ih => exact .seq (hfind _ _) fun _ => .seq ih fun _ => .pure rfl

/-- So is loading the nodes of a traversal, if the variables from before can be taken back. -/
theorem lockstep_loadOrUndo
    (hfind : ∀ name context, Lockstep k Eq (findScript name context) (findScript name context))
    (hundo : ∀ s t, k.session s t → Lockstep k Eq (edit fun x => { x with vars := s.vars })
      (edit fun x => { x with vars := t.vars }))
    (t : Traversal) : Lockstep k Eq (loadOrUndo t) (loadOrUndo t) := by
  refine .bind .session fun s s' h => .seq (.attempt _ ?_) fun r => ?_
  · refine .seq (lockstep_loadNodes hfind _) fun nodes => ?_
    cases t.misfit? nodes with
    | none => exact .pure rfl
    | some m => exact .throw _
  · cases r with
    | ok nodes => exact .pure rfl
    | error f => exact .seq (hundo s s' h) fun _ => .throw _

end Loading

/-! ### Timers -/

/-- A change that takes no account of the past and sets the timers. -/
theorem lockstep_resetTimers {f : Session → Session}
    (hf : ∀ s m, f (s.withMargin m) =
      (f s).withMargin ⟨m.retired, m.retiredNodes, (f s).autoTimer, (f s).skipTimer⟩) :
    Lockstep (p.twins q host) Eq (edit f) (edit f) := by
  refine .edit ?_
  rintro s t ⟨later, laterNodes, a, b, hretired, hnodes, -, rfl⟩
  have hs := hf s ⟨s.retired, s.retiredNodes, s.autoTimer, s.skipTimer⟩
  refine ⟨later, laterNodes, (f s).autoTimer, (f s).skipTimer, ?_, ?_, fun _ => ⟨rfl, rfl⟩, hf s _⟩
  · exact (congrArg Session.retired hs).trans hretired
  · exact (congrArg Session.retiredNodes hs).trans hnodes

/-- The timer of a text that is complete starts anew. -/
theorem lockstep_resetAutoTimer : Lockstep (p.twins q host) Eq
    (edit fun s => { s with autoTimer := 0 }) (edit fun s => { s with autoTimer := 0 }) := by
  refine .edit ?_
  rintro s t ⟨later, laterNodes, a, b, hretired, hnodes, htimers, rfl⟩
  exact ⟨later, laterNodes, 0, b, hretired, hnodes, fun h => ⟨rfl, (htimers h).2⟩, rfl⟩

variable {hear : Listener σ}
  (hhear : ∀ e, Lockstep (p.twins q host) Eq (hear e) (hear e))

include hhear

/-! ### Steps -/

/-- Completing a text is in lockstep. -/
theorem lockstep_completeText :
    Lockstep (p.twins q host) Eq (completeText hear) (completeText hear) := by
  refine lockstep_session (fun _ _ => rfl) fun s => ?_
  cases s.typewriter with
  | none => exact .pure rfl
  | some w =>
    refine .ite (.seq (lockstep_edit fun _ _ => ⟨rfl, id⟩) fun _ => ?_) (.pure rfl)
    exact .seq lockstep_resetAutoTimer fun _ => hhear _

/-- Showing the whole text is in lockstep. -/
theorem lockstep_showWhole :
    Lockstep (p.twins q host) Eq (showWhole hear) (showWhole hear) := by
  refine lockstep_session (fun _ _ => rfl) fun s => ?_
  cases s.typewriter with
  | none => exact .pure rfl
  | some w =>
    exact .ite (.seq (lockstep_completeText hhear) fun _ => lockstep_refresh) (.pure rfl)

/-- Changing how lines advance is in lockstep. -/
theorem lockstep_setMode (mode : PlaybackMode) :
    Lockstep (p.twins q host) Eq (setMode hear mode) (setMode hear mode) := by
  -- both timers start anew, so it does not matter whether they count
  refine .seq (lockstep_resetTimers fun _ _ => rfl) fun _ =>
    lockstep_session (fun _ _ => rfl) fun s => .ite ?_ (.pure rfl)
  exact .seq (lockstep_edit fun _ _ => ⟨rfl, id⟩) fun _ => hhear _

/-- Presenting a line is in lockstep. -/
theorem lockstep_present (n : Node) (line : Spoken) :
    Lockstep (p.twins q host) Eq (present hear n line) (present hear n line) := by
  -- from here on the timers count, and they start anew
  refine lockstep_session (fun _ _ => rfl) fun s => lockstep_session (fun _ _ => rfl) fun s₁ => ?_
  refine .seq (lockstep_turnTo _) fun _ => .seq (lockstep_record _) fun _ =>
    .seq (lockstep_resetTimers fun _ _ => rfl) fun _ => ?_
  refine lockstep_session (fun _ _ => rfl) fun s₂ => ?_
  refine .seq (.ofExcept _) fun pace => .seq (lockstep_edit fun _ _ => ⟨rfl, id⟩) fun _ =>
    .seq (.ask _) fun _ => .seq (hhear _) fun _ => lockstep_session (fun _ _ => rfl) fun s₃ => ?_
  exact .ite (.seq (lockstep_completeText hhear) fun _ => lockstep_refresh) lockstep_refresh

/-- Ending a session is in lockstep. -/
theorem lockstep_endSession :
    Lockstep (p.twins q host) Eq (endSession hear) (endSession hear) := by
  refine .seq (lockstep_edit fun _ _ => ⟨rfl, fun h => ?_⟩) fun _ => hhear _
  exact absurd h (Session.not_timersCount rfl)

/-- Entering a node is in lockstep. -/
theorem lockstep_enter (n : Node) :
    Lockstep (p.twins q host) Eq (enter hear n) (enter hear n) :=
  lockstep_session (fun _ _ => rfl) fun _ => .ite (lockstep_edit fun _ _ => ⟨rfl, id⟩)
    (.seq (lockstep_edit fun _ _ => ⟨rfl, id⟩) fun _ =>
      .seq (lockstep_edit fun _ _ => ⟨rfl, id⟩) fun _ => hhear _)

/-- Giving up a node is in lockstep. -/
theorem lockstep_abandonNode (name : String) (f : Failure) :
    Lockstep (p.twins q host) Eq (abandonNode hear name f) (abandonNode hear name f) := by
  refine .seq (.remarkAll _) fun _ => .seq (lockstep_edit fun _ _ => ⟨rfl, fun h => ?_⟩)
    fun _ => hhear _
  exact absurd h (Session.not_timersCount rfl)

/-- Opening a node is in lockstep. -/
theorem lockstep_openNode (name context : String) :
    Lockstep (p.twins q host) Eq (openNode hear name context) (openNode hear name context) := by
  refine lockstep_session (fun _ _ => rfl) fun s => .ite (.pure rfl) ?_
  refine .seq (.attempt _ (lockstep_findScript name context)) fun r => ?_
  cases r with
  | error f => exact .seq (lockstep_abandonNode hhear name f) fun _ => .throw f
  | ok n =>
    exact .ite (.seq (.remarkAll _) fun _ => .pure rfl)
      (.seq (lockstep_enter hhear n) fun _ => .pure rfl)

/-- Following a command is in lockstep. -/
theorem lockstep_goTo (name : String) :
    Lockstep (p.twins q host) Eq (goTo hear name) (goTo hear name) :=
  lockstep_session (fun _ _ => rfl) fun _ =>
    .seq (.attempt _ (lockstep_openNode hhear name _)) fun _ => .pure rfl

/-- Taking a node off the stack is in lockstep. -/
theorem lockstep_finishNode :
    Lockstep (p.twins q host) Eq (finishNode hear) (finishNode hear) := by
  -- the frame is taken off the traversal of the era in which the node was finished
  refine .bind .session fun s t h => ?_
  rw [h.congr (fun t => t.traversal.top) fun _ _ => rfl]
  cases s.traversal.top with
  | none => exact .throw _
  | some f =>
    refine .seq (lockstep_edit fun _ _ => ⟨rfl, id⟩) fun _ => .seq (hhear _) fun _ => ?_
    refine .bind .session fun s₁ t₁ h₁ => .seq (.edit fun _ _ h₂ => h₂.modifyTraversalOf h.era _)
      fun _ => ?_
    rw [h₁.traversalOf h.era]
    exact .ite (.seq (lockstep_endSession hhear) fun _ => .pure rfl) (.pure rfl)

/-- Passing over decisions is in lockstep. -/
theorem lockstep_passDecisions (n : Node) :
    Lockstep (p.twins q host) Eq (passDecisions hear n) (passDecisions hear n) := by
  refine lockstep_session (fun _ _ => rfl) fun s => ?_
  dsimp only
  refine .seq (lockstep_edit fun _ _ => ⟨rfl, id⟩) fun _ => ?_
  cases (n.passDecisions s.nodes.length s.seen s.traversal.cursor).2 with
  | onward => exact .pure rfl
  | stuck => exact .throw _
  | ask d =>
    refine .seq (.seq (lockstep_edit fun s _ => ⟨rfl, fun h => ?_⟩) fun _ => .seq (.ask _)
      fun _ => hhear _) fun _ => .pure rfl
    simp [Session.TimersCount] at h

/-- Bringing about an effect is in lockstep. -/
theorem lockstep_bringAbout (e : Effect) :
    Lockstep (p.twins q host) Eq (bringAbout (goTo hear) e) (bringAbout (goTo hear) e) := by
  cases e with
  | none => exact .pure rfl
  | incomplete message => exact .remarkAll _
  | call c => exact .ask c
  | goTo name => exact lockstep_goTo hhear name

/-- Carrying out a command is in lockstep. -/
theorem lockstep_dispatch (line : String) (replay : Bool) :
    Lockstep (p.twins q host) Eq (dispatch hear (goTo hear) line replay)
      (dispatch hear (goTo hear) line replay) := by
  unfold dispatch
  cases Command.ofLine? line with
  | none => exact .pure rfl
  | some c =>
    dsimp only
    cases Directive.ofName? c.name with
    | none => exact .pure rfl
    | some d =>
      exact .seq (lockstep_bringAbout hhear _) fun _ =>
        .ite (.seq (hhear _) fun _ => .pure rfl) (.pure rfl)

/-- Taking up a line is in lockstep. -/
theorem lockstep_takeLine {e e' : Nat} (he : p.SameEra q e e') (n : Node) (text : String) :
    Lockstep (p.twins q host) Eq (takeLine hear e n text) (takeLine hear e' n text) := by
  refine .ite ?_ (.ite ?_ ?_)
  · exact .seq (.edit fun _ _ h => h.modifyTraversalOf he _) fun _ => .seq (lockstep_nextLine he)
      fun _ => .seq (lockstep_dispatch hhear _ _) fun _ => .pure rfl
  · exact .seq (lockstep_nextLine he) fun _ => .pure rfl
  · exact .seq (lockstep_present hhear n _) fun _ => .pure rfl

/-- A step of a run is in lockstep. -/
theorem lockstep_step {e e' : Nat} (he : p.SameEra q e e') :
    Lockstep (p.twins q host) Eq (step hear e) (step hear e') := by
  refine .bind .session fun s t h => ?_
  rw [h.traversalOf he, h.congr Session.node fun _ _ => rfl, h.congr Session.halted fun _ _ => rfl]
  refine .ite (.pure rfl) ?_
  cases s.node with
  | none => exact .pure rfl
  | some n =>
    refine .ite (lockstep_finishNode hhear) ?_
    refine .seq (lockstep_passConditionals n) fun _ => .seq (lockstep_passDecisions hhear n)
      fun asked => .ite (.pure rfl) ?_
    -- conditionals and decisions may have moved the cursor, and then no line is taken up
    refine .bind .session fun s₁ t₁ h₁ => ?_
    rw [h₁.traversalOf he]
    refine .ite (.pure rfl) ?_
    cases at? n.lines (s.traversalOf e).cursor.line with
    | none => exact .throw _
    | some text => exact lockstep_takeLine hhear he n text

/-- Taking steps is in lockstep. -/
theorem lockstep_steps {e e' : Nat} (he : p.SameEra q e e') (n : Nat) :
    Lockstep (p.twins q host) Eq (steps hear e n) (steps hear e' n) := by
  induction n with
  | zero => exact .throw _
  | succ n ih =>
    refine .seq (lockstep_step hhear he) fun goesOn => ?_
    exact .ite ih (.pure rfl)

/-- A run is in lockstep. -/
theorem lockstep_run (seen : List Visit) :
    Lockstep (p.twins q host) Eq (run hear seen) (run hear seen) := by
  refine .seq (lockstep_edit fun _ _ => ⟨rfl, id⟩) fun _ => ?_
  refine .bind .session fun s t h => .bind .get fun st st' hk => ?_
  rw [hk.setup]
  exact lockstep_steps hhear h.era _

/-! ### Requests -/

/-- Entering a further node is in lockstep. -/
theorem lockstep_findNode (name context : String) :
    Lockstep (p.twins q host) Eq (findNode hear name context) (findNode hear name context) :=
  .seq (lockstep_openNode hhear name context) fun _ =>
    .ite (.seq (lockstep_run hhear []) fun _ => .pure rfl) (.pure rfl)

/-- Starting anew is in lockstep. -/
theorem lockstep_start (name context : String) :
    Lockstep (p.twins q host) Eq (start hear name context) (start hear name context) := by
  refine .seq (.edit ?_) fun _ => .seq (lockstep_findNode hhear name context) fun _ =>
    .ite (.seq (hhear _) fun _ => .pure rfl)
      (.seq (lockstep_endSession hhear) fun _ => .pure rfl)
  -- the nodes so far are put aside
  rintro s t ⟨later, laterNodes, a, b, hretired, hnodes, -, rfl⟩
  refine ⟨later, laterNodes ++ [s.nodes], a, b, hretired, ?_, fun h => ?_, ?_⟩
  · simp [Session.fresh, Session.replaceNodes, Session.cleared, hnodes]
  · exact absurd h (Session.not_timersCount rfl)
  · simp [Session.fresh, Session.replaceNodes, Session.cleared, Session.withMargin]

/-- Going on from an option that has been chosen is in lockstep. -/
theorem lockstep_runChosen (d : Decision) : Lockstep (p.twins q host) Eq
    (do
      let n ← currentNode
      run hear [n.visit (← session).nodes.length .decision d.index]
      return true)
    (do
      let n ← currentNode
      run hear [n.visit (← session).nodes.length .decision d.index]
      return true) := by
  have hnode : Lockstep (p.twins q host) Eq currentNode currentNode := by
    refine lockstep_session (fun _ _ => rfl) fun s => ?_
    cases s.node with
    | none => exact .throw _
    | some n => exact .pure rfl
  refine .seq hnode fun n => lockstep_session (fun _ _ => rfl) fun s => ?_
  exact .seq (lockstep_run hhear _) fun _ => .pure rfl

/-- Choosing an option is in lockstep. -/
theorem lockstep_makeDecision (index : Int) :
    Lockstep (p.twins q host) Eq (makeDecision hear index) (makeDecision hear index) := by
  refine lockstep_session (fun _ _ => rfl) fun s => .ite (.seq (.remarkAll _) fun _ => .pure rfl) ?_
  cases s.openDecision? with
  | none => exact .throw _
  | some d =>
    dsimp only
    cases at? d.options index with
    | none => exact .throw _
    | some o =>
      refine .seq (lockstep_edit fun _ _ => ⟨rfl, id⟩) fun _ => .seq (.ask _) fun _ =>
        .seq (hhear _) fun _ => lockstep_session (fun _ _ => rfl) fun s₁ => ?_
      have hrun := lockstep_runChosen hhear d
      exact .ite (.seq (lockstep_setMode hhear _) fun _ => hrun) hrun

/-- Going on from a line is in lockstep. -/
theorem lockstep_advance :
    Lockstep (p.twins q host) Eq (advance hear) (advance hear) :=
  .seq (lockstep_resetTimers fun _ _ => rfl) fun _ =>
    .seq (lockstep_edit fun _ _ => ⟨rfl, id⟩) fun _ => lockstep_run hhear []

/-- Typing is in lockstep. -/
theorem lockstep_type (w : Typewriter) (dt : Float) :
    Lockstep (p.twins q host) Eq (type hear w dt) (type hear w dt) := by
  refine .seq (lockstep_edit fun _ _ => ⟨rfl, id⟩) fun _ => .ite ?_ lockstep_refresh
  exact .seq (.seq lockstep_resetAutoTimer fun _ => hhear _) fun _ => lockstep_refresh

/-- When a time has passed, both go on or both wait. -/
theorem elapse_agrees {st st' : Stage σ} {f : Session → Session} {P : Session → Prop}
    [DecidablePred P] (hk : (p.twins q host).Holds st st')
    (hf : (f st.session).Twins p q (f st'.session)) (hP : P (f st.session) ↔ P (f st'.session)) :
    Agrees (p.twins q host) Eq
      ((do edit f; let s ← session; if P s then advance hear : Act σ Unit) st)
      ((do edit f; let s ← session; if P s then advance hear : Act σ Unit) st') := by
  rw [edit_bind_apply, edit_bind_apply, session_bind_apply, session_bind_apply,
    if_congr hP rfl rfl]
  exact Lockstep.ite (lockstep_advance hhear) (.pure rfl) _ _ { hk with session := hf }

/-- Waiting for a line that is on screen ends in the same way. -/
theorem wait_agrees (dt : Float) {st st' : Stage σ} (hk : (p.twins q host).Holds st st')
    (hphase : st.session.phase = .presenting) :
    Agrees (p.twins q host) Eq (wait hear dt st) (wait hear dt st') := by
  -- the timers count, so they are the same and run out at the same time
  obtain ⟨later, laterNodes, a, b, hretired, hnodes, htimers, hs⟩ := hk.session
  obtain ⟨rfl, rfl⟩ := htimers (.inl hphase)
  have hmode : st'.session.mode = st.session.mode := by
    rw [hs]
    rfl
  unfold wait
  rw [session_bind_apply, session_bind_apply, hmode]
  cases st.session.mode with
  | normal => exact .ok rfl hk
  | auto | fastForward =>
    refine elapse_agrees hhear hk ?_ (by rw [hs]; rfl)
    rw [hs]
    exact ⟨later, laterNodes, _, _, hretired, hnodes, fun _ => ⟨rfl, rfl⟩, rfl⟩

/-- Letting time pass is in lockstep. -/
theorem lockstep_update (dt : Float) :
    Lockstep (p.twins q host) Eq (update hear dt) (update hear dt) := by
  intro st st' hk
  unfold update
  rw [session_bind_apply, session_bind_apply, hk.session.congr Session.phase fun _ _ => rfl,
    hk.session.congr Session.typewriter fun _ _ => rfl]
  cases hphase : st.session.phase <;> cases st.session.typewriter
  case presenting.some w =>
    dsimp only
    cases w.complete with
    | true => exact wait_agrees hhear dt hk hphase
    | false => exact lockstep_type hhear w dt st st' hk
  all_goals exact .ok rfl hk

/-- Going on, as the reader wants to, is in lockstep. -/
theorem lockstep_advanceInput :
    Lockstep (p.twins q host) Eq (advanceInput hear) (advanceInput hear) := by
  refine lockstep_session (fun _ _ => rfl) fun s => ?_
  cases s.phase <;> cases s.typewriter
  case presenting.some w =>
    exact .ite (lockstep_setMode hhear _) (.ite (lockstep_advance hhear) (lockstep_showWhole hhear))
  all_goals exact .pure rfl

/-- Switching between ways to advance is in lockstep. -/
theorem lockstep_toggleAuto :
    Lockstep (p.twins q host) Eq (toggleAuto hear) (toggleAuto hear) :=
  lockstep_session (fun _ _ => rfl) fun _ => lockstep_setMode hhear _

/-- So is starting or stopping to skip lines. -/
theorem lockstep_toggleFastForward :
    Lockstep (p.twins q host) Eq (toggleFastForward hear) (toggleFastForward hear) :=
  lockstep_session (fun _ _ => rfl) fun _ => .ite (lockstep_setMode hhear _)
    (.seq (lockstep_setMode hhear _) fun _ => lockstep_showWhole hhear)

omit hhear in
/-- Pausing is in lockstep. -/
theorem lockstep_pause : Lockstep (p.twins q host) Eq pause pause := by
  refine lockstep_edit fun s m => ⟨?_, fun h => ?_⟩
  · cases hphase : s.phase <;> simp [Session.withMargin, hphase]
  · -- the timers of a line that is on screen are kept
    split at h
    · exact .inl (by simpa [Session.TimersCount] using h)
    · exact h

omit hhear in
/-- Going on with a paused session is in lockstep. -/
theorem lockstep_resume : Lockstep (p.twins q host) Eq resume resume := by
  refine lockstep_edit fun s m => ⟨?_, fun h => ?_⟩
  · cases hphase : s.phase <;> cases hfrom : s.pausedFrom <;>
      simp [Session.withMargin, hphase, hfrom]
  · split at h
    · next phase hphase hfrom =>
      have : phase = .presenting := by simpa [Session.TimersCount] using h
      exact .inr ⟨hphase, by rw [hfrom, this]⟩
    · exact h

/-- Inputs are in lockstep. -/
theorem lockstep_input (i : Input) :
    Lockstep (p.twins q host) Eq (i.perform hear) (i.perform hear) := by
  cases i with
  | start node context => exact .seq (lockstep_start hhear node context) fun _ => .pure rfl
  | advance => exact lockstep_advanceInput hhear
  | update dt => exact lockstep_update hhear dt
  | decide index => exact .seq (lockstep_makeDecision hhear index) fun _ => .pure rfl
  | toggleAuto => exact lockstep_toggleAuto hhear
  | toggleFastForward => exact lockstep_toggleFastForward hhear
  | pause => exact lockstep_pause
  | resume => exact lockstep_resume

/-- Requests are in lockstep. -/
theorem lockstep_request (r : Request) :
    Lockstep (p.twins q host) Eq (r.perform hear) (r.perform hear) := by
  cases r with
  | input i => exact lockstep_input hhear i
  | findNode node context => exact .seq (lockstep_findNode hhear node context) fun _ => .pure rfl

end Act

namespace Act

/-! ### Restoring -/

variable {σ : Type} (hear : Listener σ)

/-- What is done when the session of a stored traversal has been put in place: the scene is rebuilt
from the history, and the session runs on. -/
def runRestored (history : List String) : Act σ Unit := do
  let era := (← session).nodesEra
  replay hear (goTo hear) history
  steps hear (← session).era (← get).setup.patience
  settle era

/-- The session may be put in place as a whole before the scene is rebuilt. -/
theorem resumeAt_eq (t : Traversal) (nodes : List Node) :
    resumeAt hear t nodes = edit (fun s => s.takenUp t nodes) >>= fun _ =>
      runRestored hear t.history := by
  funext st
  obtain ⟨remarks, hreplay⟩ := replay_apply hear (goTo hear) t.history
  unfold resumeAt runRestored run
  -- the scene is rebuilt with the same effects on either session, and leaves it alone
  rw [edit_bind_apply, session_bind_apply, bind_apply,
    hreplay { st with session := st.session.resumed t nodes }]
  rw [edit_bind_apply, session_bind_apply, bind_apply,
    hreplay { st with session := st.session.takenUp t nodes }]
  rfl

variable {p q : Past} {host : σ → σ → Prop} {hear}
  (hhear : ∀ e, Lockstep (p.twins q host) Eq (hear e) (hear e))

include hhear

/-- Rebuilding a scene is in lockstep. -/
theorem lockstep_replay (history : List String) :
    Lockstep (p.twins q host) Eq (replay hear (goTo hear) history)
      (replay hear (goTo hear) history) := by
  induction history with
  | nil => exact .pure rfl
  | cons line history ih => exact .seq (lockstep_dispatch hhear line true) fun _ => ih

/-- Running on from a stored traversal is in lockstep. -/
theorem lockstep_runRestored (history : List String) :
    Lockstep (p.twins q host) Eq (runRestored hear history) (runRestored hear history) := by
  refine .bind .session fun s t h => .seq (lockstep_replay hhear history) fun _ => ?_
  refine .bind .session fun s₁ t₁ h₁ => .bind .get fun st st' hk => ?_
  rw [hk.setup]
  refine .seq (lockstep_steps hhear h₁.era _) fun _ =>
    .seq (lockstep_edit fun _ _ => ⟨rfl, id⟩) fun _ => .bind .session fun s₂ t₂ h₂ => ?_
  -- the stack that has been taken up is the same one, counted from the pasts
  rw [h₂.nodesOf h.nodesEra]
  exact .ite (.throw _) (.pure rfl)

/-- Restoring a stored session is in lockstep. -/
theorem lockstep_restore (stored : String) :
    Lockstep (p.twins q host) Eq (restore hear stored) (restore hear stored) := by
  unfold restore
  cases Traversal.ofText stored with
  | invalid ps => exact .throw _
  | valid t =>
    refine .ite (.throw _) (.seq (lockstep_loadOrUndo lockstep_findScript ?_ t) fun nodes => ?_)
    · intro s s' h
      rw [h.congr Session.vars fun _ _ => rfl]
      exact lockstep_edit fun _ _ => ⟨rfl, id⟩
    · rw [resumeAt_eq]
      refine .seq (.edit ?_) fun _ => lockstep_runRestored hhear _
      -- the session so far is put aside
      rintro s s' ⟨later, laterNodes, a, b, hretired, hnodes, -, rfl⟩
      refine ⟨later ++ [s.traversal], laterNodes ++ [s.nodes], a, b, ?_, ?_, fun h => ?_, ?_⟩
      · simp [Session.takenUp, Session.resumed, hretired]
      · simp [Session.takenUp, Session.resumed, Session.replaceNodes, Session.cleared, hnodes]
      · exact absurd h (Session.not_timersCount rfl)
      · simp [Session.takenUp, Session.resumed, Session.replaceNodes, Session.cleared,
          Session.withMargin]

end Act

end VisualNovel
