import VisualNovel.Proofs.Life.Bracketing

/-!
# What a session tells of itself

Whoever hears an event may look at the session, and finds it in the middle of what it does. Most
acts have come to an end with the place of the session when they tell something: they first go where
they go, and then tell of it and show it. Only when a node is complete this is told before the
session has come back to the node below.

## Main definitions

* `Stage.Quiet`: nothing has been told;
* `Stage.Shown`: only what is on show has changed, and what has been told, has been told meanwhile;
* `Stage.Tells`: what has been told, has been told of the session as it is in the end;
* `Stage.Reports`: the same, except when a node is complete.

## Main results

* `Act.step_reports`: what a step tells;
* `Input.prepare_tells`: what is told before a run.
-/

namespace VisualNovel

open Entry

/-- Likeness goes both ways. -/
theorem Session.Alike.symm {s s' : Session} (h : s.Alike s') : s'.Alike s := by
  obtain ⟨_, _, _, _, _, rfl⟩ := h
  exact ⟨_, _, _, _, _, rfl⟩

/-- The observer that does nothing. -/
def Observer.deaf {σ : Type} : Observer σ where
  react _ st := st
  session_react _ _ := rfl
  setup_react _ _ := rfl
  files_react _ _ := rfl

namespace Stage

/-- Nothing has been told, and the era is the same. -/
def Quiet (st st' : Stage (List Entry)) : Prop :=
  st'.host = st.host ∧ st'.session.retired = st.session.retired

/-- What has been told, has been told of the session as it is in the end. -/
def Tells (st st' : Stage (List Entry)) : Prop :=
  ∃ log, st'.host = st.host ++ log ∧ ∀ e s, told e s ∈ log → s.Alike st'.session

/-- Only what is on show has changed, and whatever has been told has been told meanwhile. -/
def Shown (st st' : Stage (List Entry)) : Prop := st.session.Alike st'.session ∧ st.Tells st'

/-- What has been told, has been told of the session as it is in the end, or it is that the
innermost node is complete, and it has been told when the node was off the stack. -/
def Reports (st st' : Stage (List Entry)) : Prop :=
  ∃ log, st'.host = st.host ++ log ∧ ∀ e s, told e s ∈ log → s.Alike st'.session ∨
    ∃ f, st.session.traversal.top = some f ∧ e = .nodeCompleted f.node ∧ s = st.session.popped f

variable {st st₁ st₂ : Stage (List Entry)}

theorem Quiet.tells (h : st.Quiet st₁) : st.Tells st₁ := ⟨[], by simp [h.1], by simp⟩

theorem Tells.reports (h : st.Tells st₁) : st.Reports st₁ := by
  obtain ⟨log, hhost, hlog⟩ := h
  exact ⟨log, hhost, fun e s he => .inl (hlog e s he)⟩

/-- An act that tells nothing may come first. -/
theorem Tells.of_quiet (h : st.Quiet st₁) (h' : st₁.Tells st₂) : st.Tells st₂ := by
  obtain ⟨log, hhost, hlog⟩ := h'
  exact ⟨log, by rw [hhost, h.1], hlog⟩

/-- An act that only shows something may follow. -/
theorem Tells.shown (h : st.Tells st₁) (h' : st₁.Shown st₂) : st.Tells st₂ := by
  obtain ⟨log, hhost, hlog⟩ := h
  obtain ⟨hlike, later, hhost', hlater⟩ := h'
  refine ⟨log ++ later, by rw [hhost', hhost, List.append_assoc], fun e s he => ?_⟩
  rcases List.mem_append.mp he with he | he
  · exact (hlog e s he).trans hlike
  · exact hlater e s he

end Stage

namespace Act

variable {α β : Type} {st : Stage (List Entry)}

/-- Most of what a session does is quiet if nobody listens. -/
theorem blindToPlace_quiet : BlindToPlace .deaf Stage.Quiet where
  refl st := ⟨rfl, rfl⟩
  trans h h' := ⟨h'.1.trans h.1, h'.2.trans h.2⟩
  shows st s' h := by
    obtain ⟨_, _, _, _, _, rfl⟩ := h
    exact ⟨rfl, rfl⟩
  remarks st rs := ⟨rfl, rfl⟩
  asks st c _ := by
    unfold Stage.asked
    split <;> exact ⟨rfl, rfl⟩
  tells st e _ := ⟨rfl, rfl⟩
  moves st s' h := ⟨rfl, h.retired⟩
  retired h := h.2

/-- What only shows something tells of a session that is what it was before and after. -/
theorem blindToShow_shown : BlindToShow scribe Stage.Shown where
  refl st := ⟨.refl _, [], by simp, by simp⟩
  trans h h' := ⟨h.1.trans h'.1, h.2.shown h'⟩
  shows st s' h := ⟨h, [], by simp, by simp⟩
  remarks st rs := ⟨.refl _, [], by simp, by simp⟩
  asks st c _ := by
    refine ⟨by rw [st.session_asked]; exact .refl _, [], ?_, by simp⟩
    unfold Stage.asked
    split <;> simp
  tells st e _ := by
    refine ⟨.refl _, [told e st.session], rfl, fun e' s he => ?_⟩
    obtain ⟨-, rfl⟩ := Entry.told.inj (List.mem_singleton.mp he)
    exact .refl _

/-! ### Acts that tell last -/

/-- A quiet act comes first. -/
theorem tells_bind_quiet {x : Act (List Entry) α} {f : α → Act (List Entry) β}
    (hx : LeavesFrom Stage.Quiet st x)
    (hf : ∀ a st', st.Quiet st' → LeavesFrom Stage.Tells st' (f a)) :
    LeavesFrom Stage.Tells st (x >>= f) :=
  hx.bind Stage.Quiet.tells (fun h h' => h'.of_quiet h) hf

/-- An act that only shows something follows. -/
theorem tells_bind_shown {x : Act (List Entry) α} {f : α → Act (List Entry) β}
    (hx : LeavesFrom Stage.Tells st x) (hf : ∀ a, Leaves Stage.Shown (f a)) :
    LeavesFrom Stage.Tells st (x >>= f) :=
  hx.bind id Stage.Tells.shown fun a st' _ => hf a st'

/-- Any event may be told. -/
theorem tells_hear (e : Event) : LeavesFrom Stage.Tells st (scribe.hear e) := by
  refine ⟨[told e st.session], rfl, fun e' s he => ?_⟩
  obtain ⟨-, rfl⟩ := Entry.told.inj (List.mem_singleton.mp he)
  exact .refl _

theorem tells_endSession : LeavesFrom Stage.Tells st (endSession scribe.hear) :=
  tells_bind_quiet (x := edit Session.cleared) ⟨rfl, rfl⟩ fun _ _ _ => tells_hear _

theorem tells_abandonNode (name : String) (f : Failure) :
    LeavesFrom Stage.Tells st (abandonNode scribe.hear name f) :=
  tells_bind_quiet (blindToPlace_quiet.remarkAll _ st) fun _ _ _ =>
    tells_bind_quiet (x := edit Session.halt) ⟨rfl, rfl⟩ fun _ _ _ => tells_hear _

theorem tells_awaitChoice (d : Decision) :
    LeavesFrom Stage.Tells st (awaitChoice scribe.hear d) :=
  tells_bind_quiet (x := edit fun s => { s with phase := .choosing, typewriter := none }) ⟨rfl, rfl⟩
    fun _ st' _ => tells_bind_quiet (blindToPlace_quiet.ask rfl st') fun _ _ _ => tells_hear _

theorem tells_enter (n : Node) : LeavesFrom Stage.Tells st (enter scribe.hear n) := by
  unfold enter
  simp only [LeavesFrom, ends_bind, ends_session, ends_ite, ends_edit]
  split
  · exact Stage.Quiet.tells ⟨rfl, rfl⟩
  · exact (tells_hear _).imp (fun _ _ h => h.of_quiet ⟨rfl, rfl⟩) fun _ _ h => h.of_quiet ⟨rfl, rfl⟩

/-- If a node is not opened, nothing has been told. -/
theorem tells_openNode (name context : String) : Ends (openNode scribe.hear name context) st
    (fun opened st' => if opened then st.Tells st' else st.Quiet st') fun _ => st.Tells := by
  have hquiet := blindToPlace_quiet
  have hfind := hquiet.findScript name context st
  unfold openNode
  simp only [ends_bind, ends_session, ends_ite, ends_pure, ends_attempt]
  split
  · exact ⟨rfl, rfl⟩
  refine hfind.imp (fun n st₁ h₁ => ?_) fun f st₁ h₁ => ?_
  · simp only [ends_remark]
    split
    · exact hquiet.trans h₁ ⟨rfl, rfl⟩
    · exact (tells_enter n).imp (fun _ _ h => h.of_quiet h₁) fun _ _ h => h.of_quiet h₁
  · split
    · simp only [ends_throw]
      exact (tells_abandonNode name f).imp (fun _ _ h => h.of_quiet h₁) fun _ _ h => h.of_quiet h₁
    · exact h₁.tells

theorem tells_goTo (name : String) : LeavesFrom Stage.Tells st (goTo scribe.hear name) := by
  refine tells_bind_quiet (x := session) ⟨rfl, rfl⟩ fun s st' _ => ?_
  refine tells_bind_shown (x := attempt Failure.isDialogue (openNode scribe.hear name _)) ?_
    fun _ => blindToShow_shown.pure ()
  rw [LeavesFrom, ends_attempt]
  refine (tells_openNode name _).imp (fun opened _ h => ?_) fun _ _ h => ?_
  · cases opened with
    | true => exact h
    | false => exact h.tells
  · split <;> exact h

/-- If no decision is asked, nothing has been told. -/
theorem tells_passDecisions (n : Node) : Ends (passDecisions scribe.hear n) st
    (fun asked st' => if asked then st.Tells st' else st.Quiet st') fun _ => st.Tells := by
  unfold passDecisions
  simp only [ends_bind, ends_session, ends_edit]
  split
  · exact ⟨rfl, rfl⟩
  · exact Stage.Quiet.tells ⟨rfl, rfl⟩
  · simp only [ends_bind, ends_pure]
    exact (tells_awaitChoice _).imp (fun _ _ h => h.of_quiet ⟨rfl, rfl⟩) fun _ _ h =>
      h.of_quiet ⟨rfl, rfl⟩

/-- A line is put on screen before this is told. -/
theorem tells_present (n : Node) (line : Spoken) :
    LeavesFrom Stage.Tells st (present scribe.hear n line) := by
  have hquiet := blindToPlace_quiet
  have hshown := blindToShow_shown
  refine tells_bind_quiet (hquiet.session st) fun _ st' _ =>
    tells_bind_quiet (hquiet.session st') fun _ st' _ =>
    tells_bind_quiet (hquiet.turnTo _ st') fun _ st' _ =>
    tells_bind_quiet (hquiet.record _ st') fun _ _ _ =>
    tells_bind_quiet (x := edit _) ⟨rfl, rfl⟩ fun _ st' _ =>
    tells_bind_quiet (hquiet.session st') fun _ st' _ =>
    tells_bind_quiet (hquiet.ofExcept _ st') fun _ _ _ =>
    tells_bind_quiet (x := edit _) ⟨rfl, rfl⟩ fun _ st' _ =>
    tells_bind_quiet (hquiet.ask rfl st') fun _ _ _ =>
    tells_bind_shown (tells_hear _) fun _ => hshown.bind hshown.session fun _ => ?_
  split
  · exact hshown.bind hshown.completeText fun _ => hshown.refresh
  · exact hshown.refresh

theorem tells_dispatch (text : String) :
    LeavesFrom Stage.Tells st (dispatch scribe.hear (goTo scribe.hear) text false) := by
  have hquiet := blindToPlace_quiet
  have hshown := blindToShow_shown
  have heffect (e : Effect) : LeavesFrom Stage.Tells st (bringAbout (goTo scribe.hear) e) := by
    cases e with
    | none => exact Stage.Quiet.tells ⟨rfl, rfl⟩
    | incomplete message => exact Stage.Quiet.tells ⟨rfl, rfl⟩
    | call c =>
      refine ends_ask.mpr (Stage.Quiet.tells ⟨?_, by simp⟩)
      unfold Stage.asked
      split <;> rfl
    | goTo name => exact tells_goTo name
  unfold dispatch
  split
  · exact Stage.Quiet.tells ⟨rfl, rfl⟩
  split
  · exact Stage.Quiet.tells ⟨rfl, rfl⟩
  refine tells_bind_shown (heffect _) fun _ => ?_
  exact hshown.bind (hshown.hear rfl) fun _ => hshown.pure _

/-- What is taken up is told of when the cursor has gone on. -/
theorem tells_takeLine (n : Node) (text : String) :
    LeavesFrom Stage.Tells st (takeLine scribe.hear st.session.era n text) := by
  have hquiet := blindToPlace_quiet
  have hshown := blindToShow_shown
  unfold takeLine
  split
  · refine tells_bind_quiet (x := edit _) ⟨rfl, ?_⟩ fun _ st₁ h₁ => ?_
    · simp [Session.era]
    have hera : st.session.era = st₁.session.era := by rw [Session.era, Session.era, h₁.2]
    rw [hera]
    exact tells_bind_quiet hquiet.nextLine fun _ _ _ =>
      tells_bind_shown (tells_dispatch text) fun _ => hshown.pure _
  · dsimp only
    split
    · exact tells_bind_quiet hquiet.nextLine fun _ _ _ => Stage.Quiet.tells ⟨rfl, rfl⟩
    · exact tells_bind_shown (tells_present n _) fun _ => hshown.pure _

/-! ### Steps -/

/-- A node is told to be complete when it is off the stack, and before the one below comes back. -/
theorem reports_finishNode : LeavesFrom Stage.Reports st (finishNode scribe.hear) := by
  unfold finishNode
  rw [LeavesFrom, ends_bind, ends_session]
  cases htop : st.session.traversal.top with
  | none => exact (blindToPlace_quiet.refl st).tells.reports
  | some f =>
    simp only [ends_bind, ends_edit, ends_hear, ends_session]
    -- what is told from here on comes behind the completion
    have hbehind {st₁ st₂ : Stage (List Entry)}
        (h₁ : st₁.host = st.host ++ [told (.nodeCompleted f.node) (st.session.popped f)])
        (h : st₁.Tells st₂) : st.Reports st₂ := by
      obtain ⟨log, hhost, hlog⟩ := h
      refine ⟨told (.nodeCompleted f.node) (st.session.popped f) :: log, ?_, fun e s he => ?_⟩
      · rw [hhost, h₁, List.append_assoc, List.singleton_append]
      · rcases List.mem_cons.mp he with heq | he
        · obtain ⟨rfl, rfl⟩ := Entry.told.inj heq
          exact .inr ⟨f, htop, rfl, rfl⟩
        · exact .inl (hlog e s he)
    have hrest (ended : Bool) {st₁ : Stage (List Entry)}
        (h₁ : st₁.host = st.host ++ [told (.nodeCompleted f.node) (st.session.popped f)]) :
        LeavesFrom (fun _ => st.Reports) st₁ (do
          if ended then endSession scribe.hear
          return !ended) := by
      split
      · exact (tells_bind_shown tells_endSession fun _ => blindToShow_shown.pure _).imp
          (fun _ _ h => hbehind h₁ h) fun _ _ h => hbehind h₁ h
      · exact hbehind h₁ (blindToPlace_quiet.refl st₁).tells
    exact hrest _ rfl

/-- Whatever a step tells, it tells when the session has come to its new place, unless it tells that
a node is complete. -/
theorem step_reports : LeavesFrom Stage.Reports st (step scribe.hear st.session.era) := by
  have hquiet := blindToPlace_quiet
  refine step_rule (fun _ => (hquiet.refl st).tells.reports) (fun _ _ _ _ => reports_finishNode)
    fun n _ _ _ => ?_
  refine (hquiet.passConditionals n st).imp (fun _ st₁ h₁ => ?_) fun _ _ h => h.tells.reports
  refine (tells_passDecisions n).imp (fun asked st₂ h₂ => ?_)
    fun _ _ h => (h.of_quiet h₁).reports
  cases asked with
  | true =>
    have h₂ : st₁.Tells st₂ := h₂
    exact (h₂.of_quiet h₁).reports
  | false =>
    have h₂ : st.Quiet st₂ := hquiet.trans h₁ h₂
    -- nothing has been told so far, and the era has not changed
    have hera : st.session.era = st₂.session.era := by rw [Session.era, Session.era, h₂.2]
    refine ⟨fun _ => h₂.tells.reports, fun _ _ => h₂.tells.reports, fun text _ _ => ?_⟩
    rw [hera]
    exact (tells_takeLine n text).imp (fun _ _ h => (h.of_quiet h₂).reports)
      fun _ _ h => (h.of_quiet h₂).reports

/-! ### Preparations -/

/-- The option is taken before this is told. -/
theorem tells_takeOption (index : Int) :
    LeavesFrom Stage.Tells st (takeOption scribe.hear index) := by
  have hquiet := blindToPlace_quiet
  have hshown := blindToShow_shown
  unfold takeOption
  rw [LeavesFrom, ends_bind, ends_session]
  split
  · exact Stage.Quiet.tells ⟨rfl, rfl⟩
  split
  · exact Stage.Quiet.tells ⟨rfl, rfl⟩
  split
  · exact Stage.Quiet.tells ⟨rfl, rfl⟩
  refine tells_bind_quiet (x := editTraversal _) ⟨rfl, rfl⟩ fun _ st₁ _ =>
    tells_bind_quiet (hquiet.ask rfl st₁) fun _ _ _ => tells_bind_shown (tells_hear _) fun _ =>
    hshown.bind hshown.session fun _ => ?_
  split
  · exact hshown.bind (hshown.setMode _) fun _ => hshown.bind hshown.currentNode fun _ =>
      hshown.bind hshown.session fun _ => hshown.pure _
  · exact hshown.bind hshown.currentNode fun _ => hshown.bind hshown.session fun _ => hshown.pure _

end Act

namespace Input

open Act

variable {st : Stage (List Entry)}

/-- Whatever is told before a run, is told of the session with which the run begins. -/
theorem prepare_tells (i : Input) : LeavesFrom Stage.Tells st (i.prepare scribe.hear) := by
  have hquiet := blindToPlace_quiet
  have hshown := blindToShow_shown
  have hnothing {α : Type} {st : Stage (List Entry)} (a : α) :
      LeavesFrom Stage.Tells st (pure a) := (hquiet.refl st).tells
  have hshows {α β : Type} {st : Stage (List Entry)} {x : Act (List Entry) α} (b : β)
      (hx : Leaves Stage.Shown x) : LeavesFrom Stage.Tells st (x >>= fun _ => pure b) :=
    (hshown.bind hx (fun _ => hshown.pure b) st).imp (fun _ _ h => h.2) fun _ _ h => h.2
  have hquietly {α : Type} {st : Stage (List Entry)} {x : Act (List Entry) α}
      (hx : Leaves Stage.Quiet x) : LeavesFrom Stage.Tells st x :=
    (hx st).imp (fun _ _ h => h.tells) fun _ _ h => h.tells
  -- each input is quiet, shows something, or tells and then only changes what is on show
  unfold prepare
  cases i with
  | start node context =>
    refine tells_bind_quiet (x := edit Session.fresh) ⟨rfl, rfl⟩ fun _ st₁ _ => ?_
    rw [LeavesFrom, ends_bind]
    refine (tells_openNode node context).imp (fun opened st₂ h₂ => ?_) fun _ _ h => h
    cases opened with
    | true => exact h₂
    | false =>
      -- a node that is not opened has told nothing, so the end of the session is told first
      have h₂ : st₁.Quiet st₂ := h₂
      exact (tells_bind_shown tells_endSession fun _ => hshown.pure _).imp
        (fun _ _ h => h.of_quiet h₂) fun _ _ h => h.of_quiet h₂
  | advance =>
    refine tells_bind_quiet (hquiet.session st) fun s st₁ _ => ?_
    split
    · split
      · exact hshows _ (hshown.setMode _)
      · split
        · exact hquietly hquiet.leaveLine
        · exact hshows _ hshown.showWhole
    · exact hnothing _
  | update dt =>
    refine tells_bind_quiet (hquiet.session st) fun s st₁ _ => ?_
    split
    · split
      · exact hquietly (hquiet.waitOut dt)
      · exact hshows _ (hshown.type _ dt)
    · exact hnothing _
  | decide index => exact tells_takeOption index
  | toggleAuto => exact hshows _ hshown.toggleAuto
  | toggleFastForward => exact hshows _ hshown.toggleFastForward
  | pause => exact hquietly (hquiet.bind hquiet.pause fun _ => hquiet.pure _)
  | resume => exact hquietly (hquiet.bind hquiet.resume fun _ => hquiet.pure _)

end Input

end VisualNovel
