import VisualNovel.Proofs.Life.Demands
import VisualNovel.Proofs.Life.Typing

/-!
# Lines that are skipped

While lines are skipped no text is typed: the text on screen is complete, whether the line has come
on screen or skipping has begun afterwards. The timers by which lines advance on their own begin
anew whenever the mode changes. Between two moments of a session they only run on while time
passes; everything else leaves them as they are or sets them back.

## Main definitions

* `Session.Swift`: the text on screen is complete if lines are skipped;
* `Session.Unwound`: the timers have been set back;
* `Session.Timed`: what has become of a session between two moments at which no time has passed.

## Main results

* `Act.keptByTravel_punctual`: whatever a session does on its own keeps this;
* `Act.punctual_toggleFastForward` and the like: so does what a reader does;
* `Demand.whole_texts_while_skipping`: no text is typed while lines are skipped, and no timer
  outlasts a mode.
-/

namespace VisualNovel

open Act

namespace Session

/-- The text on screen is complete if lines are skipped. -/
def Swift (s : Session) : Prop := s.mode = .fastForward → ∀ w ∈ s.typewriter, w.complete

/-- Both timers have been set back. -/
def Unwound (s : Session) : Prop := s.autoTimer = 0 ∧ s.skipTimer = 0

/-- A text that has been written to its end is complete. -/
theorem complete_of_writeAll {s s' : Session}
    (h : s'.typewriter = s.typewriter.map Typewriter.writeAll) :
    ∀ w ∈ s'.typewriter, w.complete := by
  intro w hw
  rw [h, Option.mem_def, Option.map_eq_some_iff] at hw
  obtain ⟨w, -, rfl⟩ := hw
  exact w.complete_writeAll

/-- A session has become another one while no time has passed. -/
structure Timed (s s' : Session) : Prop where
  swift : s.Swift → s'.Swift
  autoTimer : s'.autoTimer = s.autoTimer ∨ s'.autoTimer = 0
  skipTimer : s'.skipTimer = s.skipTimer ∨ s'.skipTimer = 0
  /-- If the mode has changed, the timers have been set back. -/
  unwound : s'.mode ≠ s.mode → s'.Unwound

/-- No text is typed while lines are skipped, and no timer outlasts a mode. -/
structure Orderly (s s' : Session) : Prop where
  swift : s.Swift → s'.Swift
  unwound : s'.mode ≠ s.mode → s'.Unwound

namespace Timed

variable {s s' s'' : Session}

theorem refl (s : Session) : s.Timed s := ⟨id, .inl rfl, .inl rfl, absurd rfl⟩

/-- Timers that have been set back stay so. -/
theorem keeps_unwound (h : s.Timed s') (hs : s.Unwound) : s'.Unwound := by
  constructor
  · rcases h.autoTimer with hsame | hzero
    · exact hsame.trans hs.1
    · exact hzero
  · rcases h.skipTimer with hsame | hzero
    · exact hsame.trans hs.2
    · exact hzero

theorem trans (h : s.Timed s') (h' : s'.Timed s'') : s.Timed s'' := by
  refine ⟨h'.swift ∘ h.swift, ?_, ?_, fun hmode => ?_⟩
  · rcases h'.autoTimer with hsame | hzero
    · rw [hsame]
      exact h.autoTimer
    · exact .inr hzero
  · rcases h'.skipTimer with hsame | hzero
    · rw [hsame]
      exact h.skipTimer
    · exact .inr hzero
  by_cases hlater : s''.mode = s'.mode
  · -- the mode has changed before
    exact h'.keeps_unwound (h.unwound fun heq => hmode (hlater.trans heq))
  · exact h'.unwound hlater

/-- A session in the same stance. -/
theorem of_sameStance (h : s.SameStance s') : s.Timed s' where
  swift hs := by
    rw [Swift, h.mode, h.typewriter]
    exact hs
  autoTimer := .inl h.autoTimer
  skipTimer := .inl h.skipTimer
  unwound hmode := absurd h.mode hmode

/-- The text has been taken off the screen. -/
theorem of_blank (hnone : s'.typewriter = none) (hmode : s'.mode = s.mode)
    (hauto : s'.autoTimer = s.autoTimer) (hskip : s'.skipTimer = s.skipTimer) : s.Timed s' where
  swift _ _ w hw := by simp [hnone] at hw
  autoTimer := .inl hauto
  skipTimer := .inl hskip
  unwound hne := absurd hmode hne

theorem orderly (h : s.Timed s') : s.Orderly s' := ⟨h.swift, h.unwound⟩

/-- The timers do not matter as long as the mode stays the same. -/
theorem orderly_of_same (h : s'.Timed s'') (hmode : s'.mode = s.mode)
    (htype : s'.typewriter = s.typewriter) : s.Orderly s'' where
  swift hs := h.swift (by rw [Swift, hmode, htype]; exact hs)
  unwound hne := h.unwound fun heq => hne (heq.trans hmode)

end Timed

end Session

namespace Act

variable {σ α : Type} {st : Stage σ} (o : Observer σ)

/-- The relation of the sessions between which no time has passed, on stages. -/
def Punctual (st st' : Stage σ) : Prop := st.session.Timed st'.session

theorem blindToStory_punctual : BlindToStory o Punctual :=
  .of_session o .refl .trans .of_sameStance

variable {o} in
/-- A text that has been completed is not typed any more. -/
theorem punctual_completeText : Leaves Punctual (completeText o.hear) := by
  intro st
  unfold completeText
  simp only [LeavesFrom, ends_bind, ends_session]
  split
  · exact .refl _
  next w hw =>
  rw [ends_ite]
  split
  · simp only [tellCompletion, ends_bind, ends_edit, ends_hear, Punctual, o.session_react]
    refine ⟨fun _ _ w' hw' => ?_, .inr rfl, .inl rfl, absurd rfl⟩
    obtain rfl := Option.some.inj hw'
    exact w.complete_writeAll
  · exact .refl _

variable {o} in
/-- A line that comes on screen sets the timers back, and its text is complete at once if lines are
skipped. -/
theorem punctual_present (n : Node) (line : Spoken) : Leaves Punctual (present o.hear n line) := by
  have hR := blindToStory_punctual o
  refine hR.bind hR.session fun _ => hR.bind hR.session fun _ => hR.bind (hR.turnTo _) fun _ =>
    hR.bind (hR.record _) fun _ st => ?_
  simp only [LeavesFrom, ends_bind, ends_edit, ends_session, ends_ofExcept]
  split
  · next pace _ =>
    simp only [ends_ask, ends_hear]
    generalize hst₁ : o.react _ _ = st₁
    have hmode : st₁.session.mode = st.session.mode := by simp [← hst₁, Session.modifyNode]
    have hunwound : st₁.session.Unwound := by
      simp [← hst₁, Session.modifyNode, Session.Unwound]
    -- whether or not the text is completed, the timers stay where they are
    have hrest {st₂ : Stage σ} (h : st₁.session.Timed st₂.session)
        (hsame : st₂.session.mode = st₁.session.mode) (hswift : st₂.session.Swift) :
        Punctual st st₂ := by
      obtain ⟨hauto, hskip⟩ := h.keeps_unwound hunwound
      exact ⟨fun _ => hswift, .inr hauto, .inr hskip, absurd (hsame.trans hmode)⟩
    rw [ends_ite]
    split
    · rw [ends_bind]
      refine ((punctual_completeText st₁).and
        (completeText_typewriter (E := fun _ _ => False) o)).imp ?_ ?_
      · rintro - st₂ ⟨h₂, hsame, htype⟩
        refine refresh_session.imp (fun _ st₃ h₃ => ?_) fun _ _ hf => hf
        rw [Punctual, h₃]
        exact hrest h₂ hsame fun _ => Session.complete_of_writeAll htype
      · exact fun _ _ h => h.2.elim
    · next hslow =>
      refine refresh_session.imp (fun _ st₂ h₂ => ?_) fun _ _ hf => hf
      rw [Punctual, h₂]
      exact hrest (.refl _) rfl fun hfast => absurd hfast hslow
  · exact ⟨id, .inr rfl, .inr rfl, absurd rfl⟩

/-- Whatever a session does on its own keeps this. -/
theorem keptByTravel_punctual : KeptByTravel o Punctual where
  toBlindToStory := blindToStory_punctual o
  ends := by
    have hR := blindToStory_punctual o
    exact hR.bind (x := edit Session.cleared) (fun _ => .of_blank rfl rfl rfl rfl) fun _ =>
      hR.hear _
  abandons name f := by
    have hR := blindToStory_punctual o
    refine hR.bind (hR.remarkAll _) fun _ => ?_
    exact hR.bind (x := edit Session.halt) (fun _ => .of_blank rfl rfl rfl rfl) fun _ => hR.hear _
  awaits st d _ := by
    have hR := blindToStory_punctual o
    refine hR.bind_from (x := edit _) (.of_blank rfl rfl rfl rfl) fun _ _ _ => ?_
    exact hR.bind (hR.ask _) (fun _ => hR.hear _) _
  presents st n line _ := punctual_present n line st
  freshens _ := .of_blank rfl rfl rfl rfl
  resumes _ _ _ := .of_blank rfl rfl rfl rfl

/-! ### What a reader does -/

section Reader

variable {o}

/-- What is left of a session when the mode has been changed. -/
theorem setMode_session {E : Failure → Stage σ → Prop} (mode : PlaybackMode) :
    Ends (setMode o.hear mode) st (fun _ st' => st'.session =
      { st.session with autoTimer := 0, skipTimer := 0, mode }) E := by
  unfold setMode
  simp only [ends_bind, ends_edit, ends_session, ends_ite, ends_hear, ends_pure, o.session_react]
  split
  · trivial
  · next hsame =>
    rw [← not_ne_iff.mp hsame]

theorem punctual_setMode {mode : PlaybackMode} (hslow : mode ≠ .fastForward) :
    Leaves Punctual (setMode o.hear mode) := by
  refine fun st => (setMode_session mode).imp (fun _ st' h => ?_) fun _ _ h => h
  rw [Punctual, h]
  exact ⟨fun _ hfast => absurd hfast hslow, .inr rfl, .inr rfl, fun _ => ⟨rfl, rfl⟩⟩

theorem punctual_showWhole : Leaves Punctual (showWhole o.hear) := by
  have hR := blindToStory_punctual o
  refine hR.bind hR.session fun s => ?_
  split
  · exact hR.pure ()
  · split
    · exact hR.bind punctual_completeText fun _ => hR.refresh
    · exact hR.pure ()

theorem punctual_toggleAuto : Leaves Punctual (toggleAuto o.hear) := by
  have hR := blindToStory_punctual o
  refine hR.bind hR.session fun s => punctual_setMode ?_
  split <;> decide

/-- When skipping begins, the text on screen is completed. -/
theorem punctual_toggleFastForward : Leaves Punctual (toggleFastForward o.hear) := by
  have hR := blindToStory_punctual o
  refine hR.bind hR.session fun s => ?_
  split
  · exact punctual_setMode (by decide)
  intro st
  rw [LeavesFrom, ends_bind]
  refine (setMode_session .fastForward).imp (fun _ st₁ h₁ => ?_) fun _ _ h => h
  refine ((punctual_showWhole st₁).and
    (showWhole_typewriter (E := fun _ _ => False) o)).imp ?_ fun _ _ h => h.2.elim
  rintro - st₂ ⟨h₂, hmode, htype⟩
  have hunwound : st₂.session.Unwound := h₂.keeps_unwound ⟨by rw [h₁], by rw [h₁]⟩
  exact ⟨fun _ _ => Session.complete_of_writeAll htype, .inr hunwound.1, .inr hunwound.2,
    fun _ => hunwound⟩

theorem punctual_advance : Leaves Punctual (advance o.hear) := by
  have hR := keptByTravel_punctual o
  refine hR.bind (x := edit _) (fun st => ⟨id, .inr rfl, .inr rfl, absurd rfl⟩) fun _ => ?_
  exact hR.bind (hR.edit fun _ => ⟨rfl, rfl, rfl, rfl, rfl, rfl, rfl⟩) fun _ => hR.run []

theorem punctual_advanceInput : Leaves Punctual (advanceInput o.hear) := by
  have hR := blindToStory_punctual o
  refine hR.bind hR.session fun s => ?_
  split
  · split
    · exact punctual_setMode (by decide)
    · split
      · exact punctual_advance
      · exact punctual_showWhole
  · exact hR.pure ()

theorem punctual_makeDecision (index : Int) : Leaves Punctual (makeDecision o.hear index) := by
  have hR := keptByTravel_punctual o
  -- the choice may end the skipping before the session runs on
  have hrest (d : Decision) : Leaves Punctual (do
      let n ← currentNode
      run o.hear [n.visit (← session).nodes.length .decision d.index]
      return true : Act σ Bool) :=
    hR.bind hR.currentNode fun _ => hR.bind hR.session fun _ =>
      hR.bind (hR.run _) fun _ => hR.pure _
  refine hR.bind hR.session fun s => ?_
  split
  · exact hR.bind (hR.remarkAll _) fun _ => hR.pure _
  split
  · exact hR.throw _
  split
  · exact hR.throw _
  refine hR.bind (hR.edit fun _ => ⟨rfl, rfl, rfl, rfl, rfl, rfl, rfl⟩) fun _ =>
    hR.bind (hR.ask _) fun _ => hR.bind (hR.hear _) fun _ => hR.bind hR.session fun _ => ?_
  split
  · exact hR.bind (punctual_setMode (by decide)) fun _ => hrest _
  · exact hrest _

end Reader

/-! ### Time that passes -/

section Time

variable {o}

/-- No text is typed on a stage while lines are skipped, and no timer outlasts a mode. -/
def Ordered (st st' : Stage σ) : Prop := st.session.Orderly st'.session

theorem Leaves.ordered {x : Act σ α} (h : Leaves Punctual x) : Leaves Ordered x := fun st =>
  (h st).imp (fun _ _ h => h.orderly) fun _ _ h => h.orderly

/-- Typing a text, which happens only while lines are not skipped. -/
theorem ordered_type {w : Typewriter} (hw : st.session.typewriter = some w)
    (hc : w.complete = false) (dt : Float) : LeavesFrom Ordered st (type o.hear w dt) := by
  -- a text that is still typed is not complete, so lines are not skipped
  have hslow {st' : Stage σ} (hmode : st'.session.mode = st.session.mode) : Ordered st st' := by
    refine ⟨fun hs hfast => ?_, absurd hmode⟩
    have hcomplete := hs (hmode.symm.trans hfast) w hw
    rw [hc] at hcomplete
    cases hcomplete
  unfold type
  simp only [LeavesFrom, ends_bind, ends_edit, tellCompletion, ends_ite, ends_hear]
  split
  · refine refresh_session.imp (fun _ st' h => hslow ?_) fun _ _ h => h
    rw [h, o.session_react]
  · refine refresh_session.imp (fun _ st' h => hslow ?_) fun _ _ h => h
    rw [h]

/-- Waiting at a line that is complete. -/
theorem ordered_wait (dt : Float) : Leaves Ordered (wait o.hear dt) := by
  intro st
  unfold wait
  simp only [LeavesFrom, ends_bind, ends_session]
  split
  · exact (Session.Timed.refl _).orderly
  all_goals
    -- a timer that has run on has done so in its own mode
    simp only [ends_bind, ends_edit, ends_session, ends_ite, ends_pure]
    split
    · apply (punctual_advance _).imp
      · exact fun _ _ h => h.orderly_of_same rfl rfl
      · exact fun _ _ h => h.orderly_of_same rfl rfl
    · exact (Session.Timed.refl _).orderly_of_same rfl rfl

theorem ordered_update (dt : Float) : Leaves Ordered (update o.hear dt) := by
  intro st
  unfold update
  rw [LeavesFrom, ends_bind, ends_session]
  split
  · next w _ hw =>
    by_cases hc : w.complete
    · rw [if_pos hc]
      exact ordered_wait dt st
    · rw [if_neg hc]
      exact ordered_type hw (by simpa using hc) dt
  · exact (Session.Timed.refl _).orderly

end Time

end Act

/-- Inputs keep order. -/
theorem Input.ordered_perform {σ : Type} {o : Observer σ} (i : Input) :
    Leaves Ordered (i.perform o.hear) := by
  have hR := keptByTravel_punctual o
  cases i with
  | start node context => exact (hR.bind (hR.start node context) fun _ => hR.pure ()).ordered
  | advance => exact punctual_advanceInput.ordered
  | update dt => exact ordered_update dt
  | decide index => exact (hR.bind (punctual_makeDecision index) fun _ => hR.pure ()).ordered
  | toggleAuto => exact punctual_toggleAuto.ordered
  | toggleFastForward => exact punctual_toggleFastForward.ordered
  | pause =>
    intro st
    simp only [LeavesFrom, perform, Act.pause, ends_edit]
    split <;> exact ⟨id, absurd rfl⟩
  | resume =>
    intro st
    simp only [LeavesFrom, perform, Act.resume, ends_edit]
    split <;> exact ⟨id, absurd rfl⟩

namespace Demand

variable {σ : Type} {o : Observer σ}

/-- All that a host can ask of a session keeps order. -/
theorem ordered_perform (d : Demand) : Leaves Ordered (d.perform o.hear) := by
  have hR := keptByTravel_punctual o
  cases d with
  | request r =>
    cases r with
    | input i => exact i.ordered_perform
    | findNode node context =>
      exact (hR.bind (hR.findNode node context) fun _ => hR.pure ()).ordered
  | completeText => exact punctual_completeText.ordered
  | restore stored => exact (hR.restore stored).ordered
  | setVariable name value => exact (hR.setVariable name value).ordered
  | assignSetting name value => exact (hR.assignSetting name value).ordered

theorem ordered_after (d : Demand) (st : Stage σ) : Ordered st (d.after o.hear st) :=
  after_of_ends (d.ordered_perform st)

variable (o) in
/-- Whatever has been demanded of a session that began with no text on screen, its text is complete
when lines are skipped; and after a demand that changes the mode both timers have been set back. -/
theorem whole_texts_while_skipping {st : Stage σ} (hblank : st.session.typewriter = none)
    (ds : List Demand) :
    (afterAll o.hear ds st).session.Swift ∧
      ∀ d : Demand, (afterAll o.hear (ds ++ [d]) st).session.mode ≠
          (afterAll o.hear ds st).session.mode →
        (afterAll o.hear (ds ++ [d]) st).session.Unwound := by
  constructor
  · apply afterAll_keep (P := fun st => st.session.Swift)
    · exact fun d st h => (d.ordered_after st).swift h
    · -- nothing is on screen in the beginning
      intro _ w hw
      rw [hblank] at hw
      cases hw
  · intro d
    rw [afterAll_append]
    exact (d.ordered_after _).unwound

/-- A script with a single line. -/
private def lamps : Stage Unit := .ofScript ["#Node: main", "The lamps go out.", "#EndNode"]

/-- A text is typed, and then skipping begins. -/
private def lamplight : List Demand :=
  [.request (.input (.start "main" "")), .request (.input .toggleFastForward)]

/-- Skipping begins while the first line is typed; it is complete then, and the mode has changed, so
that the timers have been set back. -/
theorem whole_texts_while_skipping_lamplight :
    let st := afterAll Observer.noting.hear lamplight lamps
    st.session.mode = .fastForward ∧
      st.session.typewriter.map Typewriter.complete = some true ∧
      st.session.Swift ∧ st.session.Unwound := by
  intro st
  have hblank : lamps.session.typewriter = none := rfl
  have hswift := (whole_texts_while_skipping .noting hblank lamplight).1
  have hturned := (whole_texts_while_skipping .noting hblank (lamplight.take 1)).2
    (.request (.input .toggleFastForward))
  have hfast : st.session.mode = .fastForward := by decide +kernel
  refine ⟨hfast, by decide +kernel, hswift, hturned ?_⟩
  -- the line is typed at the usual pace before
  have hbefore :
      (afterAll Observer.noting.hear (lamplight.take 1) lamps).session.mode = .normal := by
    decide +kernel
  rw [hbefore]
  exact hfast.trans_ne (by decide)

end Demand

end VisualNovel
