import Mathlib.Data.List.Induction
import VisualNovel.Proofs.Life.Demands
import VisualNovel.Proofs.Life.Reached

/-!
# Sessions that are idle or paused

A session that is idle or paused does not react to its reader. The reader may still change how lines
advance, and a text on screen is completed when skipping begins; nothing else happens, however often
and in whatever order the reader tries. A paused session goes on with what it was waiting for when
it was paused.

## Main definitions

* `Input.isMuted`: the inputs that come to nothing while a session is idle or paused;
* `Session.Untouched`, `Stage.Unmoved`: nothing has happened to a session but for what is on show;
* `Session.PausedBefore`: a session that is paused has been so before;
* `Demand.PausedIn`: the demands that have paused a session, and the phase in which they did so.

## Main results

* `Input.performAll_muted_ends`: muted inputs come to nothing;
* `Demand.pausedBefore_perform`: only the demand to pause pauses a session;
* `Demand.pausedIn_afterAll`: a paused session has been paused by a demand, and remembers in which
  phase;
* `Demand.inert_while_inactive`: idle and paused sessions are inert, and paused ones can be resumed.
-/

namespace VisualNovel

open Act

/-- The inputs that come to nothing while a session is idle or paused. -/
def Input.isMuted : Input → Bool
  | start _ _ | resume => false
  | _ => true

/-- A text on screen is shown, or it is told how lines advance or that a text is complete. -/
def Notice.isOfShow : Notice → Bool
  | call (.updateText _) | event (.playbackChanged _) | event .textCompleted => true
  | _ => false

namespace Session

/-- A session waits for nothing, or to be resumed. -/
def Inactive (s : Session) : Prop := s.phase = .idle ∨ s.phase = .paused

/-- Nothing has happened to a session but for what is on show. -/
structure Untouched (s s' : Session) : Prop where
  phase : s'.phase = s.phase
  pausedFrom : s'.pausedFrom = s.pausedFrom
  traversal : s'.traversal = s.traversal
  nodes : s'.nodes = s.nodes
  line : s'.lineOnScreen = s.lineOnScreen
  labels : s'.labels = s.labels

variable {s s' s'' : Session}

theorem Alike.untouched (h : s.Alike s') : s.Untouched s' := by
  obtain ⟨_, _, _, _, _, rfl⟩ := h
  exact ⟨rfl, rfl, rfl, rfl, rfl, rfl⟩

/-- A session that is paused has been so before, and it goes on with the same phase. -/
def PausedBefore (s s' : Session) : Prop :=
  s'.phase = .paused → s.phase = .paused ∧ s'.pausedFrom = s.pausedFrom

namespace PausedBefore

theorem refl (s : Session) : s.PausedBefore s := fun h => ⟨h, rfl⟩

theorem trans (h : s.PausedBefore s') (h' : s'.PausedBefore s'') : s.PausedBefore s'' := by
  intro hpaused
  obtain ⟨hpaused', hfrom'⟩ := h' hpaused
  obtain ⟨hbefore, hfrom⟩ := h hpaused'
  exact ⟨hbefore, hfrom'.trans hfrom⟩

theorem of_ne (h : s'.phase ≠ .paused) : s.PausedBefore s' := fun hpaused => absurd hpaused h

theorem of_same (hphase : s'.phase = s.phase) (hfrom : s'.pausedFrom = s.pausedFrom) :
    s.PausedBefore s' := fun hpaused => ⟨hphase.symm.trans hpaused, hfrom⟩

/-- What is on show does not matter for it. -/
theorem of_alike (h : s.PausedBefore s') (hs : s'.Alike s'') : s.PausedBefore s'' :=
  h.trans (.of_same hs.untouched.phase hs.untouched.pausedFrom)

end PausedBefore

end Session

/-! ### Inputs that come to nothing -/

namespace Stage

variable {σ : Type}

/-- Nothing has happened on a stage but for what is on show. -/
structure Unmoved (st st' : Stage σ) : Prop where
  session : st.session.Alike st'.session
  told : ∃ news, st'.notices = st.notices ++ news ∧ ∀ x ∈ news, x.isOfShow

namespace Unmoved

variable {st st₁ st₂ : Stage σ}

theorem refl (st : Stage σ) : st.Unmoved st := ⟨.refl _, [], by simp, by simp⟩

theorem trans (h : st.Unmoved st₁) (h' : st₁.Unmoved st₂) : st.Unmoved st₂ := by
  obtain ⟨hs, news, hnotices, hnews⟩ := h
  obtain ⟨hs', later, hnotices', hlater⟩ := h'
  refine ⟨hs.trans hs', news ++ later, by rw [hnotices', hnotices, List.append_assoc], ?_⟩
  intro x hx
  rcases List.mem_append.mp hx with hx | hx
  · exact hnews x hx
  · exact hlater x hx

end Unmoved

end Stage

namespace Act

variable {σ : Type} {st : Stage σ} {E : Failure → Stage σ → Prop}

theorem refresh_unmoved : Ends refresh st (fun _ => st.Unmoved) E := by
  unfold refresh
  simp only [ends_bind, ends_session]
  split
  · next w _ =>
    rw [ends_ask]
    refine ⟨by rw [st.session_asked]; exact .refl _, ?_⟩
    unfold Stage.asked
    split
    · exact ⟨[.call (.updateText w.visibleText)], rfl, by simp [Notice.isOfShow]⟩
    · exact ⟨[], by simp, by simp⟩
  · exact .refl st

theorem completeText_unmoved :
    Ends (completeText Observer.noting.hear) st (fun _ => st.Unmoved) E := by
  unfold completeText
  simp only [ends_bind, ends_session]
  split
  · exact .refl st
  · rw [ends_ite]
    split
    · simp only [tellCompletion, ends_bind, ends_edit, ends_hear]
      exact ⟨⟨_, _, _, _, _, rfl⟩, [.event .textCompleted], rfl, by simp [Notice.isOfShow]⟩
    · exact .refl st

theorem showWhole_unmoved : Ends (showWhole Observer.noting.hear) st (fun _ => st.Unmoved) E := by
  unfold showWhole
  simp only [ends_bind, ends_session]
  split
  · exact .refl st
  · rw [ends_ite]
    split
    · rw [ends_bind]
      refine completeText_unmoved.imp (fun _ st₁ h₁ => ?_) fun _ _ h => h
      exact refresh_unmoved.imp (fun _ _ h₂ => h₁.trans h₂) fun _ _ h => h
    · exact .refl st

theorem setMode_unmoved (mode : PlaybackMode) :
    Ends (setMode Observer.noting.hear mode) st (fun _ => st.Unmoved) E := by
  unfold setMode
  simp only [ends_bind, ends_edit, ends_session, ends_ite, ends_hear, ends_pure]
  split
  · exact ⟨⟨_, _, _, _, _, rfl⟩, [.event (.playbackChanged mode)], rfl, by simp [Notice.isOfShow]⟩
  · exact ⟨⟨_, _, _, _, _, rfl⟩, [], by simp, by simp⟩

end Act

namespace Input

variable {σ : Type} {st : Stage σ} {E : Failure → Stage σ → Prop}

/-- A muted input comes to nothing in a session that is idle or paused. -/
theorem perform_muted_ends {i : Input} (hi : i.isMuted) (h : st.session.Inactive) :
    Ends (i.perform Observer.noting.hear) st (fun _ => st.Unmoved) E := by
  have hpresenting : st.session.phase ≠ .presenting := by rcases h with h | h <;> simp [h]
  have hchoosing : st.session.phase ≠ .choosing := by rcases h with h | h <;> simp [h]
  cases i with
  | start node context => cases hi
  | resume => cases hi
  | advance =>
    simp only [perform, advanceInput, ends_bind, ends_session]
    split
    · next hphase _ => exact absurd hphase hpresenting
    · exact .refl st
  | update dt =>
    simp only [perform, Act.update, ends_bind, ends_session]
    split
    · next hphase _ => exact absurd hphase hpresenting
    · exact .refl st
  | decide index =>
    simp only [perform, makeDecision, ends_bind, ends_session, ends_ite, ends_remark, ends_pure]
    rw [if_pos hchoosing]
    exact ⟨.refl _, [], by simp, by simp⟩
  | toggleAuto =>
    simp only [perform, Act.toggleAuto, ends_bind, ends_session]
    exact setMode_unmoved _
  | toggleFastForward =>
    simp only [perform, Act.toggleFastForward, ends_bind, ends_session, ends_ite]
    split
    · exact setMode_unmoved _
    · -- the text on screen is completed when skipping begins, even under a menu
      refine (setMode_unmoved _).imp (fun _ st₁ h₁ => ?_) fun _ _ h => h
      exact showWhole_unmoved.imp (fun _ _ h₂ => h₁.trans h₂) fun _ _ h => h
  | pause =>
    simp only [perform, Act.pause, ends_edit]
    rw [if_neg (by simp [hpresenting, hchoosing])]
    exact .refl st

/-- So do any number of them. -/
theorem performAll_muted_ends {is : List Input} (his : ∀ i ∈ is, i.isMuted)
    (h : st.session.Inactive) :
    Ends (performAll Observer.noting.hear is) st (fun _ => st.Unmoved) E := by
  -- on the inputs, each of which leaves the session idle or paused
  induction is generalizing st with
  | nil => exact .refl st
  | cons i is ih =>
    rw [performAll, ends_bind]
    refine (perform_muted_ends (his i List.mem_cons_self) h).imp (fun _ st₁ h₁ => ?_) fun _ _ h => h
    have hinactive : st₁.session.Inactive := by
      rw [Session.Inactive, h₁.session.untouched.phase]
      exact h
    refine (ih (fun j hj => his j (List.mem_cons_of_mem i hj)) hinactive).imp ?_ fun _ _ h => h
    exact fun _ _ h₂ => h₁.trans h₂

end Input

/-! ### How a session comes to be paused -/

namespace Session

variable {w : Shelf} {s s' : Session}

/-- An input that is not followed by a run pauses no session, unless it is the one to pause. -/
theorem Rests.pausedBefore {i : Input} (h : s.Rests w i s') (hpause : i ≠ .pause)
    (hresume : i ≠ .resume) : s.PausedBefore s' := by
  cases h with
  | stay i => exact .refl s
  | pause _ => exact absurd rfl hpause
  | resume _ _ => exact absurd rfl hresume
  | ended _ => exact .of_ne (by simp [cleared])
  | lost _ _ => exact .of_ne (by simp [halt, cleared])
  | unreadable _ _ => exact .of_ne (by simp [withVars, fresh, replaceNodes, cleared])

/-- A session with which a run begins is not paused. -/
theorem Begins.pausedBefore {i : Input} {seen : List Visit} (h : s.Begins w i seen s') :
    s.PausedBefore s' := by
  cases h with
  | @start _ _ n _ _ _ =>
    apply PausedBefore.of_ne
    unfold entered
    split <;> simp [modifyNode, withVars, fresh, replaceNodes, cleared]
  | leaveLine _ hphase => exact .of_ne (by simp [atNextLine, withCursor, hphase])
  | choose hphase _ _ _ => exact .of_ne (by simp [withCursor, hphase])

end Session

namespace Act

variable {σ : Type} {o : Observer σ}

/-- What a session does on its own does not pause it. -/
theorem keptByTravel_pausedBefore :
    KeptByTravel o fun st st' : Stage σ => st.session.PausedBefore st'.session where
  toBlindToStory := .of_session o .refl .trans fun h => .of_same h.phase h.pausedFrom
  ends st := endSession_ends o fun _ h =>
    .of_alike (.of_ne (by simp [Session.cleared])) h.session
  abandons name f st := abandonNode_ends o fun _ h =>
    .of_alike (.of_ne (by simp [Session.halt, Session.cleared])) h.session
  awaits st d _ := by
    simp only [LeavesFrom, awaitChoice, ends_bind, ends_edit, ends_ask, ends_hear, o.session_react,
      Stage.session_asked]
    exact .of_ne (by simp)
  presents st n line _ := by
    have hpresented {st' : Stage σ} (h : st.Follows st' (st.session.presented line)) :
        st.session.PausedBefore st'.session :=
      .of_alike (.of_ne (by simp [Session.presented])) h.session
    exact present_ends o (fun _ _ _ h => hpresented h) fun _ _ _ h => hpresented h
  freshens _ := .of_ne (by simp [Session.fresh, Session.replaceNodes, Session.cleared])
  resumes _ _ _ := .of_ne (by simp [Session.resumed, Session.replaceNodes, Session.cleared])

end Act

/-- Only the input to pause pauses a session. -/
theorem Input.pausedBefore_perform {σ : Type} {o : Observer σ} {i : Input} (hpause : i ≠ .pause)
    (hresume : i ≠ .resume) :
    Leaves (fun st st' : Stage σ => st.session.PausedBefore st'.session) (i.perform o.hear) := by
  intro st
  have hR := keptByTravel_pausedBefore (o := o)
  have hrests {s' : Session} {st' : Stage σ} (hs : st.session.Rests st.shelf i s')
      (h : st.Follows st' s') : st.session.PausedBefore st'.session :=
    (hs.pausedBefore hpause hresume).of_alike h.session
  rw [i.perform_eq, LeavesFrom, ends_bind]
  refine (prepare_ends st o i).imp ?_ ?_
  · rintro (_ | seen) st₁ ⟨s', hs, h⟩
    · exact hrests hs h
    · -- the run that follows does not pause the session either
      have hbegins := hs.pausedBefore.of_alike h.session
      have hconclude : Leaves (fun st st' : Stage σ => st.session.PausedBefore st'.session)
          (i.conclude o.hear) := by
        unfold Input.conclude
        split
        · exact hR.hear _
        · exact hR.pure ()
      apply (hR.bind (hR.run seen) fun _ => hconclude) st₁ |>.imp
      · exact fun _ _ h' => hbegins.trans h'
      · exact fun _ _ h' => hbegins.trans h'
  · rintro f st₁ ⟨s', hs, h⟩
    exact hrests hs h

namespace Demand

variable {σ : Type} {o : Observer σ} {st : Stage σ}

/-- The demand to pause. -/
def pause : Demand := .request (.input .pause)

/-- The demand to go on with a paused session. -/
def resume : Demand := .request (.input .resume)

/-- Only the demand to pause pauses a session. -/
theorem pausedBefore_perform {d : Demand} (hpause : d ≠ pause) (hresume : d ≠ resume) :
    Leaves (fun st st' : Stage σ => st.session.PausedBefore st'.session) (d.perform o.hear) := by
  have hR := keptByTravel_pausedBefore (o := o)
  cases d with
  | request r =>
    cases r with
    | input i =>
      apply Input.pausedBefore_perform
      · rintro rfl
        exact hpause rfl
      · rintro rfl
        exact hresume rfl
    | findNode node context => exact hR.bind (hR.findNode node context) fun _ => hR.pure ()
  | completeText =>
    exact fun st => completeText_ends o fun _ h => .of_alike (.refl _) h.session
  | restore stored => exact hR.restore stored
  | setVariable name value => exact hR.setVariable name value
  | assignSetting name value => exact hR.assignSetting name value

/-- One of several demands has paused a session that was in a phase, and the session has been paused
ever since. -/
def PausedIn (o : Observer σ) (st : Stage σ) (ds : List Demand) (phase : Phase) : Prop :=
  ∃ front back, ds = front ++ pause :: back ∧
    (afterAll o.hear front st).session.phase = phase ∧ (phase = .presenting ∨ phase = .choosing) ∧
    ∀ middle, middle <+: back →
      (afterAll o.hear (front ++ pause :: middle) st).session.phase = .paused

/-- What has paused a session has done so as long as it stays paused. -/
theorem PausedIn.concat {ds : List Demand} {phase : Phase} (h : PausedIn o st ds phase) {d : Demand}
    (hpaused : (afterAll o.hear (ds ++ [d]) st).session.phase = .paused) :
    PausedIn o st (ds ++ [d]) phase := by
  obtain ⟨front, back, rfl, hfront, hphase, hsince⟩ := h
  refine ⟨front, back ++ [d], by simp, hfront, hphase, fun middle hmiddle => ?_⟩
  rcases List.prefix_concat_iff.mp hmiddle with rfl | hmiddle
  · simpa using hpaused
  · exact hsince middle hmiddle

/-- It was waiting for its reader then. -/
theorem PausedIn.waits {ds : List Demand} {phase : Phase} (h : PausedIn o st ds phase) :
    phase = .presenting ∨ phase = .choosing := by
  obtain ⟨-, -, -, -, hphase, -⟩ := h
  exact hphase

/-- A session that waits for its reader remembers this when it is paused. -/
theorem after_pause (h : st.session.phase = .presenting ∨ st.session.phase = .choosing) :
    pause.after o.hear st = { st with session := { st.session with
      pausedFrom := some st.session.phase, phase := .paused } } := by
  have hwaits : (st.session.phase = .presenting || st.session.phase = .choosing) := by simpa using h
  show ({ st with session := if _ then _ else _ } : Stage σ) = _
  rw [if_pos hwaits]

/-- Any other session is not paused. -/
theorem after_pause_of_not (h : ¬(st.session.phase = .presenting ∨ st.session.phase = .choosing)) :
    pause.after o.hear st = st := by
  have hwaits : ¬(st.session.phase = .presenting || st.session.phase = .choosing) := by
    simpa using h
  show ({ st with session := if _ then _ else _ } : Stage σ) = _
  rw [if_neg hwaits]

/-- A paused session goes on with the phase that it remembers. -/
theorem after_resume {phase : Phase} (hpaused : st.session.phase = .paused)
    (hfrom : st.session.pausedFrom = some phase) :
    resume.after o.hear st =
      { st with session := { st.session with phase, pausedFrom := none } } := by
  show ({ st with session := _ } : Stage σ) = _
  dsimp only
  rw [hpaused, hfrom]

/-- Any other session has nothing to go on with. -/
theorem after_resume_of_not (h : st.session.phase ≠ .paused) : resume.after o.hear st = st := by
  show ({ st with session := _ } : Stage σ) = _
  dsimp only
  split
  · next hpaused _ => exact absurd hpaused h
  · rfl

/-- A paused session has been paused by a demand, and it remembers in which phase this was. -/
theorem pausedIn_afterAll (hidle : st.session.phase = .idle) (ds : List Demand)
    (hpaused : (afterAll o.hear ds st).session.phase = .paused) :
    ∃ phase, PausedIn o st ds phase ∧
      (afterAll o.hear ds st).session.pausedFrom = some phase := by
  -- on the demands, the last of which has paused the session or has left it paused
  induction ds using List.reverseRecOn with
  | nil =>
    have hidle : (afterAll o.hear [] st).session.phase = .idle := hidle
    rw [hidle] at hpaused
    cases hpaused
  | append_singleton ds d ih =>
    generalize hst₁ : afterAll o.hear ds st = st₁ at ih
    have hafter : afterAll o.hear (ds ++ [d]) st = d.after o.hear st₁ := by
      rw [afterAll_append, hst₁]
      rfl
    -- a session that was paused before is so for the same reason
    have hsince (hbefore : st₁.session.phase = .paused)
        (hfrom : (d.after o.hear st₁).session.pausedFrom = st₁.session.pausedFrom) :
        ∃ phase, PausedIn o st (ds ++ [d]) phase ∧
          (afterAll o.hear (ds ++ [d]) st).session.pausedFrom = some phase := by
      obtain ⟨phase, hin, hphase⟩ := ih hbefore
      refine ⟨phase, hin.concat hpaused, ?_⟩
      rw [hafter, hfrom, hphase]
    rw [hafter] at hpaused
    by_cases hpause : d = pause
    · subst hpause
      by_cases hwaits : st₁.session.phase = .presenting ∨ st₁.session.phase = .choosing
      · -- here it has been paused
        have hnow := after_pause (o := o) hwaits
        refine ⟨st₁.session.phase, ⟨ds, [], rfl, by rw [hst₁], hwaits, ?_⟩, by rw [hafter, hnow]⟩
        intro middle hmiddle
        obtain rfl := List.prefix_nil.mp hmiddle
        rw [hafter]
        exact hpaused
      · rw [after_pause_of_not hwaits] at hpaused
        exact hsince hpaused (by rw [after_pause_of_not hwaits])
    by_cases hresume : d = resume
    · subst hresume
      -- a session that goes on waits for its reader, so it is not paused
      exfalso
      by_cases hbefore : st₁.session.phase = .paused
      · obtain ⟨phase, hin, hfrom⟩ := ih hbefore
        rw [after_resume hbefore hfrom] at hpaused
        rcases hin.waits with rfl | rfl <;> cases hpaused
      · rw [after_resume_of_not hbefore] at hpaused
        exact hbefore hpaused
    · have hkept : st₁.session.PausedBefore (d.after o.hear st₁).session :=
        after_of_ends (P := fun st' => st₁.session.PausedBefore st'.session)
          (pausedBefore_perform hpause hresume st₁)
      obtain ⟨hbefore, hfrom⟩ := hkept hpaused
      exact hsince hbefore hfrom

/-- Whatever has been demanded, a session that is idle or paused then is inert: however often and in
whatever order its reader lets time pass, goes on, chooses, pauses and changes how lines advance,
the session stays as it is but for what is on show. A paused session goes on with the phase in which
it has been paused. -/
theorem inert_while_inactive {st st₁ : Stage σ} (hidle : st.session.phase = .idle)
    {ds : List Demand} (hst₁ : afterAll Observer.noting.hear ds st = st₁)
    (hinactive : st₁.session.Inactive) {is : List Input} (his : ∀ i ∈ is, i.isMuted) :
    ∃ st₂ news, Input.performAll Observer.noting.hear is st₁ = .ok () st₂ ∧
      st₁.session.Untouched st₂.session ∧
      st₂.notices = st₁.notices ++ news ∧ (∀ x ∈ news, x.isOfShow) ∧
      (st₁.session.phase = .paused → ∃ phase, PausedIn .noting st ds phase ∧
        (resume.after Observer.noting.hear st₂).session =
          { st₂.session with phase, pausedFrom := none }) := by
  obtain ⟨⟨⟩, st₂, hperform, hsession, news, hnotices, hnews⟩ :=
    (Input.performAll_muted_ends his hinactive).exists_ok
  refine ⟨st₂, news, hperform, hsession.untouched, hnotices, hnews, fun hpaused => ?_⟩
  subst hst₁
  obtain ⟨phase, hin, hfrom⟩ := pausedIn_afterAll hidle ds hpaused
  refine ⟨phase, hin, ?_⟩
  -- what the reader has tried meanwhile has not touched what is remembered
  rw [after_resume (hsession.untouched.phase.trans hpaused)
    (hsession.untouched.pausedFrom.trans hfrom)]

/-- A script that asks at once. -/
private def crossing : Stage Unit := .ofScript
  ["#Node: main", "#StartDecision", "-Left", "Left.", "-Right", "Right.", "#EndDecision",
    "#EndNode"]

/-- What a reader may try under a menu. -/
private def fidgeting : List Input :=
  [.decide 0, .toggleFastForward, .update 1, .advance, .pause, .toggleAuto, .decide (-1)]

/-- The reader is asked, the session is paused, and nothing comes of what the reader tries; then the
reader is asked as before. -/
theorem inert_while_inactive_crossing :
    let st₁ := afterAll Observer.noting.hear [.request (.input (.start "main" "")), pause] crossing
    st₁.session.phase = .paused ∧ st₁.session.labels = ["Left", "Right"] ∧
      ∃ st₂, Input.performAll Observer.noting.hear fidgeting st₁ = .ok () st₂ ∧
        st₁.session.Untouched st₂.session ∧
        (resume.after Observer.noting.hear st₂).session.phase = .choosing := by
  intro st₁
  have hidle : crossing.session.phase = .idle := rfl
  have hst₁ : afterAll Observer.noting.hear [_, pause] crossing = st₁ := rfl
  have hpaused : st₁.session.phase = .paused := by decide +kernel
  have hmuted : ∀ i ∈ fidgeting, i.isMuted := by decide
  obtain ⟨st₂, -, hperform, hsame, -, -, hresume⟩ :=
    inert_while_inactive hidle hst₁ (.inr hpaused) hmuted
  obtain ⟨phase, ⟨front, back, hds, hfront, -⟩, hlater⟩ := hresume hpaused
  refine ⟨hpaused, by decide +kernel, st₂, hperform, hsame, ?_⟩
  -- the start has not paused the session
  obtain rfl : front = [.request (.input (.start "main" ""))] := by
    rcases front with _ | ⟨d, _ | ⟨e, front⟩⟩
    · cases hds
    · rw [(List.cons.inj hds).1]
    · simp at hds
  rw [hlater]
  show phase = .choosing
  rw [← hfront]
  decide +kernel

end Demand

end VisualNovel
