import VisualNovel.Proofs.Life.Step

/-!
# Inputs

Whatever a reader or a host asks of a session is done in two parts: something is done at once, and
then the session may run on until it needs the reader again. An input is therefore a preparation,
perhaps followed by a run.

## Main definitions

* `Input`: what a session can be asked to do;
* `Input.prepare`: what is done at once, and the visits with which the session runs on;
* `Session.Rests` and `Session.Begins`: the sessions to which a preparation may lead.

## Main results

* `Input.perform_eq`: an input is its preparation and the run that may follow;
* `Input.prepare_ends`: preparations lead to no other sessions;
* `Input.perform_ends_of_prepare`: inputs end as their two parts do.
-/

namespace VisualNovel

/-- What a session can be asked to do. -/
inductive Input where
  /-- Starts anew at a node. -/
  | start (node context : String)
  /-- Goes on, or completes the text first. -/
  | advance
  /-- Lets time pass. -/
  | update (dt : Float)
  /-- Chooses an option. -/
  | decide (index : Int)
  | toggleAuto
  | toggleFastForward
  | pause
  | resume

namespace Input

variable {σ : Type} (hear : Listener σ)

/-- Performs an input. -/
def perform : Input → Act σ Unit
  | start node context => do let _ ← Act.start hear node context
  | advance => Act.advanceInput hear
  | update dt => Act.update hear dt
  | decide index => do let _ ← Act.makeDecision hear index
  | toggleAuto => Act.toggleAuto hear
  | toggleFastForward => Act.toggleFastForward hear
  | pause => Act.pause
  | resume => Act.resume

end Input

namespace Act

variable {σ : Type} (hear : Listener σ)

/-- Leaves the line on screen behind; the run that follows begins without visits. -/
def leaveLine : Act σ (Option (List Visit)) := do
  edit fun s => { s with autoTimer := 0, skipTimer := 0 }
  edit fun s =>
    s.withCursor { s.traversal.cursor with line := s.traversal.cursor.line + 1 }
  return some []

/-- Lets time pass for a line that is complete; the line may be left behind. -/
def waitOut (dt : Float) : Act σ (Option (List Visit)) := do
  match (← session).mode with
  | .normal => return none
  | .auto =>
    edit fun s => { s with autoTimer := s.autoTimer + dt }
    let s ← session
    if s.readingTime ≤ s.autoTimer then leaveLine else return none
  | .fastForward =>
    edit fun s => { s with skipTimer := s.skipTimer + dt }
    let s ← session
    if s.settings.fastForwardTime ≤ s.skipTimer then leaveLine else return none

/-- Takes an option of the decision that is waiting. -/
def takeOption (index : Int) : Act σ (Option (List Visit)) := do
  let s ← session
  if s.phase ≠ .choosing then
    remark .warning Session.remarkSource
      s!"make_decision({index}) called with no decision active"
    return none
  match s.openDecision? with
  | none => throw .noElement
  | some d => match at? d.options index with
    | none => throw (.noOption index d.options.length)
    | some o =>
      editTraversal fun t =>
        { t with cursor := { t.cursor with
            choices := t.cursor.choices ++ [index], line := o.start } }
      ask .hideDecisions
      hear (.decisionMade index o.label)
      let s ← session
      if s.mode = .fastForward && !s.settings.skipAfterChoices then setMode hear .normal
      let n ← currentNode
      return some [n.visit (← session).nodes.length .decision d.index]

end Act

namespace Input

variable {σ : Type} (hear : Listener σ)

/-- What is done at once, and the visits with which the session runs on. -/
def prepare : Input → Act σ (Option (List Visit))
  | start node context => do
    Act.edit Session.fresh
    if ← Act.openNode hear node context then return some []
    else
      Act.endSession hear
      return none
  | advance => do
    let s ← Act.session
    match s.phase, s.typewriter with
    | .presenting, some w =>
      if s.mode ≠ .normal then
        Act.setMode hear .normal
        return none
      else if w.complete then Act.leaveLine
      else
        Act.showWhole hear
        return none
    | _, _ => return none
  | update dt => do
    let s ← Act.session
    match s.phase, s.typewriter with
    | .presenting, some w =>
      if w.complete then Act.waitOut dt
      else
        Act.type hear w dt
        return none
    | _, _ => return none
  | decide index => Act.takeOption hear index
  | toggleAuto => do
    Act.toggleAuto hear
    return none
  | toggleFastForward => do
    Act.toggleFastForward hear
    return none
  | pause => do
    Act.pause
    return none
  | resume => do
    Act.resume
    return none

/-- What is done when the session has run on. -/
def conclude : Input → Act σ Unit
  | start node _ => hear (.autoSaveRequested node)
  | _ => pure ()

/-- Runs on after a preparation, if the session does so. -/
def runOn (i : Input) : Option (List Visit) → Act σ Unit
  | some seen => do
    Act.run hear seen
    i.conclude hear
  | none => pure ()

/-- An input is its preparation and the run that may follow. -/
theorem perform_eq (i : Input) : i.perform hear = i.prepare hear >>= i.runOn hear := by
  -- both sides are unfolded up to the run, which stands last in each of them
  cases i with
  | start node context =>
    simp only [perform, prepare, Act.start, Act.findNode, bind_assoc]
    refine bind_congr fun _ => bind_congr fun b => ?_
    cases b <;> simp [runOn, conclude]
  | advance =>
    simp only [perform, prepare, Act.advanceInput, Act.advance, Act.leaveLine, bind_assoc]
    refine bind_congr fun s => ?_
    cases s.phase <;> cases s.typewriter <;> simp only [pure_bind, runOn]
    case presenting.some w =>
      by_cases hmode : s.mode ≠ .normal
      · simp [hmode, runOn]
      · cases hw : w.complete <;> simp [hmode, runOn, conclude]
  | update dt =>
    simp only [perform, prepare, Act.update, bind_assoc]
    refine bind_congr fun s => ?_
    cases s.phase <;> cases s.typewriter <;> simp only [pure_bind, runOn]
    case presenting.some w =>
      cases hw : w.complete
      · simp [runOn]
      · simp only [if_true, Act.wait, Act.waitOut, Act.advance, Act.leaveLine, bind_assoc]
        refine bind_congr fun s => ?_
        cases s.mode
        · simp [runOn]
        · simp only [bind_assoc]
          refine bind_congr fun _ => bind_congr fun s => ?_
          split <;> simp [runOn, conclude]
        · simp only [bind_assoc]
          refine bind_congr fun _ => bind_congr fun s => ?_
          split <;> simp [runOn, conclude]
  | decide index =>
    simp only [perform, prepare, Act.makeDecision, Act.takeOption, bind_assoc]
    refine bind_congr fun s => ?_
    split
    · simp [runOn]
    · cases s.openDecision? with
      | none => rfl
      | some d =>
        cases hat : at? d.options index with
        | none => simp only [hat]; rfl
        | some o =>
          simp only [hat, bind_assoc]
          refine bind_congr fun _ => bind_congr fun _ => bind_congr fun _ => bind_congr fun s => ?_
          split <;> simp [runOn, conclude]
  | toggleAuto => simp [perform, prepare, runOn]
  | toggleFastForward => simp [perform, prepare, runOn]
  | pause => simp [perform, prepare, runOn]
  | resume => simp [perform, prepare, runOn]

end Input

namespace Session

variable (w : Shelf) (s : Session)

/-- The sessions to which an input may lead that is not followed by a run. -/
inductive Rests : Input → Session → Prop where
  /-- At most something on show has changed. -/
  | stay (i : Input) : Rests i s
  /-- A session that waits for the reader is paused. -/
  | pause (h : s.phase = .presenting ∨ s.phase = .choosing) :
      Rests .pause { s with pausedFrom := some s.phase, phase := .paused }
  /-- A paused session goes on. -/
  | resume {phase : Phase} (h : s.phase = .paused) (hfrom : s.pausedFrom = some phase) :
      Rests .resume { s with phase, pausedFrom := none }
  /-- The node at which the session is to start is complete or has no lines. -/
  | ended {node context : String} {vs : Variables}
      (hvs : vs = s.vars ∨ vs = (w.find s.vars node context).vars) :
      Rests (.start node context) (s.fresh.withVars vs).cleared
  /-- The node at which the session is to start cannot be loaded. -/
  | lost (node context : String) :
      Rests (.start node context) (s.fresh.withVars (w.find s.vars node context).vars).halt
  /-- A script cannot be read. -/
  | unreadable (node context : String) :
      Rests (.start node context) (s.fresh.withVars (w.find s.vars node context).vars)

/-- The sessions with which the run that follows an input may begin, and the visits that it
remembers. -/
inductive Begins : Input → List Visit → Session → Prop where
  /-- The session starts at a node. -/
  | start {node context : String} {n : Node} (hnew : ¬s.traversal.completed.contains node)
      (hn : (w.find s.vars node context).result = .ok n) (hlines : n.lines ≠ []) :
      Begins (.start node context) []
        ((s.fresh.withVars (w.find s.vars node context).vars).entered n)
  /-- The line on screen is left behind. -/
  | leaveLine {i : Input} (hi : i = .advance ∨ ∃ dt, i = .update dt)
      (hphase : s.phase = .presenting) : Begins i [] s.atNextLine
  /-- An option is chosen. -/
  | choose {index : Int} {d : Decision} {o : Choice} {n : Node} (hphase : s.phase = .choosing)
      (hn : s.node = some n) (hd : s.openDecision? = some d) (ho : at? d.options index = some o) :
      Begins (.decide index) [n.visit s.nodes.length .decision d.index]
        (s.withCursor (s.traversal.cursor.choosing index o.start))

end Session

namespace Act

variable {σ : Type} {st : Stage σ} (o : Observer σ)

section Specs

variable {Q : Option (List Visit) → Stage σ → Prop} {E : Failure → Stage σ → Prop}

/-- How a line is left behind. -/
theorem leaveLine_ends (h : ∀ st', st.Follows st' st.session.atNextLine → Q (some []) st') :
    Ends leaveLine st Q E := by
  simp only [leaveLine, ends_bind, ends_edit, ends_pure]
  exact h _ ⟨rfl, rfl, _, _, _, _, _, rfl⟩

/-- How time passes for a line that is complete. -/
theorem waitOut_ends {dt : Float} (hstay : ∀ st', st.Follows st' st.session → Q none st')
    (hleave : ∀ st', st.Follows st' st.session.atNextLine → Q (some []) st') :
    Ends (waitOut dt) st Q E := by
  -- the timers are on show
  have hleave' (f : Session → Session) (hf : st.session.Alike (f st.session))
      (st' : Stage σ) (h' : Stage.Follows { st with session := f st.session } st'
        (f st.session).atNextLine) : Q (some []) st' := by
    refine hleave st' ⟨h'.setup, h'.files, ?_⟩
    obtain ⟨_, _, _, _, _, hf⟩ := hf
    rw [hf] at h'
    exact .trans ⟨_, _, _, _, _, rfl⟩ h'.session
  simp only [waitOut, ends_bind, ends_session]
  -- each mode but the normal one has a timer, which may have run out
  cases st.session.mode with
  | normal => exact hstay st (.refl st)
  | auto =>
    simp only [ends_bind, ends_edit, ends_session, ends_ite, ends_pure]
    split
    · exact leaveLine_ends fun st' h' =>
        hleave' (fun s => { s with autoTimer := s.autoTimer + dt }) ⟨_, _, _, _, _, rfl⟩ st' h'
    · exact hstay _ ⟨rfl, rfl, _, _, _, _, _, rfl⟩
  | fastForward =>
    simp only [ends_bind, ends_edit, ends_session, ends_ite, ends_pure]
    split
    · exact leaveLine_ends fun st' h' =>
        hleave' (fun s => { s with skipTimer := s.skipTimer + dt }) ⟨_, _, _, _, _, rfl⟩ st' h'
    · exact hstay _ ⟨rfl, rfl, _, _, _, _, _, rfl⟩

/-- How a text is typed. -/
theorem type_ends {w : Typewriter} {dt : Float} {Q : Unit → Stage σ → Prop}
    (h : ∀ st', st.Follows st' st.session → Q () st') : Ends (type o.hear w dt) st Q E := by
  simp only [type, tellCompletion, ends_bind, ends_edit, ends_ite, ends_hear]
  split
  · refine refresh_ends fun st' h' => h st' ⟨by simpa using h'.setup, by simpa using h'.files, ?_⟩
    exact .trans ⟨_, _, _, _, _, rfl⟩ (by simpa using h'.session)
  · exact refresh_ends fun st' h' =>
      h st' ⟨h'.setup, h'.files, .trans ⟨_, _, _, _, _, rfl⟩ h'.session⟩

/-- How an option is taken. -/
theorem takeOption_ends {index : Int} (hstay : ∀ st', st.Follows st' st.session → Q none st')
    (hchoose : ∀ seen s' st', st.session.Begins st.shelf (.decide index) seen s' →
      st.Follows st' s' → Q (some seen) st')
    (hfail : ∀ f st', st.Follows st' st.session → E f st') :
    Ends (takeOption o.hear index) st Q E := by
  simp only [takeOption, ends_bind, ends_session, ends_ite, ends_remark, ends_pure]
  split
  · exact hstay _ ⟨rfl, rfl, .refl _⟩
  next hphase =>
  have hphase : st.session.phase = .choosing := not_ne_iff.mp hphase
  cases hd : st.session.openDecision? with
  | none => exact hfail _ st (.refl st)
  | some d =>
    cases ho : at? d.options index with
    | none => simpa [ho] using hfail _ st (.refl st)
    | some c =>
      -- there is no decision without a node
      obtain ⟨n, hn⟩ : ∃ n, st.session.node = some n := by
        unfold Session.openDecision? at hd
        cases hn : st.session.node with
        | none => simp [hn] at hd
        | some n => exact ⟨n, rfl⟩
      -- the visit that is remembered is that of the decision in the node on top
      have hrest (st' : Stage σ) (h' : st.Follows st'
          (st.session.withCursor (st.session.traversal.cursor.choosing index c.start))) :
          Ends currentNode st' (fun n st'' =>
            Q (some [n.visit st''.session.nodes.length .decision d.index]) st'') E := by
        obtain ⟨_, _, _, _, _, hs⟩ := h'.session
        have hn' : st'.session.node = some n := by rw [hs]; exact hn
        have hlength : st'.session.nodes.length = st.session.nodes.length := by rw [hs]; rfl
        simp only [currentNode, ends_bind, ends_session, hn', ends_pure, hlength]
        exact hchoose _ _ st' (.choose hphase hn hd ho) h'
      simp only [ho, ends_bind, ends_editTraversal, ends_ask, ends_hear, ends_session, ends_ite,
        ends_pure]
      -- choosing ends fast forward, which is on show only
      split
      · refine setMode_ends o fun st' h' => hrest st' ⟨by simpa using h'.setup, by
          simpa using h'.files, ?_⟩
        simpa [Session.withCursor, Cursor.choosing] using h'.session
      · exact hrest _ ⟨by simp, by simp, by simpa using .refl _⟩

end Specs

end Act

namespace Input

variable {σ : Type} {st : Stage σ} (o : Observer σ)

open Act

variable (st) in
/-- What a preparation leads to: a session that rests, or one with which a run begins. It may also
fail with a session that rests. -/
theorem prepare_ends (i : Input) :
    Ends (i.prepare o.hear) st
      (fun r st' => match r with
        | none => ∃ s', st.session.Rests st.shelf i s' ∧ st.Follows st' s'
        | some seen => ∃ s', st.session.Begins st.shelf i seen s' ∧ st.Follows st' s')
      (fun _ st' => ∃ s', st.session.Rests st.shelf i s' ∧ st.Follows st' s') := by
  -- most inputs leave the session at rest, and two ways lead on from a line
  have hstay {i : Input} {st' : Stage σ} (h' : st.Follows st' st.session) :
      ∃ s', st.session.Rests st.shelf i s' ∧ st.Follows st' s' := ⟨_, .stay i, h'⟩
  have hleave {i : Input} (hi : i = .advance ∨ ∃ dt, i = .update dt)
      (hphase : st.session.phase = .presenting) {st' : Stage σ}
      (h' : st.Follows st' st.session.atNextLine) :
      ∃ s', st.session.Begins st.shelf i [] s' ∧ st.Follows st' s' := ⟨_, .leaveLine hi hphase, h'⟩
  cases i with
  | start node context =>
    simp only [prepare, ends_bind, ends_edit]
    -- the session is over before it has come to a node
    have hover {st₁ : Stage σ} {vs : Variables}
        (hvs : vs = st.session.vars ∨ vs = (st.shelf.find st.session.vars node context).vars)
        (h₁ : st.Follows st₁ (st.session.fresh.withVars vs)) :
        Ends (endSession o.hear) st₁ (fun _ st' => ∃ s', st.session.Rests st.shelf
          (.start node context) s' ∧ st.Follows st' s') (fun _ st' => ∃ s', st.session.Rests
          st.shelf (.start node context) s' ∧ st.Follows st' s') := by
      refine endSession_ends o fun st₂ h₂ => ⟨_, .ended hvs, h₁.trans h₂ ?_⟩
      obtain ⟨_, _, _, _, _, hs⟩ := h₁.session
      rw [hs]
      exact ⟨_, _, _, _, _, rfl⟩
    -- the node is complete, without lines, entered, lost or in a script that cannot be read
    refine openNode_ends o ?_ ?_ ?_ ?_ ?_
    · intro _
      simp only [Bool.false_eq_true, if_false, ends_bind, ends_pure]
      exact hover (.inl rfl) ⟨rfl, rfl, .refl _⟩
    · intro n st₁ _ hn _ h₁
      simp only [Bool.false_eq_true, if_false, ends_bind, ends_pure]
      exact hover (.inr rfl) ⟨h₁.setup, h₁.files, h₁.session⟩
    · intro n st₁ hnew hn hlines h₁
      simp only [if_true, ends_pure]
      exact ⟨_, .start hnew hn hlines, h₁.setup, h₁.files, h₁.session⟩
    · intro f st₁ _ hf _ h₁
      exact ⟨_, .lost node context, h₁.setup, h₁.files, h₁.session⟩
    · intro f st₁ _ hf _ h₁
      exact ⟨_, .unreadable node context, h₁.setup, h₁.files, h₁.session⟩
  | advance =>
    simp only [prepare, ends_bind, ends_session]
    split
    · next w hphase hw =>
      simp only [ends_ite, ends_bind, ends_pure]
      -- the input ends another mode, completes the text that is typed, or leaves the line
      split
      · exact setMode_ends o fun st' h' => hstay h'
      · split
        · exact leaveLine_ends fun st' h' => hleave (.inl rfl) hphase h'
        · exact showWhole_ends o fun st' h' => hstay h'
    · exact hstay (.refl st)
  | update dt =>
    simp only [prepare, ends_bind, ends_session]
    split
    · next w hphase hw =>
      simp only [ends_ite, ends_bind, ends_pure]
      split
      · exact waitOut_ends (fun st' h' => hstay h')
          fun st' h' => hleave (.inr ⟨dt, rfl⟩) hphase h'
      · exact type_ends o fun st' h' => hstay h'
    · exact hstay (.refl st)
  | decide index =>
    exact takeOption_ends o (fun st' h' => hstay h') (fun seen s' st' hs' h' => ⟨s', hs', h'⟩)
      fun _ st' h' => hstay h'
  | toggleAuto =>
    simp only [prepare, Act.toggleAuto, ends_bind, ends_session, ends_pure]
    exact setMode_ends o fun st' h' => hstay h'
  | toggleFastForward =>
    simp only [prepare, Act.toggleFastForward, ends_bind, ends_session, ends_ite, ends_pure]
    split
    · exact setMode_ends o fun st' h' => hstay h'
    · refine setMode_ends o fun st₁ h₁ => showWhole_ends o fun st₂ h₂ => hstay ?_
      exact h₁.trans h₂ h₁.session
  | pause =>
    simp only [prepare, Act.pause, ends_bind, ends_edit, ends_pure]
    split
    · next h => exact ⟨_, .pause (by simpa using h), rfl, rfl, .refl _⟩
    · exact hstay (.refl st)
  | resume =>
    simp only [prepare, Act.resume, ends_bind, ends_edit, ends_pure]
    split
    · next hphase hfrom => exact ⟨_, .resume hphase hfrom, rfl, rfl, .refl _⟩
    · exact hstay (.refl st)

/-- An input ends as its preparation does, or as the run that follows. -/
theorem perform_ends_of_prepare {i : Input} {Q : Stage σ → Prop} {E : Failure → Stage σ → Prop}
    (hreact : ∀ e st', Q st' → Q (o.react e st'))
    (h : Ends (i.prepare o.hear) st
      (fun r st' => match r with
        | none => Q st'
        | some seen => Ends (run o.hear seen) st' (fun _ => Q) E) E) :
    Ends (i.perform o.hear) st (fun _ => Q) E := by
  rw [perform_eq, ends_bind]
  refine h.imp (fun r st' hr => ?_) fun _ _ hf => hf
  -- a start is announced behind its run, the other inputs end with it
  cases r with
  | none => exact hr
  | some seen =>
    simp only [runOn, ends_bind]
    refine hr.imp (fun _ st'' hQ => ?_) fun _ _ hf => hf
    cases i with
    | start node context => exact hreact _ _ hQ
    | _ => exact hQ

end Input

end VisualNovel
