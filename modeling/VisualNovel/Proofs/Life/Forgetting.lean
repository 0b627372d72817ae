import VisualNovel.Proofs.Life.Play
import VisualNovel.Proofs.Life.Twins

/-!
# Restoring forgets what has been before

Two sessions with the same settings and the same mode are restored from the same text, in the same
surroundings and over the same files, after whatever has happened to each of them. Either both fail
in the same way, or both look the same from then on, whatever is asked of them. The listener may do
what it likes with the events, as long as it does not tell sessions apart that are the same but for
what happened before.

## Main definitions

* `Listener.Impartial`: a listener that does not tell twins apart;
* `Demand`: all that a host can ask of a session;
* `View`, `Session.view`: what there is to see of a session;
* `Outcome`, `Demand.outcomes`: what comes of demands;
* `Past.strangers`: the correspondence of stages whose sessions share settings and mode only.

## Main results

* `Demand.lockstep_perform`: all that a host can ask of twins is in lockstep;
* `Demand.outcomes_eq`: the outcomes are the same on stages whose sessions are twins;
* `Act.restore_strangers`: strangers that have been restored are twins;
* `Act.restore_forgets`: sessions that have been restored from the same text are the same.
-/

namespace VisualNovel

open Act

/-- A listener does not tell twins apart, nor parts of hosts that correspond. -/
def Listener.Impartial {σ : Type} (hear : Listener σ) (host : σ → σ → Prop) : Prop :=
  ∀ (p q : Past) e, Lockstep (p.twins q host) Eq (hear e) (hear e)

/-- The listener that notes every event is impartial. -/
theorem Act.impartial_noting {σ : Type} (host : σ → σ → Prop) : Listener.Impartial noting host :=
  fun _ _ e => .notice (.event e)

/-- All that a host can ask of a session. -/
inductive Demand where
  /-- A request is made. -/
  | request (r : Request)
  /-- The text on screen is completed. -/
  | completeText
  /-- A stored session is restored. -/
  | restore (stored : String)
  /-- A variable is set. -/
  | setVariable (name : String) (value : Json)
  /-- A setting is changed. -/
  | assignSetting (name : String) (value : Json)

/-- Does what is demanded. -/
def Demand.perform {σ : Type} (hear : Listener σ) : Demand → Act σ Unit
  | request r => r.perform hear
  | completeText => Act.completeText hear
  | restore stored => Act.restore hear stored
  | setVariable name value => do
    match (← session).vars.setHost name value with
    | .ok vs => edit fun s => { s with vars := vs }
    | .error f => throw (.value f)
  | assignSetting name value => do
    let settings ← Act.ofExcept ((← session).settings.assign name value)
    edit fun s => { s with settings }

/-- What there is to see of a session. -/
structure View where
  /-- What the session is waiting for. -/
  phase : Phase
  /-- How presented lines advance. -/
  mode : PlaybackMode
  /-- Where the session is. -/
  traversal : Traversal
  /-- The variables. -/
  vars : Variables
  /-- The line on screen. -/
  line : Option Spoken
  /-- The labels of the options among which the reader has to choose. -/
  labels : List String
  /-- The innermost node. -/
  node : Option Node
  /-- The text on screen while it is revealed. -/
  typewriter : Option Typewriter

/-- What there is to see of a session. -/
def Session.view (s : Session) : View where
  phase := s.phase
  mode := s.mode
  traversal := s.traversal
  vars := s.vars
  line := s.lineOnScreen
  labels := s.labels
  node := s.node
  typewriter := s.typewriter

/-- What has been seen and what has been remarked on the way from one stage to another. -/
def Stage.news {σ : Type} (st st' : Stage σ) : List Notice × List Remark :=
  (st'.notices.drop st.notices.length, st'.remarks.drop st.remarks.length)

/-- What comes of a demand. -/
structure Outcome where
  /-- Why it has failed, if it has. -/
  failure : Option Failure
  /-- What has been seen and remarked on the way. -/
  news : List Notice × List Remark
  /-- What there is to see then. -/
  view : View

/-- The outcome of a demand that leads from one stage to another. -/
def Outcome.between {σ : Type} (failure : Option Failure) (st st' : Stage σ) : Outcome where
  failure := failure
  news := st.news st'
  view := st'.session.view

/-- The outcomes of demands that are made one after the other, whether or not they fail. -/
def Demand.outcomes {σ : Type} (hear : Listener σ) : List Demand → Stage σ → List Outcome
  | [], _ => []
  | d :: ds, st =>
    match d.perform hear st with
    | .ok _ st' => .between none st st' :: outcomes hear ds st'
    | .error f st' => .between (some f) st st' :: outcomes hear ds st'

section Twins

variable {σ : Type} {p q : Past} {host : σ → σ → Prop} {hear : Listener σ}

/-- What is demanded of twins is in lockstep. -/
theorem Demand.lockstep_perform
    (hhear : ∀ e, Lockstep (p.twins q host) Eq (hear e) (hear e)) (d : Demand) :
    Lockstep (p.twins q host) Eq (d.perform hear) (d.perform hear) := by
  cases d with
  | request r => exact lockstep_request hhear r
  | completeText => exact lockstep_completeText hhear
  | restore stored => exact lockstep_restore hhear stored
  | setVariable name value =>
    refine lockstep_session (fun _ _ => rfl) fun s => ?_
    cases s.vars.setHost name value with
    | ok vs => exact lockstep_edit fun _ _ => ⟨rfl, id⟩
    | error f => exact .throw _
  | assignSetting name value =>
    refine lockstep_session (fun _ _ => rfl) fun s => .seq (.ofExcept _) fun _ => ?_
    exact lockstep_edit fun _ _ => ⟨rfl, id⟩

/-- A listener may make demands of its own when it hears of an event, if the one that hears what
comes of them is impartial. -/
theorem Listener.Impartial.demanding (h : hear.Impartial host) (react : Event → Demand) :
    Listener.Impartial (fun e => (react e).perform hear) host :=
  fun p q e => (react e).lockstep_perform (h p q)

/-- The news are the same on stages that correspond. -/
theorem Pairing.Holds.news_eq {k k' : Pairing σ} {st st' st₁ st₁' : Stage σ} (h : k.Holds st st')
    (h₁ : k'.Holds st₁ st₁') (hfirst : k'.first = k.first) (hsecond : k'.second = k.second) :
    st.news st₁ = st'.news st₁' := by
  obtain ⟨later, hn, hn'⟩ := h.notices
  obtain ⟨later₁, hn₁, hn₁'⟩ := h₁.notices
  obtain ⟨said, hr, hr'⟩ := h.remarks
  obtain ⟨said₁, hr₁, hr₁'⟩ := h₁.remarks
  simp [Stage.news, hn, hn', hn₁, hn₁', hr, hr', hr₁, hr₁', hfirst, hsecond, ← List.drop_drop]

/-- What comes of a demand is the same if the sessions are twins then. -/
theorem Outcome.between_eq {k : Pairing σ} {failure : Option Failure} {st st' st₁ st₁' : Stage σ}
    (h : k.Holds st st') (h₁ : (p.twins q host).Holds st₁ st₁') (hfirst : k.first = p)
    (hsecond : k.second = q) :
    Outcome.between failure st st₁ = Outcome.between failure st' st₁' := by
  have hview : st₁'.session.view = st₁.session.view := h₁.session.congr Session.view fun _ _ => rfl
  rw [Outcome.between, Outcome.between, h.news_eq h₁ hfirst.symm hsecond.symm, hview]

/-- Demands have the same outcomes on stages whose sessions are twins. -/
theorem Demand.outcomes_eq (hhear : ∀ e, Lockstep (p.twins q host) Eq (hear e) (hear e))
    (ds : List Demand) {st st' : Stage σ} (h : (p.twins q host).Holds st st') :
    outcomes hear ds st = outcomes hear ds st' := by
  induction ds generalizing st st' with
  | nil => rfl
  | cons d ds ih =>
    have hagrees := lockstep_perform hhear d st st' h
    unfold outcomes
    generalize d.perform hear st = r, d.perform hear st' = r' at hagrees
    cases hagrees with
    | ok _ h₁ =>
      dsimp only
      rw [Outcome.between_eq h h₁ rfl rfl, ih h₁]
    | error f h₁ =>
      dsimp only
      rw [Outcome.between_eq h h₁ rfl rfl, ih h₁]

end Twins

/-- A session is about to become the past: it is what is put aside when a traversal is taken up. -/
structure Session.Precedes (s : Session) (p : Past) : Prop where
  /-- Its traversal is put aside. -/
  retired : p.retired = s.retired ++ [s.traversal]
  /-- So are its nodes. -/
  retiredNodes : p.retiredNodes = s.retiredNodes ++ [s.nodes]

/-- The correspondence of stages whose sessions are about to become the past. They have nothing in
common but the settings and the mode. -/
def Past.strangers {σ : Type} (p q : Past) (host : σ → σ → Prop) : Pairing σ where
  session s t := t.settings = s.settings ∧ t.mode = s.mode ∧ s.Precedes p ∧ t.Precedes q
  host := host
  first := p
  second := q

/-- What will have happened on a stage when a traversal is taken up there. -/
def Stage.past {σ : Type} (st : Stage σ) : Past where
  retired := st.session.retired ++ [st.session.traversal]
  retiredNodes := st.session.retiredNodes ++ [st.session.nodes]
  notices := st.notices
  remarks := st.remarks

/-- Any two stages with the same surroundings, files, settings and mode are those of strangers. -/
theorem Stage.strangers {σ : Type} {host : σ → σ → Prop} {st st' : Stage σ}
    (hsetup : st'.setup = st.setup) (hfiles : st'.files = st.files)
    (hsettings : st'.session.settings = st.session.settings)
    (hmode : st'.session.mode = st.session.mode) (hhost : host st.host st'.host) :
    (st.past.strangers st'.past host).Holds st st' where
  setup := hsetup
  files := hfiles
  session := ⟨hsettings, hmode, ⟨rfl, rfl⟩, ⟨rfl, rfl⟩⟩
  notices := ⟨[], (List.append_nil _).symm, (List.append_nil _).symm⟩
  remarks := ⟨[], (List.append_nil _).symm, (List.append_nil _).symm⟩
  host := hhost

namespace Act

variable {σ : Type} {p q : Past} {host : σ → σ → Prop} {hear : Listener σ}

section Strangers

variable {st st' : Stage σ}

/-- Strangers remain strangers when they are given variables. -/
theorem lockstep_setVars_strangers (vs ws : Variables) :
    Lockstep (p.strangers q host) Eq (edit fun s => { s with vars := vs })
      (edit fun s => { s with vars := ws }) :=
  .edit fun _ _ ⟨hsettings, hmode, hs, ht⟩ =>
    ⟨hsettings, hmode, ⟨hs.retired, hs.retiredNodes⟩, ⟨ht.retired, ht.retiredNodes⟩⟩

/-- Strangers find the same nodes. -/
theorem lockstep_findScript_strangers (name context : String) :
    Lockstep (p.strangers q host) Eq (findScript name context) (findScript name context) := by
  refine .bind .get fun st st' h => ?_
  dsimp only
  rw [h.files, h.setup, Script.search_remarks_congr st'.session.vars st.session.vars,
    Script.search_congr st'.session.vars st.session.vars]
  exact .seq (lockstep_setVars_strangers _ _) fun _ => .seq (.remarkAll _) fun _ => .ofExcept _

/-- A traversal that is taken up makes twins of strangers. -/
theorem holds_takenUp (h : (p.strangers q host).Holds st st') (t : Traversal) (nodes : List Node) :
    (p.twins q host).Holds { st with session := st.session.takenUp t nodes }
      { st' with session := st'.session.takenUp t nodes } := by
  obtain ⟨hsettings, hmode, hs, ht⟩ := h.session
  -- what is taken up replaces all but the settings, the mode, the past and the timers
  refine ⟨h.setup, h.files, ⟨[], [], st'.session.autoTimer, st'.session.skipTimer, ?_, ?_, ?_, ?_⟩,
    h.notices, h.remarks, h.host⟩
  · simp [Session.takenUp, Session.resumed, hs.retired]
  · simp [Session.takenUp, Session.resumed, Session.replaceNodes, Session.cleared, hs.retiredNodes]
  · exact fun hcount => absurd hcount (Session.not_timersCount rfl)
  · simp [Session.takenUp, Session.resumed, Session.replaceNodes, Session.cleared,
      Session.withMargin, hsettings, hmode, ht.retired, ht.retiredNodes]

/-- When strangers are restored, either the traversal cannot be taken up in either of them, or all
that is done from then on is done to twins. -/
theorem restore_strangers (hhear : ∀ e, Lockstep (p.twins q host) Eq (hear e) (hear e))
    (stored : String) (h : (p.strangers q host).Holds st st') :
    (∃ f st₁ st₁', restore hear stored st = .error f st₁ ∧ restore hear stored st' = .error f st₁' ∧
      (p.strangers q host).Holds st₁ st₁') ∨
    Agrees (p.twins q host) Eq (restore hear stored st) (restore hear stored st') := by
  unfold restore
  cases Traversal.ofText stored with
  | invalid ps => exact .inl ⟨_, st, st', rfl, rfl, h⟩
  | valid t =>
    dsimp only
    -- what is refused before it is taken up leaves strangers
    cases hframes : t.frames.isEmpty with
    | true => exact .inl ⟨_, st, st', rfl, rfl, h⟩
    | false =>
      have hload := lockstep_loadOrUndo lockstep_findScript_strangers
        (fun _ _ _ => lockstep_setVars_strangers _ _) t st st' h
      simp only [Bool.false_eq_true, if_false, bind_apply]
      generalize loadOrUndo t st = r, loadOrUndo t st' = r' at hload
      cases hload with
      | error f h₁ => exact .inl ⟨f, _, _, rfl, rfl, h₁⟩
      | @ok nodes _ st₁ st₁' hnodes h₁ =>
        obtain rfl := hnodes
        dsimp only
        rw [resumeAt_eq]
        exact .inr (lockstep_runRestored hhear t.history _ _ (holds_takenUp h₁ t nodes))

end Strangers

/-- A session that has been restored has forgotten what it was. Two sessions with the same settings
and the same mode are restored in the same surroundings; then either both fail in the same way, or
both look the same after the same has been seen and remarked, and so they do whatever is demanded of
them later. -/
theorem restore_forgets (hhear : hear.Impartial host) (stored : String) {st st' : Stage σ}
    (hsetup : st'.setup = st.setup) (hfiles : st'.files = st.files)
    (hsettings : st'.session.settings = st.session.settings)
    (hmode : st'.session.mode = st.session.mode) (hhost : host st.host st'.host) :
    Ends (restore hear stored) st
      (fun _ st₁ => Ends (restore hear stored) st'
        (fun _ st₁' => Outcome.between none st st₁ = Outcome.between none st' st₁' ∧
          ∀ ds, Demand.outcomes hear ds st₁ = Demand.outcomes hear ds st₁')
        fun _ _ => False)
      fun f st₁ => Ends (restore hear stored) st' (fun _ _ => False)
        fun f' st₁' => f' = f ∧ st.news st₁ = st'.news st₁' := by
  have h : (st.past.strangers st'.past host).Holds st st' :=
    Stage.strangers hsetup hfiles hsettings hmode hhost
  unfold Ends
  rcases restore_strangers (hhear _ _) stored h with ⟨f, st₁, st₁', hr, hr', h₁⟩ | hagrees
  · rw [hr, hr']
    exact ⟨rfl, h.news_eq h₁ rfl rfl⟩
  · generalize restore hear stored st = r, restore hear stored st' = r' at hagrees
    cases hagrees with
    | ok _ h₁ =>
      exact ⟨Outcome.between_eq h h₁ rfl rfl, fun ds => Demand.outcomes_eq (hhear _ _) ds h₁⟩
    | error f h₁ => exact ⟨rfl, h.news_eq h₁ rfl rfl⟩

/-- A script with two nodes. -/
private def inn : Stage Unit := .ofScript
  ["#Node: hall", "Come in.", "#EndNode", "#Node: yard", "#StartDecision", "-Knock", "-Wait",
    "#EndDecision", "Cold.", "#EndNode"]

/-- A session that is at the first line in the hall. Proofs are not to read the text themselves. -/
@[irreducible]
private def inTheHall : String := "\x7b\"node_stack\":[\x7b\"node_name\":\"hall\"\x7d]\x7d"

/-- The reader pauses at the decision in the yard, and a variable has been set. -/
private def waitInTheYard : Act Unit Unit := do
  (Demand.request (.input (.start "yard" ""))).perform noting
  (Demand.setVariable "coins" (.int 3)).perform noting
  (Demand.request (.input .pause)).perform noting

/-- The session that has been in the yard is restored. -/
private theorem inn_restores : Ends waitInTheYard inn
    (fun _ st => (st.setup = inn.setup ∧ st.files = inn.files ∧
        st.session.settings = inn.session.settings ∧ st.session.mode = inn.session.mode) ∧
      st.session.phase = .paused ∧ Ends (restore noting inTheHall) st
        (fun _ st₁ => st₁.session.line = some ⟨"", "Come in."⟩) fun _ _ => False)
    fun _ _ => False := by
  decide +kernel

/-- A session that has paused in the yard and one in which nothing has happened are the same when
they have been restored in the hall. -/
theorem restore_forgets_inn : ∃ st st₁ st₂ : Stage Unit, st.session.phase = .paused ∧
    restore noting inTheHall st = .ok () st₁ ∧ restore noting inTheHall inn = .ok () st₂ ∧
      st₁.session.line = some ⟨"", "Come in."⟩ ∧
      Outcome.between none st st₁ = Outcome.between none inn st₂ ∧
      ∀ ds, Demand.outcomes noting ds st₁ = Demand.outcomes noting ds st₂ := by
  obtain ⟨_, st, -, ⟨hsetup, hfiles, hsettings, hmode⟩, hphase, hends⟩ := inn_restores.exists_ok
  obtain ⟨_, st₁, hr, hline⟩ := hends.exists_ok
  have hforgets := restore_forgets (impartial_noting fun _ _ => True) inTheHall hsetup.symm
    hfiles.symm hsettings.symm hmode.symm trivial
  obtain ⟨_, st₂, hr', hsame⟩ := (hforgets.of_ok hr).exists_ok
  exact ⟨st, st₁, st₂, hphase, hr, hr', hline, hsame⟩

end Act

end VisualNovel
