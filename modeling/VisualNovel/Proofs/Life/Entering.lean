import VisualNovel.Proofs.Life.Play
import VisualNovel.Proofs.Life.Shifting
import VisualNovel.Proofs.Life.Stance

/-!
# Entering a node

A host enters a node, and the session runs on in it until it needs the reader or is over. A session
that has been halted does not run: a node is still entered, but nothing comes of it. A start and a
restored traversal make a session go on again; entering a node does not.

## Main definitions

* `Event.isOfEnd`: the events that tell that nothing goes on;
* `Session.IdleIfHalted`: a session that has been halted waits for nothing;
* `Stage.Warned`: it has been told if the session has been halted meanwhile.

## Main results

* `Course.idleIfHalted`: sessions that have been halted are idle throughout;
* `Act.keptByStory_warned`: no session is halted without being told;
* `Act.step_stops`: why a run comes to a rest;
* `Course.entered_node_runs_iff`: a node that has been entered is run exactly if the session had not
  been halted.
-/

namespace VisualNovel

open Act

/-- It is told that nothing goes on: the session is over, or a node cannot be loaded. -/
def Event.isOfEnd : Event → Bool
  | sessionEnded | loadFailed _ _ => true
  | _ => false

/-! ### Sessions that have been halted -/

/-- A session that has been halted waits for nothing. -/
def Session.IdleIfHalted (s : Session) : Prop := s.halted → s.phase = .idle

namespace Session

variable {w : Shelf} {s s' : Session}

namespace IdleIfHalted

theorem of_not (h : s.halted = false) : s.IdleIfHalted := fun hhalted => by
  rw [h] at hhalted
  cases hhalted

theorem congr (h : s.IdleIfHalted) (hhalted : s'.halted = s.halted) (hphase : s'.phase = s.phase) :
    s'.IdleIfHalted := by
  rw [IdleIfHalted, hhalted, hphase]
  exact h

theorem of_alike (h : s.IdleIfHalted) (hs : s.Alike s') : s'.IdleIfHalted := by
  obtain ⟨_, _, _, _, _, rfl⟩ := hs
  exact h

/-- A session that waits for its reader has not been halted. -/
theorem not_halted (h : s.IdleIfHalted) (hphase : s.phase ≠ .idle) : s.halted = false := by
  by_contra hhalted
  exact hphase (h (by simpa using hhalted))

end IdleIfHalted

theorem Rests.idleIfHalted {i : Input} (h : s.Rests w i s') (hs : s.IdleIfHalted) :
    s'.IdleIfHalted := by
  cases h with
  | stay i => exact hs
  | pause hphase => exact .of_not (hs.not_halted (by rcases hphase with h | h <;> simp [h]))
  | resume hphase _ => exact .of_not (hs.not_halted (by simp [hphase]))
  | ended _ => exact fun _ => rfl
  | lost _ _ => exact fun _ => rfl
  | unreadable _ _ => exact fun _ => rfl

theorem Begins.idleIfHalted {i : Input} {seen : List Visit} (h : s.Begins w i seen s')
    (hs : s.IdleIfHalted) : s'.IdleIfHalted := by
  cases h with
  | start _ _ _ =>
    apply IdleIfHalted.of_not
    unfold entered
    split <;> rfl
  | leaveLine _ hphase => exact .of_not (hs.not_halted (by simp [hphase]))
  | choose hphase _ _ _ => exact .of_not (hs.not_halted (by simp [hphase]))

end Session

namespace Act

variable {σ : Type} {o : Observer σ}

/-- Whatever a session does on its own leaves it idle if it has been halted. -/
theorem keptByStory_idleIfHalted : KeptByStory o fun st st' : Stage σ =>
    st.session.IdleIfHalted → st'.session.IdleIfHalted where
  toBlindToStory := .of_session o (P := fun s s' => s.IdleIfHalted → s'.IdleIfHalted)
    (fun _ => id) (fun h h' => h' ∘ h) fun h hs => hs.congr h.halted h.phase
  ends st := endSession_ends o fun _ h _ => .of_alike (fun _ => rfl) h.session
  abandons name f st := abandonNode_ends o fun _ h _ => .of_alike (fun _ => rfl) h.session
  awaits st d hhalted := by
    simp only [LeavesFrom, awaitChoice, ends_bind, ends_edit, ends_ask, ends_hear, o.session_react,
      Stage.session_asked]
    exact fun _ => .of_not hhalted
  presents st n line hhalted := by
    -- a line is presented only if the session has not been halted, and that does not halt it
    have hpresented {st' : Stage σ} (h : st.Follows st' (st.session.presented line)) :
        st.session.IdleIfHalted → st'.session.IdleIfHalted :=
      fun _ => .of_alike (s := st.session.presented line) (.of_not hhalted) h.session
    exact present_ends o (fun _ _ _ h => hpresented h) fun _ _ _ h => hpresented h

/-- A traversal that is taken up goes on, whatever has been before. -/
theorem takeUp_idleIfHalted (stored : String) :
    Leaves (fun st st' : Stage σ => st.session.IdleIfHalted → st'.session.IdleIfHalted)
      (takeUp o.hear stored) := by
  intro st
  refine takeUp_ends o (fun f vs st' h hs => ?_) fun t ns vs era st' _ _ _ h _ => ?_
  · obtain ⟨_, rfl⟩ := h
    exact hs
  · exact .of_alike (.of_not rfl) h.session

end Act

theorem Request.prepare_idleIfHalted {σ : Type} {o : Observer σ} (r : Request) :
    Leaves (fun st st' : Stage σ => st.session.IdleIfHalted → st'.session.IdleIfHalted)
      (r.prepare o.hear) := by
  have hR := keptByStory_idleIfHalted (o := o)
  cases r with
  | findNode node context =>
    refine hR.bind (hR.openNode _ _) fun opened => ?_
    split <;> exact hR.pure _
  | input i =>
    intro st
    refine (Input.prepare_ends st o i).imp ?_ ?_
    · rintro (_ | seen) st' ⟨s', hs', h⟩ hs
      · exact (hs'.idleIfHalted hs).of_alike h.session
      · exact (hs'.idleIfHalted hs).of_alike h.session
    · rintro - st' ⟨s', hs', h⟩ hs
      exact (hs'.idleIfHalted hs).of_alike h.session

namespace Course

variable {σ : Type} {o : Observer σ} {w : Shelf} {s : Session}

/-- Throughout the course of a session it is idle if it has been halted. -/
theorem idleIfHalted (h : Course o w s) : s.IdleIfHalted := by
  have hR := keptByStory_idleIfHalted (o := o)
  -- on the moves and the traversals that have been taken up
  induction h with
  | fresh _ _ => exact .of_not rfl
  | moves _ hm ih =>
    cases hm with
    | prepares _ hs hr =>
      subst hs
      exact (Request.prepare_idleIfHalted _ _).of_ok hr ih
    | refuses _ hs hr =>
      subst hs
      exact (Request.prepare_idleIfHalted _ _).of_error hr ih
    | begins _ => exact ih
    | steps _ hs hstep =>
      subst hs
      exact (hR.step _ _).of_ok hstep ih
    | breaks _ hs hstep =>
      subst hs
      exact (hR.step _ _).of_error hstep ih
    | adjusts _ _ => exact ih
  | takes _ _ hs ht ih =>
    subst hs
    exact (takeUp_idleIfHalted _ _).of_ok ht ih
  | leaves _ _ hs ht ih =>
    subst hs
    exact (takeUp_idleIfHalted _ _).of_error ht ih
  | settles _ ih => exact ih

end Course

/-! ### What is told of it -/

namespace Stage

variable {σ : Type}

/-- It has been told meanwhile that nothing goes on. -/
def ToldOfEnd (st st' : Stage σ) : Prop :=
  ∃ news, st'.notices = st.notices ++ news ∧ ∃ e : Event, e.isOfEnd ∧ .event e ∈ news

/-- Events have been told and helpers have been asked. If the session has been halted meanwhile, it
has been told that nothing goes on. -/
def Warned (st st' : Stage σ) : Prop :=
  st.notices <+: st'.notices ∧ (st'.session.halted → st.session.halted ∨ st.ToldOfEnd st')

/-- The session waits for its reader, or it has been told meanwhile that nothing goes on. -/
def ComesToRest (st st' : Stage σ) : Prop :=
  st'.session.phase = .presenting ∨ st'.session.phase = .choosing ∨ st.ToldOfEnd st'

variable {st st₁ st₂ : Stage σ}

/-- What has been told later has been told. -/
theorem ToldOfEnd.of_prefix (h : st.notices <+: st₁.notices) (h' : st₁.ToldOfEnd st₂) :
    st.ToldOfEnd st₂ := by
  obtain ⟨news, hnews⟩ := h
  obtain ⟨later, hlater, e, he, hmem⟩ := h'
  exact ⟨news ++ later, by rw [hlater, ← hnews, List.append_assoc], e, he,
    List.mem_append_right _ hmem⟩

/-- What has been told stays told. -/
theorem ToldOfEnd.prefix_of (h : st.ToldOfEnd st₁) (h' : st₁.notices <+: st₂.notices) :
    st.ToldOfEnd st₂ := by
  obtain ⟨news, hnews, e, he, hmem⟩ := h
  obtain ⟨later, hlater⟩ := h'
  exact ⟨news ++ later, by rw [← hlater, hnews, List.append_assoc], e, he,
    List.mem_append_left _ hmem⟩

/-- The session is halted only if it has been so. -/
theorem Warned.of_halted {st' : Stage σ} (h : st.notices <+: st'.notices)
    (hhalted : st'.session.halted = st.session.halted) : st.Warned st' := by
  refine ⟨h, fun hnow => .inl ?_⟩
  rw [← hhalted]
  exact hnow

theorem Warned.trans (h : st.Warned st₁) (h' : st₁.Warned st₂) : st.Warned st₂ := by
  refine ⟨h.1.trans h'.1, fun hhalted => ?_⟩
  rcases h'.2 hhalted with hbefore | htold
  · exact (h.2 hbefore).imp id fun htold => htold.prefix_of h'.1
  · exact .inr (htold.of_prefix h.1)

end Stage

namespace Act

variable {σ : Type} {st : Stage σ}

theorem blindToStory_warned : BlindToStory Observer.noting (Stage.Warned (σ := σ)) where
  refl st := .of_halted (List.prefix_refl _) rfl
  trans := .trans
  moves st _ h := .of_halted (List.prefix_refl st.notices) h.halted
  remarks st _ := .of_halted (List.prefix_refl st.notices) rfl
  asks st c := by
    unfold Stage.asked
    split
    · exact .of_halted (List.prefix_append st.notices _) rfl
    · exact .of_halted (List.prefix_refl _) rfl
  tells st e := .of_halted (List.prefix_append st.notices _) rfl

/-- A change that does not halt the session. -/
theorem warned_edit {f : Session → Session} (hf : ∀ s : Session, (f s).halted = s.halted) :
    Leaves (Stage.Warned (σ := σ)) (edit f) := fun st =>
  .of_halted (List.prefix_refl st.notices) (hf st.session)

theorem warned_awaitChoice (d : Decision) :
    Leaves (Stage.Warned (σ := σ)) (awaitChoice Observer.noting.hear d) :=
  blindToStory_warned.bind (warned_edit fun _ => rfl) fun _ =>
    blindToStory_warned.bind (blindToStory_warned.ask _) fun _ => blindToStory_warned.hear _

theorem warned_completeText :
    Leaves (Stage.Warned (σ := σ)) (completeText Observer.noting.hear) := by
  have hR := blindToStory_warned (σ := σ)
  refine hR.bind hR.session fun s => ?_
  split
  · exact hR.pure ()
  · split
    · exact hR.bind (warned_edit fun _ => rfl) fun _ =>
        hR.bind (warned_edit fun _ => rfl) fun _ => hR.hear _
    · exact hR.pure ()

theorem warned_present (n : Node) (line : Spoken) :
    Leaves (Stage.Warned (σ := σ)) (present Observer.noting.hear n line) := by
  have hR := blindToStory_warned (σ := σ)
  refine hR.bind hR.session fun _ => hR.bind hR.session fun _ => hR.bind (hR.turnTo _) fun _ =>
    hR.bind (hR.record _) fun _ => hR.bind (warned_edit fun _ => rfl) fun _ =>
    hR.bind hR.session fun _ => hR.bind (hR.ofExcept _) fun _ =>
    hR.bind (warned_edit fun _ => rfl) fun _ => hR.bind (hR.ask _) fun _ =>
    hR.bind (hR.hear _) fun _ => hR.bind hR.session fun _ => ?_
  split
  · exact hR.bind warned_completeText fun _ => hR.refresh
  · exact hR.refresh

/-- No session is halted without being told. -/
theorem keptByStory_warned : KeptByStory Observer.noting (Stage.Warned (σ := σ)) where
  toBlindToStory := blindToStory_warned
  ends := blindToStory_warned.bind (warned_edit fun _ => rfl) fun _ => blindToStory_warned.hear _
  abandons name f := by
    have hR := blindToStory_warned (σ := σ)
    refine hR.bind (hR.remarkAll _) fun _ st => ?_
    simp only [LeavesFrom, ends_bind, ends_edit, ends_hear]
    have htold : st.ToldOfEnd { st with
        session := st.session.halt
        notices := st.notices ++ [.event (.loadFailed name f.message)] } :=
      ⟨_, rfl, _, rfl, List.mem_cons_self⟩
    exact ⟨List.prefix_append st.notices _, fun _ => .inr htold⟩
  awaits st d _ := warned_awaitChoice d st
  presents st n line _ := warned_present n line st

/-! ### Why a run comes to a rest -/

/-- A node below goes on, or it is told that the session is over. -/
theorem finishNode_stops : Ends (finishNode Observer.noting.hear) st
    (fun goesOn st' => goesOn = false → st.ToldOfEnd st') fun _ _ => True := by
  unfold finishNode
  simp only [ends_bind, ends_session]
  split
  · trivial
  · next f _ =>
    simp only [ends_bind, ends_edit, ends_hear, ends_session, ends_ite, ends_pure]
    split
    · simp only [endSession, ends_bind, ends_edit, ends_hear]
      intro _
      refine ⟨[.event (.nodeCompleted f.node), .event .sessionEnded], ?_, .sessionEnded, rfl, ?_⟩
      · simp [Observer.noting]
      · exact List.mem_cons_of_mem _ List.mem_cons_self
    · next hended =>
      intro hstop
      exact absurd hstop (by simpa using hended)

theorem passDecisions_stops {o : Observer σ} (n : Node) : Ends (passDecisions o.hear n) st
    (fun asks st' => asks = true → st'.session.phase = .choosing) fun _ _ => True := by
  unfold passDecisions
  simp only [ends_bind, ends_session, ends_edit]
  split
  · exact fun hno => by cases hno
  · trivial
  · simp only [awaitChoice, ends_bind, ends_edit, ends_ask, ends_hear, ends_pure, o.session_react,
      Stage.session_asked]
    exact fun _ => trivial

theorem takeLine_stops {o : Observer σ} (era : Nat) (n : Node) (text : String) :
    Ends (takeLine o.hear era n text) st
      (fun goesOn st' => goesOn = false → st'.session.phase = .presenting) fun _ _ => True := by
  unfold takeLine
  split
  · simp only [ends_bind, ends_pure]
    refine ends_of_forall (fun _ _ => ends_of_forall (fun _ _ => ?_) ?_) fun _ _ => trivial
    · exact ends_of_forall (fun _ _ hno => by cases hno) fun _ _ => trivial
    · exact fun _ _ => trivial
  · dsimp only
    split
    · simp only [ends_bind, ends_pure]
      exact ends_of_forall (fun _ _ hno => by cases hno) fun _ _ => trivial
    · rw [ends_bind]
      refine present_ends o (fun _ st' _ h _ => ?_) fun _ _ _ _ => trivial
      obtain ⟨_, _, _, _, _, hs⟩ := h.session
      rw [hs]
      rfl

/-- A run comes to a rest only if it was halted, if there is no node, if the reader is needed, or if
it is told that the session is over. -/
theorem step_stops (era : Nat) : Ends (step Observer.noting.hear era) st
    (fun goesOn st' => goesOn = false →
      st.session.halted ∨ st.session.node = none ∨ st.ComesToRest st') fun _ _ => True := by
  refine step_rule ?_ (fun _ _ _ _ => ?_) fun n _ _ _ => ?_
  · rintro (hhalted | hnode) -
    · exact .inl hhalted
    · exact .inr (.inl hnode)
  · exact finishNode_stops.imp (fun _ _ h hstop => .inr (.inr (.inr (.inr (h hstop)))))
      fun _ _ h => h
  -- the conditionals bring nothing to a rest; the decisions do if they ask
  refine ends_of_forall (fun _ st₁ => ?_) fun _ _ => trivial
  refine (passDecisions_stops n).imp (fun asks st₂ h₂ => ?_) fun _ _ h => h
  cases asks with
  | true => exact fun _ => .inr (.inr (.inr (.inl (h₂ rfl))))
  | false =>
    refine ⟨fun _ hno => absurd hno (by simp), fun _ _ => trivial, fun text _ _ => ?_⟩
    exact (takeLine_stops _ n text).imp (fun _ _ h hstop => .inr (.inr (.inl (h hstop))))
      fun _ _ h => h

/-- A node that is opened leaves the session waiting for what it waited for, and at most it is told
that the node has been entered. -/
theorem openNode_tells (name context : String) :
    Ends (openNode Observer.noting.hear name context) st
      (fun opened st' => opened = true → st.session.SameStance st'.session ∧
        ∃ news, st'.notices = st.notices ++ news ∧
          ∀ x ∈ news, ∃ node, x = .event (.nodeEntered node))
      fun _ _ => True := by
  unfold openNode
  simp only [ends_bind, ends_session, ends_ite, ends_pure]
  split
  · exact fun hno => by cases hno
  rw [ends_attempt]
  refine findScript_ends (fun n st₁ _ h₁ => ?_) fun f st₁ _ _ => ?_
  · obtain ⟨remarks, rfl⟩ := h₁
    simp only [ends_ite, ends_bind, ends_remark, ends_pure]
    split
    · exact fun hno => by cases hno
    unfold enter
    simp only [ends_bind, ends_session, ends_ite, ends_edit, ends_hear]
    -- a node that is on top already is replaced, which is not told
    split
    · exact fun _ => ⟨⟨rfl, rfl, rfl, rfl, rfl, rfl, rfl⟩, [], by simp, by simp⟩
    · exact fun _ => ⟨⟨rfl, rfl, rfl, rfl, rfl, rfl, rfl⟩, [.event (.nodeEntered n.name)], rfl,
        by simp⟩
  · split
    · rw [ends_bind]
      exact ends_of_forall (fun _ _ => trivial) fun _ _ => trivial
    · trivial

/-- A session that has been halted does not run. -/
theorem run_halted {o : Observer σ} (hhalted : st.session.halted) (seen : List Visit) :
    Ends (run o.hear seen) st
      (fun _ st' => st' = { st with session := { st.session with seen } }) fun _ _ => True := by
  refine run_induction o (P := fun st' => st' = { st with session := { st.session with seen } })
    ?_ (fun _ _ => trivial) rfl
  rintro st₁ rfl
  simp [step, hhalted]

end Act

namespace Session

variable {w : Shelf} {s s' : Session}

theorem names_entered_ne_nil (n : Node) : (s.entered n).traversal.names ≠ [] := by
  unfold entered
  split
  · next htop =>
    -- the node on top has a name
    intro hnil
    have hframes : s.traversal.frames = [] := List.map_eq_nil_iff.mp hnil
    simp [Traversal.top, hframes] at htop
  · rw [Traversal.names_enter]
    simp

/-- A run that goes on is in a node. -/
theorem Step.names_ne_nil (h : s.Step w true s') (hs : s.traversal.names ≠ []) :
    s'.traversal.names ≠ [] := by
  cases h with
  | finish _ _ _ _ hbelow =>
    rw [finished, Traversal.names_comeBack, Traversal.names_complete, Traversal.names,
      ← List.map_dropLast]
    exact fun hnil => hbelow (List.map_eq_nil_iff.mp hnil)
  | move _ _ => exact hs
  | command _ _ _ _ hs' =>
    rcases hs' with rfl | ⟨_, -, hgoes⟩
    · exact hs
    cases hgoes with
    | entered _ _ _ _ => exact names_entered_ne_nil _
    | _ => exact hs
  | skip _ _ _ _ _ => exact hs

/-- Where there is a name there is a node. -/
theorem Stocked.node_ne_none (h : s.Stocked w) (hs : s.traversal.names ≠ []) : s.node ≠ none := by
  intro hnone
  have hnodes : s.nodes = [] := List.getLast?_eq_none_iff.mp hnone
  have hlength := h.length_nodes
  rw [hnodes] at hlength
  have hframes : s.traversal.frames = [] := List.length_eq_zero_iff.mp hlength.symm
  exact hs (by rw [Traversal.names, hframes]; rfl)

end Session

/-- A session in which a node has been opened is in a node. -/
theorem Act.openNode_in_node {σ : Type} {o : Observer σ} {st : Stage σ} (name context : String) :
    Ends (openNode o.hear name context) st
      (fun opened st' => opened = true → st'.session.traversal.names ≠ []) fun _ _ => True := by
  refine openNode_ends o ?_ ?_ ?_ ?_ ?_
  · exact fun _ hno => by cases hno
  · exact fun _ _ _ _ _ _ hno => by cases hno
  · intro n st' _ _ _ h _
    obtain ⟨_, _, _, _, _, hs⟩ := h.session
    rw [hs]
    exact Session.names_entered_ne_nil n
  · exact fun _ _ _ _ _ _ => trivial
  · exact fun _ _ _ _ _ _ => trivial

namespace Course

variable {σ : Type} {st st' : Stage σ}

/-- A run that begins in a node, in a session that has not been halted, comes to a rest. -/
theorem run_rests (h : Course (.noting : Observer σ) st.shelf st.session)
    (hs : st.session.traversal.names ≠ []) (hhalted : st.session.halted = false)
    (seen : List Visit) :
    Ends (Act.run Observer.noting.hear seen) st (fun _ st' => st.ComesToRest st')
      fun _ _ => True := by
  refine run_induction .noting (P := fun st₁ => st₁.shelf = st.shelf ∧
    Course (.noting : Observer σ) st.shelf st₁.session ∧ st₁.session.traversal.names ≠ [] ∧
    st.Warned st₁) ?_ (fun _ _ => trivial) ?_
  · rintro st₁ ⟨hw, h₁, hs₁, hwarned₁⟩
    have hwarns := keptByStory_warned.step st₁.session.era st₁
    -- what becomes of the session, what has been told, and why the run does not go on
    refine ((step_ends st₁ .noting).and (hwarns.and (step_stops _))).and_eq.imp ?_
      fun _ _ _ => trivial
    rintro goesOn st₂ ⟨⟨⟨s', hstep, hfollows⟩, hwarned₂, hstops⟩, hresult⟩
    have h₂ : Course (.noting : Observer σ) st.shelf st₂.session := h₁.moves (.steps hw rfl hresult)
    cases goesOn with
    | true =>
      obtain ⟨_, _, _, _, _, hs₂⟩ := hfollows.session
      refine ⟨hfollows.shelf.trans hw, h₂, ?_, hwarned₁.trans hwarned₂⟩
      rw [hs₂]
      exact hstep.names_ne_nil hs₁
    | false =>
      rcases hstops rfl with hstopped | hnone | hphase | hphase | htold
      · -- a session that has been halted on the way has been so with a warning
        rcases hwarned₁.2 hstopped with hbefore | htold
        · rw [hhalted] at hbefore
          cases hbefore
        · exact .inr (.inr (htold.prefix_of hwarned₂.1))
      · exact absurd hnone (h₁.stocked.node_ne_none hs₁)
      · exact .inl hphase
      · exact .inr (.inl hphase)
      · exact .inr (.inr (htold.of_prefix hwarned₁.1))
  · exact ⟨rfl, h.moves (.begins seen), hs, .of_halted (List.prefix_refl _) rfl⟩

/-- When a node has been entered that is neither complete nor without lines, the session waits for
its reader, or it has been told that nothing goes on, exactly if the session had not been halted. -/
theorem entered_node_runs_iff (h : Course (.noting : Observer σ) st.shelf st.session)
    {name context : String}
    (hfind : findNode Observer.noting.hear name context st = .ok true st') :
    st.ComesToRest st' ↔ st.session.halted = false := by
  obtain ⟨opened, st₁, hopen, hrest⟩ := bind_eq_ok_iff.mp hfind
  cases opened with
  | false => cases hrest
  | true =>
  obtain ⟨⟨⟩, st₂, hrun, hend⟩ := bind_eq_ok_iff.mp hrest
  obtain rfl : st₂ = st' := (EStateM.Result.ok.inj hend).2
  obtain ⟨hsame, news, hnews, hentered⟩ := (openNode_tells name context).of_ok hopen rfl
  constructor
  · intro hrests
    by_contra hhalted
    have hhalted : st.session.halted := by simpa using hhalted
    -- nothing happens once the node has been entered
    have hstays := (run_halted (hsame.halted.trans hhalted) []).of_ok hrun
    have hidle : st₂.session.phase = .idle := by
      rw [hstays]
      exact hsame.phase.trans (h.idleIfHalted hhalted)
    rcases hrests with hphase | hphase | ⟨later, hlater, e, he, hmem⟩
    · simp [hidle] at hphase
    · simp [hidle] at hphase
    · have hnotices : st₂.notices = st₁.notices := by rw [hstays]
      obtain rfl : news = later :=
        List.append_cancel_left (hnews.symm.trans (hnotices.symm.trans hlater))
      obtain ⟨node, hnode⟩ := hentered _ hmem
      cases hnode
      cases he
  · intro hhalted
    have hprepare : (Request.findNode name context).prepare Observer.noting.hear st =
        .ok (some []) st₁ := bind_eq_ok_iff.mpr ⟨true, st₁, hopen, rfl⟩
    have h₁ : Course (.noting : Observer σ) st.shelf st₁.session :=
      h.moves (.prepares rfl rfl hprepare)
    have hin : st₁.session.traversal.names ≠ [] := (openNode_in_node name context).of_ok hopen rfl
    have hw : st₁.shelf = st.shelf :=
      ((Request.findNode name context).prepare_shelf _).of_ok hprepare
    rw [← hw] at h₁
    have hrests := (h₁.run_rests hin (hsame.halted.trans hhalted) []).of_ok hrun
    exact hrests.imp id (.imp id fun htold => htold.of_prefix ⟨news, hnews.symm⟩)

/-- A script with a single line. -/
private def lobby : Stage Unit := .ofScript ["#Node: main", "Hello.", "#EndNode"]

/-- The node is found, entered and run. -/
private theorem lobby_opens :
    Ends (findNode Observer.noting.hear "main" "") lobby (fun found _ => found = true)
      fun _ _ => False := by decide +kernel

/-- A session that begins runs the node that is entered. -/
theorem entered_node_runs_iff_lobby :
    ∃ st', findNode Observer.noting.hear "main" "" lobby = .ok true st' ∧
      lobby.ComesToRest st' := by
  obtain ⟨_, st', hfind, rfl⟩ := lobby_opens.exists_ok
  have hcourse : Course (.noting : Observer Unit) lobby.shelf lobby.session := .fresh {} .empty
  exact ⟨st', hfind, (entered_node_runs_iff hcourse hfind).mpr rfl⟩

/-- A node that does not exist halts the session. The node that does is entered then, and that is
all. -/
private theorem lobby_stays :
    Ends ((Request.findNode "attic" "").prepare Observer.noting.hear) lobby (fun _ _ => False)
      fun _ st => Ends (findNode Observer.noting.hear "main" "") st
        (fun found st' => found = true ∧ st'.session.phase = .idle ∧
          st'.notices = st.notices ++ [.event (.nodeEntered "main")])
        fun _ _ => False := by decide +kernel

/-- Not every node that has been entered is run. -/
theorem not_entered_node_runs : ¬∀ (st st' : Stage Unit) (name context : String),
    Course (.noting : Observer Unit) st.shelf st.session →
      findNode Observer.noting.hear name context st = .ok true st' → st.ComesToRest st' := by
  intro hall
  have hcourse : Course (.noting : Observer Unit) lobby.shelf lobby.session := .fresh {} .empty
  cases hlost : (Request.findNode "attic" "").prepare Observer.noting.hear lobby with
  | ok seen st => exact lobby_stays.of_ok hlost
  | error f st =>
    have hw : st.shelf = lobby.shelf := ((Request.findNode _ _).prepare_shelf _).of_error hlost
    have hhalted : Course (.noting : Observer Unit) st.shelf st.session := by
      rw [hw]
      exact hcourse.moves (.refuses rfl rfl hlost)
    obtain ⟨_, st', hfind, rfl, hidle, hnotices⟩ := (lobby_stays.of_error hlost).exists_ok
    rcases hall st st' "main" "" hhalted hfind with hphase | hphase | ⟨news, hnews, e, he, hmem⟩
    · rw [hidle] at hphase
      cases hphase
    · rw [hidle] at hphase
      cases hphase
    · -- nothing has been told but that the node is entered
      obtain rfl := List.append_cancel_left (hnotices.symm.trans hnews)
      cases List.mem_singleton.mp hmem
      cases he

end Course

end VisualNovel
