import VisualNovel.Proofs.Life.Effects

/-!
# Entering and completing nodes

A session tells of each node that it enters and of each that it completes. Whoever has heard this
since the last start knows the stack of nodes without looking at it: a node that is entered comes on
top, and the one that is completed is on top. What has been completed is not entered again, though
it may wait further down in the stack.

## Main definitions

* `Entry`: what is noted of a session, that it is asked to start or that it tells an event;
* `Entry.pending`: the nodes that have been entered since the last start and not been completed;
* `Accounts`: notes account for the stack of a session and for its complete nodes;
* `Orderly`: notes in which every event comes at the right time;
* `Request.notedAll`: the stage after requests, with notes.

## Main results

* `Request.bracketed`: what is noted of a session is orderly, and accounts for it.
-/

namespace VisualNovel

/-- What is noted of a session. -/
inductive Entry where
  /-- It is asked to start. -/
  | begins
  /-- It tells an event, and stands as it does then. -/
  | told (e : Event) (s : Session)

namespace Entry

/-- The nodes that are entered and not completed when something further has been noted. -/
def follow (names : List String) : Entry → List String
  | begins => []
  | told (.nodeEntered n) _ => names ++ [n]
  | told (.nodeCompleted _) _ => names.dropLast
  | told _ _ => names

/-- The nodes that have been entered since the last start and not been completed, the one that has
been entered last behind the others. -/
def pending (log : List Entry) : List String := log.foldl follow []

/-- It has been told that a node is complete. -/
def Completed (log : List Entry) (n : String) : Prop := ∃ s, told (.nodeCompleted n) s ∈ log

/-- An event is told of a session with a property. -/
def tells (e : Event) (P : Session → Bool) : Entry → Bool
  | begins => false
  | told e' s => e' = e && P s

variable {log : List Entry} {e : Event} {s s' : Session} {n : String}

/-- What can be looked for in notes is told. -/
theorem exists_of_any_tells (log : List Entry) {P : Session → Bool} (h : log.any (tells e P)) :
    ∃ s, told e s ∈ log ∧ P s := by
  obtain ⟨x, hx, htells⟩ := List.any_eq_true.mp h
  cases x with
  | begins => cases htells
  | told e' s =>
    obtain ⟨he, hs⟩ := Bool.and_eq_true_iff.mp htells
    obtain rfl := of_decide_eq_true he
    exact ⟨s, hx, hs⟩

/-- What holds of everything that has been told, and of what had been noted before it, still holds
if it holds of what is noted last. -/
theorem forall_told_concat {P : List Entry → Event → Session → Prop} {x : Entry}
    (h : ∀ front e s back, log = front ++ told e s :: back → P front e s)
    (hx : ∀ e s, x = told e s → P log e s) :
    ∀ front e s back, log ++ [x] = front ++ told e s :: back → P front e s := by
  intro front e s back heq
  rcases List.eq_nil_or_concat back with rfl | ⟨back, y, rfl⟩
  · obtain ⟨rfl, hlast⟩ := List.append_inj' heq rfl
    exact hx e s (List.cons.inj hlast).1
  · rw [List.concat_eq_append, ← List.cons_append, ← List.append_assoc] at heq
    exact h front e s back (List.append_inj' heq rfl).1

theorem pending_concat (log : List Entry) (x : Entry) :
    pending (log ++ [x]) = follow (pending log) x := by
  simp [pending]

theorem completed_concat_begins : Completed (log ++ [begins]) n ↔ Completed log n := by
  simp [Completed]

theorem completed_concat_told :
    Completed (log ++ [told e s]) n ↔ Completed log n ∨ e = .nodeCompleted n := by
  simp only [Completed, List.mem_append, List.mem_singleton, told.injEq, exists_or]
  refine or_congr_right ⟨fun ⟨_, he, _⟩ => he.symm, fun he => ⟨s, he.symm, rfl⟩⟩

end Entry

namespace Traversal

variable (t : Traversal) (node : String)

/-- What is complete when a node has been taken off the stack. -/
theorem mem_completed_complete {n : String} :
    n ∈ (t.complete node).completed ↔ n ∈ t.completed ∨ n = node := by
  unfold complete
  dsimp only
  split
  · next h =>
    refine ⟨.inl, ?_⟩
    rintro (h' | rfl)
    · exact h'
    · simpa using h
  · rw [List.mem_append, List.mem_singleton]

theorem completed_prefix_complete : t.completed <+: (t.complete node).completed := by
  unfold complete
  dsimp only
  split
  · exact List.prefix_refl _
  · exact List.prefix_append _ _

variable {t node} in
/-- A node that is complete already is not noted once more. -/
theorem nodup_complete (h : t.completed.Nodup) : (t.complete node).completed.Nodup := by
  unfold complete
  dsimp only
  split
  · exact h
  · next hnew =>
    refine List.nodup_append.mpr ⟨h, by simp, ?_⟩
    rintro a ha b hb rfl
    obtain rfl := List.mem_singleton.mp hb
    exact hnew (by simpa using ha)

end Traversal

open Entry

/-- Notes account for a session: for the names on its stack of nodes and for those of its complete
nodes, which have only become more. -/
structure Accounts (log : List Entry) (s : Session) : Prop where
  names : s.traversal.names = pending log
  nodup : s.traversal.completed.Nodup
  completed : ∀ n, n ∈ s.traversal.completed ↔ Completed log n
  grows : ∀ e s', told e s' ∈ log → s'.traversal.completed <+: s.traversal.completed

/-- Every event comes at the right time. The notes account for the session that tells it; the node
of which it tells that it is complete has been entered last; and the node of which it tells that it
is entered is not complete. -/
def Orderly (log : List Entry) : Prop :=
  ∀ front e s back, log = front ++ told e s :: back →
    Accounts (front ++ [told e s]) s ∧
      (∀ n, e = .nodeCompleted n → (pending front).getLast? = some n) ∧
      ∀ n, e = .nodeEntered n → ¬Completed front n

namespace Orderly

variable {log : List Entry} {e : Event} {s : Session}

/-- What is noted last comes behind what has been noted. -/
theorem concat {x : Entry} (h : Orderly log) (hx : ∀ e s, x = told e s →
    Accounts (log ++ [x]) s ∧ (∀ n, e = .nodeCompleted n → (pending log).getLast? = some n) ∧
      ∀ n, e = .nodeEntered n → ¬Completed log n) : Orderly (log ++ [x]) := by
  refine forall_told_concat h ?_
  rintro e s rfl
  exact hx e s rfl

end Orderly

/-- The observer that notes what is told and how the session stands then. -/
def scribe : Observer (List Entry) where
  react e st := { st with host := st.host ++ [.told e st.session] }
  session_react _ _ := rfl
  setup_react _ _ := rfl
  files_react _ _ := rfl

/-- What has been noted on a stage is orderly and accounts for the session. -/
structure Stage.Noted (st : Stage (List Entry)) : Prop where
  orderly : Orderly st.host
  accounts : Accounts st.host st.session

namespace Stage.Noted

variable {st : Stage (List Entry)} {s : Session}

/-- Only the stack and what is complete matter for this. -/
theorem moved (h : st.Noted) (hnames : s.traversal.names = st.session.traversal.names)
    (hcompleted : s.traversal.completed = st.session.traversal.completed) :
    Noted { st with session := s } where
  orderly := h.orderly
  accounts :=
    { names := hnames.trans h.accounts.names
      nodup := by rw [hcompleted]; exact h.accounts.nodup
      completed := fun n => by rw [hcompleted]; exact h.accounts.completed n
      grows := fun e s' he => by rw [hcompleted]; exact h.accounts.grows e s' he }

/-- What is asked of helpers does not matter. -/
theorem asked (h : st.Noted) (c : Call) : (st.asked c).Noted := by
  unfold Stage.asked
  split
  · exact ⟨h.orderly, h.accounts⟩
  · exact h

/-- An event has been told. -/
theorem told {e : Event} (h : st.Noted)
    (hnames : s.traversal.names = follow (pending st.host) (.told e s))
    (hnodup : s.traversal.completed.Nodup)
    (hcompleted : ∀ n, n ∈ s.traversal.completed ↔
      n ∈ st.session.traversal.completed ∨ e = .nodeCompleted n)
    (hgrows : st.session.traversal.completed <+: s.traversal.completed)
    (hlast : ∀ n, e = .nodeCompleted n → st.session.traversal.names.getLast? = some n)
    (hnew : ∀ n, e = .nodeEntered n → n ∉ st.session.traversal.completed) :
    Noted (scribe.react e { st with session := s }) := by
  have haccounts : Accounts (st.host ++ [.told e s]) s := by
    refine ⟨by rw [pending_concat, hnames], hnodup, fun n => ?_, fun e' s' he' => ?_⟩
    · rw [hcompleted, completed_concat_told, h.accounts.completed]
    · rcases List.mem_append.mp he' with he' | he'
      · exact (h.accounts.grows e' s' he').trans hgrows
      · obtain ⟨-, rfl⟩ := Entry.told.inj (List.mem_singleton.mp he')
        exact List.prefix_refl _
  refine ⟨h.orderly.concat ?_, haccounts⟩
  rintro _ _ ⟨⟩
  refine ⟨haccounts, fun n he => ?_, fun n he hn => hnew n he ((h.accounts.completed n).mpr hn)⟩
  rw [← h.accounts.names]
  exact hlast n he

end Stage.Noted

/-- The era is the same, and what has been noted stays in order. -/
def Stage.StaysNoted (st st' : Stage (List Entry)) : Prop :=
  st'.session.retired = st.session.retired ∧ (st.Noted → st'.Noted)

namespace Act

/-- What has been noted stays in order where nodes are entered and completed. -/
theorem keptByNodes_noted : KeptByNodes scribe Stage.StaysNoted where
  refl st := ⟨rfl, id⟩
  trans h h' := ⟨h'.1.trans h.1, fun hst => h'.2 (h.2 hst)⟩
  shows st s' h := by
    obtain ⟨_, _, _, _, _, rfl⟩ := h
    exact ⟨rfl, fun hst => hst.moved rfl rfl⟩
  remarks st rs := ⟨rfl, fun hst => ⟨hst.orderly, hst.accounts⟩⟩
  asks st c _ := ⟨by simp, fun hst => hst.asked c⟩
  tells st e he := by
    -- an event of another kind changes nothing that the notes account for
    refine ⟨rfl, fun hst => ?_⟩
    have hfollow : follow (pending st.host) (.told e st.session) = pending st.host := by
      cases e <;> first | rfl | cases he
    exact hst.told (s := st.session) (by rw [hfollow, hst.accounts.names]) hst.accounts.nodup
      (fun n => by cases e <;> simp [Event.isOfNodes] at he ⊢) (List.prefix_refl _)
      (fun n hn => by subst hn; cases he) fun n hn => by subst hn; cases he
  moves st s' h := ⟨h.retired, fun hst => hst.moved h.names h.completed⟩
  retired h := h.1
  enters st n hn htop := by
    have hsession : st.session.entered n = { st.session with
        traversal := st.session.traversal.enter n.name n.context
        nodes := modifyLast (fun m => { m with line := st.session.traversal.cursor.line })
          st.session.nodes ++ [n] } := by
      simp only [Session.entered, htop, Bool.false_eq_true, if_false]
    rw [hsession]
    have hcompleted := st.session.traversal.completed_enter n.name n.context
    refine ⟨rfl, fun hst => hst.told ?_ ?_ ?_ ?_ ?_ ?_⟩
    · rw [follow, Traversal.names_enter, hst.accounts.names]
    · rw [hcompleted]
      exact hst.accounts.nodup
    · simp [hcompleted]
    · exact hcompleted ▸ List.prefix_refl _
    · intro m he
      cases he
    · intro m he
      obtain rfl := Event.nodeEntered.inj he
      exact hn
  completes st f htop := by
    refine ⟨rfl, fun hst => hst.told ?_ ?_ ?_ ?_ ?_ ?_⟩
    · rw [follow, Session.popped, Traversal.names_complete, hst.accounts.names]
    · exact Traversal.nodup_complete hst.accounts.nodup
    · intro n
      rw [Session.popped, Traversal.mem_completed_complete, Event.nodeCompleted.injEq, eq_comm]
    · exact Traversal.completed_prefix_complete _ _
    · intro m he
      obtain rfl := Event.nodeCompleted.inj he
      rw [Traversal.names, List.getLast?_map, ← Traversal.top, htop, Option.map_some]
    · intro m he
      cases he

/-- A command is carried out, and what has been noted stays in order. -/
theorem endures_noted : Endures scribe Stage.StaysNoted where
  toKeptByNodes := keptByNodes_noted
  takes st n text hc := by
    have hR := keptByNodes_noted
    unfold takeLine
    rw [if_pos hc]
    -- the history does not matter for the stack of nodes
    have hhistory : LeavesFrom Stage.StaysNoted st (edit fun s =>
        s.modifyTraversalOf st.session.era fun t => { t with history := t.history ++ [text] }) := by
      simp only [LeavesFrom, ends_edit, Session.era, Session.modifyTraversalOf_era]
      exact ⟨rfl, fun hst => hst.moved rfl rfl⟩
    refine hR.bind_from hhistory fun _ st₁ h₁ => ?_
    have hera : st.session.era = st₁.session.era := by rw [Session.era, Session.era, h₁.1]
    rw [hera]
    refine hR.bind_from hR.nextLine fun _ st₂ _ => ?_
    exact hR.bind (hR.dispatch (fun st c => ⟨by simp, fun hst => hst.asked c⟩) hR.goTo text false)
      (fun _ => hR.pure _) st₂

end Act

/-! ### Requests with notes -/

namespace Request

/-- The stage after a request, whether or not it succeeds. It is noted if the session is asked to
start. -/
def noted (r : Request) (st : Stage (List Entry)) : Stage (List Entry) :=
  r.after scribe.hear (if r.isStart then { st with host := st.host ++ [.begins] } else st)

/-- The stage after requests, whether or not they succeed, with notes. -/
def notedAll (rs : List Request) (st : Stage (List Entry)) : Stage (List Entry) :=
  rs.foldl (fun st r => r.noted st) st

/-- A request keeps what is noted in order. -/
theorem noted_noted {st : Stage (List Entry)} (h : st.Noted) (r : Request) :
    (r.noted st).Noted := by
  obtain ⟨st₁, hst₁⟩ : ∃ st₁ : Stage (List Entry),
      (if r.isStart then { st with host := st.host ++ [.begins] } else st) = st₁ := ⟨_, rfl⟩
  -- a start leaves no node on the stack, and it is noted that nothing is to be expected there
  have hbegun : (r.begun st₁).Noted := by
    rw [← hst₁, begun]
    split
    · refine ⟨h.orderly.concat (by rintro _ _ ⟨⟩), ?_⟩
      refine ⟨by rw [pending_concat]; rfl, h.accounts.nodup, fun n => ?_, fun e s he => ?_⟩
      · rw [completed_concat_begins]
        exact h.accounts.completed n
      · exact h.accounts.grows e s (by simpa using he)
    · exact h
  rw [noted, hst₁]
  exact after_of_ends ((Act.endures_noted.perform r).imp (fun _ _ hR => hR.2 hbegun)
    fun _ _ hR => hR.2 hbegun)

/-- A fresh session is asked to start, to enter nodes, and for whatever else, and what it is asked
may fail. Then the nodes on its stack are always those that have been entered since the last start
and not been completed, in their order; each node that is completed has been entered last. The
complete nodes are those of which this has been told, each of them once; they only become more, and
none of them is entered any more. -/
theorem bracketed (st : Stage (List Entry)) (settings : Settings) (vars : Variables)
    (rs : List Request) :
    let st' := notedAll rs { st with session := { settings, vars }, host := [] }
    Orderly st'.host ∧ Accounts st'.host st'.session := by
  suffices hall : ∀ st : Stage (List Entry), st.Noted → (notedAll rs st).Noted by
    have hfresh : Stage.Noted { st with session := { settings, vars }, host := [] } := by
      refine ⟨fun front e s back heq => by simp at heq, rfl, List.nodup_nil, fun n => ?_, ?_⟩
      · simp [Completed]
      · simp
    exact ⟨(hall _ hfresh).orderly, (hall _ hfresh).accounts⟩
  -- on the requests: each of them keeps what is noted in order
  induction rs with
  | nil => exact fun st h => h
  | cons r rs ih => exact fun st h => ih _ (noted_noted h r)

end Request

end VisualNovel
