import VisualNovel.Proofs.Layout.Compile
import VisualNovel.Proofs.Life.Basic

/-!
# What sessions keep

Whatever a session is asked to do, it stays in its era and keeps the settings of the reader, and the
names of its variables stay distinct. While it runs, what is complete stays complete, and a complete
node is not entered.

## Main definitions

* `Session.Keeps`: a session has become another one, and has kept what every input keeps;
* `Session.Gone`: a node is complete, and it is not on the stack at a depth.

## Main results

* `Session.Step.keeps`, `Session.Rests.keeps`, `Session.Begins.keeps`: steps and inputs keep this;
* `Life.distinct`: the names of variables are distinct throughout a life;
* `Session.Step.gone`: what is gone does not come back;
* `Act.steps_induction`: what becomes of a run is decided step by step;
* `Act.steps_keep`: what every step keeps is kept by a run.
-/

namespace VisualNovel

namespace Traversal

variable (t : Traversal) (node context : String)

/-- The names of the nodes on the stack, innermost last. -/
def names : List String := t.frames.map Frame.node

/-- Entering a node puts its name on top. -/
theorem names_enter : (t.enter node context).names = t.names ++ [node] := by
  rcases List.eq_nil_or_concat t.frames with hnil | ⟨fs, f, hfs⟩
  · simp [enter, names, hnil]
  · simp [enter, names, hfs]

/-- Completing a node takes the name off the top. -/
theorem names_complete : (t.complete node).names = t.names.dropLast := by
  simp [complete, names]

/-- Coming back leaves the names as they are. -/
theorem names_comeBack : t.comeBack.names = t.names := by
  rcases List.eq_nil_or_concat t.frames with hnil | ⟨fs, f, hfs⟩
  · simp [comeBack, names, hnil]
  · simp [comeBack, names, hfs]

theorem completed_enter : (t.enter node context).completed = t.completed := by
  unfold enter
  split <;> rfl

theorem completed_comeBack : t.comeBack.completed = t.completed := by
  unfold comeBack
  split <;> rfl

/-- A node that is taken off the stack is complete. -/
theorem mem_complete : node ∈ (t.complete node).completed := by
  unfold complete
  dsimp only
  split
  · next h => simpa using h
  · exact List.mem_append_right _ (List.mem_singleton_self node)

/-- What is complete stays complete. -/
theorem completed_subset_complete : t.completed ⊆ (t.complete node).completed := by
  unfold complete
  dsimp only
  split
  · exact List.Subset.refl _
  · exact List.subset_append_left _ _

end Traversal

namespace Session

/-- A session has become another one in the same era, with the same settings, and with distinct
names of variables if they were distinct before. -/
structure Keeps (s s' : Session) : Prop where
  /-- The era is the same. -/
  retired : s'.retired = s.retired
  /-- The settings are the same. -/
  settings : s'.settings = s.settings
  /-- The names of variables stay distinct. -/
  distinct : s.vars.Distinct → s'.vars.Distinct

variable {w : Shelf} {s s' s'' : Session}

theorem Keeps.refl (s : Session) : s.Keeps s := ⟨rfl, rfl, id⟩

theorem Keeps.trans (h : s.Keeps s') (h' : s'.Keeps s'') : s.Keeps s'' :=
  ⟨h'.retired.trans h.retired, h'.settings.trans h.settings, fun hs => h'.distinct (h.distinct hs)⟩

/-- The number of the era is the same. -/
theorem Keeps.era (h : s.Keeps s') : s'.era = s.era := congrArg List.length h.retired

/-- What is on show does not matter. -/
theorem Alike.keeps (h : s.Alike s') : s.Keeps s' := by
  obtain ⟨_, _, _, _, _, rfl⟩ := h
  exact ⟨rfl, rfl, id⟩

/-- Declarations that are read when a node is looked for keep names distinct. -/
theorem keeps_find (vs : Variables) (hvs : s.vars.Distinct → vs.Distinct) (name context : String) :
    s.Keeps (s.withVars (w.find vs name context).vars) :=
  ⟨rfl, rfl, fun h => Script.search_distinct _ _ _ _ (hvs h)⟩

theorem keeps_entered (n : Node) : s.Keeps (s.entered n) := by
  unfold entered
  split <;> exact ⟨rfl, rfl, id⟩

theorem GoesTo.keeps {name : String} (h : s.GoesTo w name s') : s.Keeps s' := by
  cases h with
  | completed _ => exact .refl s
  | empty _ _ _ => exact keeps_find s.vars id _ _
  | lost _ _ _ => exact (keeps_find s.vars id _ _).trans ⟨rfl, rfl, id⟩
  | entered _ _ _ _ => exact (keeps_find s.vars id _ _).trans (keeps_entered _)

/-- A step stays in the era and keeps the settings and names distinct. -/
theorem Step.keeps {goesOn : Bool} (h : s.Step w goesOn s') : s.Keeps s' := by
  -- only a command that goes to a node reads declarations
  cases h with
  | command _ _ _ _ hs' =>
    rcases hs' with rfl | ⟨_, -, hgoes⟩
    · exact ⟨rfl, rfl, id⟩
    · have hnext (m : Motion) (c : Cursor) (text : String) :
          s.Keeps ((s.passed m c).noted text).atNextLine := ⟨rfl, rfl, id⟩
      exact (hnext _ _ _).trans hgoes.keeps
  | _ => exact ⟨rfl, rfl, id⟩

/-- A step does not put the stack of nodes aside. -/
theorem Step.retiredNodes_eq {goesOn : Bool} (h : s.Step w goesOn s') :
    s'.retiredNodes = s.retiredNodes := by
  cases h with
  | @command n m c text s' _ _ _ _ hs' =>
    rcases hs' with rfl | ⟨_, -, hgoes⟩
    · rfl
    cases hgoes with
    | entered _ _ _ _ =>
      unfold entered
      split <;> rfl
    | _ => rfl
  | _ => rfl

/-- An input that is not followed by a run keeps the same. -/
theorem Rests.keeps {i : Input} (h : s.Rests w i s') : s.Keeps s' := by
  have hfresh : s.Keeps s.fresh := ⟨rfl, rfl, id⟩
  cases h with
  | @ended _ _ vs hvs =>
    refine ⟨rfl, rfl, fun h => ?_⟩
    rcases hvs with rfl | rfl
    · exact h
    · exact Script.search_distinct _ _ _ _ h
  | lost _ _ =>
    exact (hfresh.trans (keeps_find (s := s.fresh) s.vars id _ _)).trans ⟨rfl, rfl, id⟩
  | unreadable _ _ => exact hfresh.trans (keeps_find (s := s.fresh) s.vars id _ _)
  | _ => exact ⟨rfl, rfl, id⟩

/-- So does an input that is followed by a run. -/
theorem Begins.keeps {i : Input} {seen : List Visit} (h : s.Begins w i seen s') : s.Keeps s' := by
  cases h with
  | start _ _ _ =>
    have hfresh : s.Keeps s.fresh := ⟨rfl, rfl, id⟩
    exact (hfresh.trans (keeps_find (s := s.fresh) s.vars id _ _)).trans (keeps_entered _)
  | _ => exact ⟨rfl, rfl, id⟩

/-- A node of the name is complete, and it is not on the stack above so many others. -/
def Gone (name : String) (k : Nat) (s : Session) : Prop :=
  name ∈ s.traversal.completed ∧ s.traversal.names[k]? ≠ some name

namespace Gone

variable {name : String} {k : Nat}

/-- Only the stack and what is complete matter for this. -/
theorem congr (h : s.Gone name k) (hcompleted : s'.traversal.completed = s.traversal.completed)
    (hframes : s'.traversal.frames = s.traversal.frames) : s'.Gone name k := by
  rw [Gone, Traversal.names, hcompleted, hframes]
  exact h

/-- What is on show does not matter for this. -/
theorem of_alike (h : s.Gone name k) (hs : s.Alike s') : s'.Gone name k := by
  obtain ⟨_, _, _, _, _, rfl⟩ := hs
  exact h

/-- A node that has been taken off the stack is gone. -/
theorem of_finished (f : Frame) : (s.finished f).Gone f.node (s.traversal.frames.length - 1) := by
  constructor
  · rw [finished, Traversal.completed_comeBack]
    exact s.traversal.mem_complete f.node
  · rw [finished, Traversal.names_comeBack, Traversal.names_complete]
    rw [List.getElem?_eq_none (by simp [Traversal.names])]
    simp

/-- Taking another node off the stack does not bring it back. -/
theorem finished (h : s.Gone name k) (f : Frame) : (s.finished f).Gone name k := by
  constructor
  · rw [Session.finished, Traversal.completed_comeBack]
    exact s.traversal.completed_subset_complete f.node h.1
  · rw [Session.finished, Traversal.names_comeBack, Traversal.names_complete]
    rw [List.getElem?_dropLast]
    split
    · exact h.2
    · simp

/-- A node that has not been complete can be entered. -/
theorem entered (h : s.Gone name k) {n : Node} (hn : n.name ∉ s.traversal.completed) :
    (s.entered n).Gone name k := by
  unfold Session.entered
  split
  · exact h
  refine ⟨by rw [Traversal.completed_enter]; exact h.1, ?_⟩
  rw [Traversal.names_enter, List.getElem?_append]
  split
  · exact h.2
  · -- the name that has come on top is not complete, so it is another one
    rintro hk
    obtain rfl := List.mem_singleton.mp (List.mem_of_getElem? hk)
    exact hn h.1

/-- Following a command does not bring it back. -/
theorem goesTo (h : s.Gone name k) {node : String} (hgoes : s.GoesTo w node s') :
    s'.Gone name k := by
  cases hgoes with
  | completed _ => exact h
  | empty _ _ _ => exact h
  | lost _ _ _ => exact h
  | @entered context n hnew _ hn _ =>
    have hvars : (s.withVars (w.find s.vars node context).vars).Gone name k := h
    obtain ⟨hname, -, -⟩ := Script.search_header hn
    -- a node that is complete is not looked for, so the one that is entered was not
    refine hvars.entered ?_
    have hnew : node ∉ s.traversal.completed := by simpa using hnew
    rw [hname]
    exact hnew

end Gone

/-- A step does not bring back what is gone. -/
theorem Step.gone {goesOn : Bool} {name : String} {k : Nat} (h : s.Step w goesOn s')
    (hgone : s.Gone name k) : s'.Gone name k := by
  cases h with
  | halted _ => exact hgone
  | nowhere _ => exact hgone
  | finish _ _ _ _ _ => exact hgone.finished _
  | finishLast _ _ _ _ _ => exact hgone.finished _
  | ask _ => exact hgone
  | move _ _ => exact hgone
  | @command n m c text s' _ _ _ _ hs' =>
    have hnext : ((s.passed m c).noted text).atNextLine.Gone name k := hgone
    rcases hs' with rfl | ⟨_, -, hgoes⟩
    · exact hnext
    · exact hnext.goesTo hgoes
  | skip _ _ _ _ _ => exact hgone
  | present _ _ _ _ _ _ =>
    refine hgone.congr ?_ ?_
    · unfold presented recorded modifyNode
      dsimp only
      split <;> rfl
    · unfold presented recorded modifyNode
      dsimp only
      split <;> rfl

end Session

namespace Act

variable {σ : Type} (o : Observer σ)

/-- If every step of a run keeps `P` as long as the run goes on, and comes to `Q` or to `E` when it
does not, then so does the run. -/
theorem steps_induction {P Q : Stage σ → Prop} {E : Failure → Stage σ → Prop}
    (hstep : ∀ st, P st → Ends (step o.hear st.session.era) st
      (fun goesOn st' => if goesOn then P st' else Q st') E)
    (hendless : ∀ st, P st → E .endless st) (k : Nat) {st : Stage σ} (h : P st) :
    Ends (steps o.hear st.session.era k) st (fun _ => Q) E := by
  -- on the number of steps that are left before the run is taken to be endless
  induction k generalizing st with
  | zero => exact hendless st h
  | succ k ih =>
    rw [steps, ends_bind]
    refine (hstep st h).and_eq.imp ?_ fun _ _ ⟨hf, _⟩ => hf
    rintro goesOn st' ⟨hends, hresult⟩
    cases goesOn with
    | false => exact hends
    | true =>
      obtain ⟨s', hs', hfollows⟩ := (step_ends st o).of_ok hresult
      -- a step stays in the era, so the rest of the run is one of the new session
      have hera := (hs'.keeps.trans hfollows.session.keeps).era
      simp only [if_true]
      rw [← hera]
      exact ih hends

/-- The same for a run that begins with visits. -/
theorem run_induction {P Q : Stage σ → Prop} {E : Failure → Stage σ → Prop}
    (hstep : ∀ st, P st → Ends (step o.hear st.session.era) st
      (fun goesOn st' => if goesOn then P st' else Q st') E)
    (hendless : ∀ st, P st → E .endless st) {seen : List Visit} {st : Stage σ}
    (h : P { st with session := { st.session with seen } }) :
    Ends (run o.hear seen) st (fun _ => Q) E := by
  simp only [run, ends_bind, ends_edit, ends_session, ends_get]
  exact steps_induction o hstep hendless st.setup.patience h

/-- A step looks for nodes where the ones before it did. -/
theorem step_shelf (st : Stage σ) : Ends (step o.hear st.session.era) st
    (fun _ st' => st'.shelf = st.shelf) fun _ _ => True :=
  (step_ends st o).imp (fun _ _ ⟨_, _, hfollows⟩ => hfollows.shelf) fun _ _ _ => trivial

/-- What every step keeps is kept by a run. -/
theorem steps_keep {P : Session → Prop} (halike : ∀ s s', s.Alike s' → P s → P s')
    (hstep : ∀ w goesOn s s', Session.Step w s goesOn s' → P s → P s') (k : Nat) (st : Stage σ)
    (h : P st.session) :
    Ends (steps o.hear st.session.era k) st (fun _ st' => P st'.session) fun _ _ => True := by
  refine steps_induction o (P := fun st => P st.session) (fun st h => ?_) (fun _ _ => trivial) k h
  refine (step_ends st o).imp (fun goesOn st' hends => ?_) fun _ _ _ => trivial
  obtain ⟨s', hs', hfollows⟩ := hends
  have hkept : P st'.session := halike _ _ hfollows.session (hstep _ _ _ _ hs' h)
  cases goesOn <;> exact hkept

end Act

/-- Throughout a life the names of variables are distinct. -/
theorem Life.distinct {σ : Type} {o : Observer σ} {w : Shelf} {running : Bool} {s : Session}
    {ys : List Stay} (h : Life o w running s ys) : s.vars.Distinct := by
  -- every event of a life leads from one session to another that keeps names distinct
  induction h with
  | fresh _ hvars => exact hvars
  | @rests _ _ _ st _ _ hs i hi ih | @begins _ _ _ st _ _ hs i _ hi ih =>
    subst hs
    obtain ⟨s', hs', hfollows⟩ := (Input.prepare_ends st o i).of_ok hi
    exact (hs'.keeps.trans hfollows.session.keeps).distinct ih
  | @fails s _ _ st st' _ hs i _ hi ih =>
    subst hs
    obtain ⟨s', hs', hfollows⟩ := (Input.prepare_ends st o i).of_error hi
    exact (hs'.keeps.trans hfollows.session.keeps).distinct ih
  | @steps s _ _ st st' _ hs _ hstep ih =>
    subst hs
    obtain ⟨s', hs', hfollows⟩ := (Act.step_ends st o).of_ok hstep
    exact (hs'.keeps.trans hfollows.session.keeps).distinct ih

end VisualNovel
