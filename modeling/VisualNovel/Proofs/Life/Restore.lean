import VisualNovel.Proofs.Life.Keeping
import VisualNovel.Proofs.Traversal.Stored
import VisualNovel.Session.Restore

/-!
# How a session is restored

To restore a session, the nodes of its frames are looked for, the traversal is checked against them,
the scene is rebuilt from the history, and the session runs on. Up to that run all of this comes to
one session, which is that of the traversal. If the traversal is refused, the declarations that were
read on the way are undone.

## Main definitions

* `Shelf.load`: what becomes of the variables when the nodes of frames are looked for;
* `Stage.Declared`: a stage on which declarations have been read;
* `Session.takenUp`: the session with which the run begins when a traversal is taken up.

## Main results

* `Act.restore_ends_of_load`: a stored traversal is refused, or it is taken up;
* `Act.restore_ends`: restoring a traversal that can be read comes to a run of this session;
* `Act.restore_unreadable`: a traversal that cannot be read is not restored.
-/

namespace VisualNovel

namespace Shelf

/-- The scripts hold the node of a frame. -/
def Holds (w : Shelf) (f : Frame) (n : Node) : Prop :=
  ∃ vs, (w.find vs f.node f.context).result = .ok n

/-- The nodes of frames, or why there is none for one of them, and the variables after the
declarations that were read on the way. -/
def load (w : Shelf) (vs : Variables) : List Frame → Except Failure (List Node) × Variables
  | [] => (.ok [], vs)
  | f :: fs =>
    match (w.find vs f.node f.context).result with
    | .error e => (.error e, (w.find vs f.node f.context).vars)
    | .ok n =>
      let (rest, vs') := w.load (w.find vs f.node f.context).vars fs
      (rest.map fun ns => n :: ns, vs')

/-- Nodes that the scripts hold are loaded. -/
theorem load_of_holds {w : Shelf} {fs : List Frame} {ns : List Node}
    (h : List.Forall₂ w.Holds fs ns) (vs : Variables) : (w.load vs fs).1 = .ok ns := by
  induction h generalizing vs with
  | nil => rfl
  | @cons f n fs ns hn _ ih =>
    obtain ⟨vs', hn⟩ := hn
    have hfind : (w.find vs f.node f.context).result = .ok n := by
      rw [find, Script.search_congr vs vs']
      exact hn
    simp only [load, hfind]
    rw [ih]
    rfl

end Shelf

/-- A traversal is refused: its nodes cannot be loaded, as a matter of dialogue, or it does not fit
them. -/
def Shelf.Refuses (w : Shelf) (vs : Variables) (t : Traversal) : Prop :=
  match (w.load vs t.frames).1 with
  | .error f => f.isDialogue
  | .ok ns => (t.misfit? ns).isSome

/-- The session that runs on when a traversal is taken up. Its line is in the transcript already,
and nothing is known of the blocks that have been entered. -/
def Session.takenUp (s : Session) (t : Traversal) (nodes : List Node) : Session :=
  { s.resumed t nodes with
    seen := []
    unrecorded := some (nodes.length, t.cursor.line) }

namespace Act

variable {σ : Type} {st : Stage σ} (o : Observer σ)

section Specs

variable {Q : Unit → Stage σ → Prop} {E : Failure → Stage σ → Prop}

/-- How the nodes of frames are loaded. -/
theorem loadNodes_ends {fs : List Frame} {Q : List Node → Stage σ → Prop}
    (hok : ∀ ns vs st', st.shelf.load st.session.vars fs = (.ok ns, vs) → st.Declared st' vs →
      Q ns st')
    (herror : ∀ f vs st', st.shelf.load st.session.vars fs = (.error f, vs) →
      st.Declared st' vs → E f st') : Ends (loadNodes fs) st Q E := by
  induction fs generalizing st Q with
  | nil => exact hok [] st.session.vars st rfl ⟨[], by simp [Session.withVars]⟩
  | cons f fs ih =>
    simp only [loadNodes, ends_bind]
    refine findScript_ends (fun n st₁ hn h₁ => ?_) fun e st₁ he h₁ => ?_
    · -- the remaining nodes are loaded with the variables that the first one has left
      have hload : st.shelf.load st.session.vars (f :: fs) =
          ((st₁.shelf.load st₁.session.vars fs).1.map fun ns => n :: ns,
            (st₁.shelf.load st₁.session.vars fs).2) := by
        obtain ⟨remarks, rfl⟩ := h₁
        simp only [Shelf.load, hn]
        rfl
      refine ih (fun ns vs st₂ hns h₂ => ?_) fun e vs st₂ he h₂ => ?_
      · exact hok _ vs st₂ (by rw [hload, hns]; rfl) (h₁.trans h₂)
      · exact herror e vs st₂ (by rw [hload, he]; rfl) (h₁.trans h₂)
    · exact herror e _ st₁ (by simp only [Shelf.load, he]) h₁

/-- How the nodes of a traversal are loaded. If it is refused, the variables are what they were
before; if loading fails in a way that is no matter of dialogue, they are not. -/
theorem loadOrUndo_ends {t : Traversal} {Q : List Node → Stage σ → Prop}
    (hok : ∀ ns vs st', st.shelf.load st.session.vars t.frames = (.ok ns, vs) →
      t.misfit? ns = none → st.Declared st' vs → Q ns st')
    (hrefused : ∀ f st', f.isRestore → st.shelf.Refuses st.session.vars t →
      st.Declared st' st.session.vars → E f st')
    (hbroken : ∀ f vs st', st.shelf.load st.session.vars t.frames = (.error f, vs) →
      f.isDialogue = false → st.Declared st' vs → E f st') :
    Ends (loadOrUndo t) st Q E := by
  -- the declarations are undone
  have hundone {f : Failure} {vs : Variables} {st₁ : Stage σ}
      (hrefuses : st.shelf.Refuses st.session.vars t) (h₁ : st.Declared st₁ vs) :
      E (if f.isRestore then f else .unresumable f)
        { st₁ with session := { st₁.session with vars := st.session.vars } } := by
    refine hrefused _ _ ?_ hrefuses ?_
    · split
      · assumption
      · rfl
    · obtain ⟨remarks, rfl⟩ := h₁
      exact ⟨remarks, rfl⟩
  simp only [loadOrUndo, loadFitting, ends_bind, ends_session, ends_attempt]
  refine loadNodes_ends (fun ns vs st₁ hload h₁ => ?_) fun f vs st₁ hload h₁ => ?_
  · -- nodes that have been found may still not fit what is stored of them
    cases hm : t.misfit? ns with
    | none =>
      simp only [ends_pure]
      exact hok ns vs st₁ hload hm h₁
    | some m =>
      simp only [ends_throw, Failure.isDialogue, if_true, ends_edit]
      exact hundone (by simp [Shelf.Refuses, hload, hm]) h₁
  · split
    · next hdialogue =>
      simp only [ends_edit, ends_throw]
      exact hundone (by simp [Shelf.Refuses, hload, hdialogue]) h₁
    · next hdialogue => exact hbroken f vs st₁ hload (by simpa using hdialogue) h₁

/-- How a stored traversal is restored: it is refused, loading it fails in another way, or it is
taken up. -/
theorem restore_ends_of_load {hear : Listener σ} {stored : String}
    (hrefused : ∀ f st', f.isRestore →
      (∀ t, Traversal.ofText stored = .valid t → t.frames ≠ [] →
        st.shelf.Refuses st.session.vars t) →
      st.Declared st' st.session.vars → E f st')
    (hbroken : ∀ t f vs st', Traversal.ofText stored = .valid t → t.frames ≠ [] →
      st.shelf.load st.session.vars t.frames = (.error f, vs) → f.isDialogue = false →
      st.Declared st' vs → E f st')
    (hresume : ∀ t ns vs st', Traversal.ofText stored = .valid t → t.frames ≠ [] →
      st.shelf.load st.session.vars t.frames = (.ok ns, vs) → t.misfit? ns = none →
      st.Declared st' vs → Ends (resumeAt hear t ns) st' Q E) :
    Ends (restore hear stored) st Q E := by
  have hsame : st.Declared st st.session.vars := ⟨[], by simp [Session.withVars]⟩
  -- the text is checked, then that it has frames, then the nodes are loaded
  unfold restore
  cases ht : Traversal.ofText stored with
  | invalid ps => exact hrefused _ st rfl (by simp [ht]) hsame
  | valid t =>
    simp only [ends_bind, ends_ite, ends_throw]
    split
    · next hframes =>
      refine hrefused _ st rfl (fun t' ht' hframes' => ?_) hsame
      obtain rfl := Checked.valid.inj (ht.symm.trans ht')
      exact absurd (List.isEmpty_iff.mp hframes) hframes'
    · next hframes =>
      have hframes : t.frames ≠ [] := by simpa using hframes
      refine loadOrUndo_ends (fun ns vs st' => hresume t ns vs st' ht hframes) ?_
        fun f vs st' => hbroken t f vs st' ht hframes
      refine fun f st' hf hrefuses h' => hrefused f st' hf (fun t' ht' _ => ?_) h'
      obtain rfl := Checked.valid.inj (ht.symm.trans ht')
      exact hrefuses

/-- A stored traversal of some node is restored by loading its nodes and taking it up. -/
theorem restore_of_valid {hear : Listener σ} {stored : String} {t : Traversal}
    (ht : Traversal.ofText stored = .valid t) (hframes : t.frames ≠ []) :
    restore hear stored = loadOrUndo t >>= resumeAt hear t := by
  have hframes : t.frames.isEmpty = false := by simpa using hframes
  unfold restore
  rw [ht]
  simp only [hframes, Bool.false_eq_true, if_false]

/-- How a scene is rebuilt. No node is entered. -/
theorem replay_ends {goTo : String → Act σ Unit} {lines : List String}
    (h : ∀ st', st.Follows st' st.session → Q () st') :
    Ends (replay o.hear goTo lines) st Q E := by
  -- on the lines of the scene, none of which goes to a node when it is replayed
  induction lines generalizing st with
  | nil => exact h st (.refl st)
  | cons line lines ih =>
    simp only [replay, ends_bind]
    refine dispatch_ends o (fun _ st₁ h₁ => ih fun st₂ h₂ => ?_) ?_
    · exact h st₂ (h₁.trans h₂ h₁.session)
    · intro hreplay
      cases hreplay

/-- How a traversal is taken up whose nodes have been loaded. -/
theorem resumeAt_ends {t : Traversal} {ns : List Node} {R : Stage σ → Prop}
    (hsteps : ∀ st', st.Follows st' (st.session.takenUp t ns) →
      Ends (steps o.hear st'.session.era st'.setup.patience) st' (fun _ => R) E)
    (hok : ∀ st', R st' → Q () { st' with session := { st'.session with unrecorded := none } })
    (hempty : ∀ st', R st' →
      ((st'.session.nodesOf (st.session.retiredNodes.length + 1)).isEmpty) →
      E .noElement { st' with session := { st'.session with unrecorded := none } }) :
    Ends (resumeAt o.hear t ns) st Q E := by
  simp only [resumeAt, ends_bind, ends_edit, ends_session]
  refine replay_ends o fun st₁ h₁ => ?_
  simp only [ends_edit, run, ends_bind, ends_session, ends_get]
  -- the scene that has been rebuilt is on show only
  have hlike : (st.session.takenUp t ns).Alike { st₁.session with
      seen := []
      unrecorded := some (ns.length, t.cursor.line) } := by
    obtain ⟨_, _, _, _, _, hs₁⟩ := h₁.session
    dsimp only at hs₁ ⊢
    rw [hs₁]
    exact ⟨_, _, _, _, _, rfl⟩
  have hrun := hsteps { st₁ with session := { st₁.session with
    seen := []
    unrecorded := some (ns.length, t.cursor.line) } } ⟨h₁.setup, h₁.files, hlike⟩
  refine hrun.imp (fun _ st₂ h₂ => ?_) fun _ _ hf => hf
  -- the resumed nodes are the first behind the retired ones
  have hera : (st.session.resumed t ns).nodesEra = st.session.retiredNodes.length + 1 := by
    simp [Session.nodesEra, Session.resumed, Session.replaceNodes, Session.cleared]
  rw [hera]
  simp only [ends_ite]
  split
  · next hnone => exact hempty st₂ h₂ hnone
  · exact hok st₂ h₂

/-- A session that is restored looks for nodes where the one before it did. -/
theorem restore_shelf (stored : String) (st : Stage σ) :
    Ends (restore o.hear stored) st (fun _ st' => st'.shelf = st.shelf) fun _ _ => True := by
  refine restore_ends_of_load (fun _ _ _ _ _ => trivial) (fun _ _ _ _ _ _ _ _ _ => trivial) ?_
  intro t ns vs st₁ _ _ _ _ h₁
  refine resumeAt_ends o (R := fun st' => st'.shelf = st.shelf) (fun st₂ h₂ => ?_) (fun _ h => h)
    fun _ _ _ => trivial
  refine steps_induction o (P := fun st' => st'.shelf = st.shelf) (fun st₃ h₃ => ?_)
    (fun _ _ => trivial) _ (h₂.shelf.trans h₁.follows.shelf)
  refine (step_shelf o st₃).imp (fun goesOn st₄ h₄ => ?_) fun _ _ _ => trivial
  cases goesOn <;> exact h₄.trans h₃

/-- How a stored traversal is restored that is not empty, whose nodes are found and that fits
them. -/
theorem restore_ends {w : Shelf} (hw : st.shelf = w) {t : Traversal} {ns : List Node}
    {R : Stage σ → Prop} (ht : t.Storable) (hframes : t.frames ≠ [])
    (hfound : List.Forall₂ w.Holds t.frames ns)
    (hfits : t.misfit? ns = none)
    (hsteps : ∀ st', st.Follows st' (st.session.takenUp t ns) →
      Ends (steps o.hear st'.session.era st'.setup.patience) st' (fun _ => R) E)
    (hok : ∀ st', R st' → Q () { st' with session := { st'.session with unrecorded := none } })
    (hempty : ∀ st', R st' →
      ((st'.session.nodesOf (st.session.retiredNodes.length + 1)).isEmpty) →
      E .noElement { st' with session := { st'.session with unrecorded := none } }) :
    Ends (restore o.hear t.toText) st Q E := by
  have hload := Shelf.load_of_holds (hw ▸ hfound) st.session.vars
  have hnot : ¬st.shelf.Refuses st.session.vars t := by simp [Shelf.Refuses, hload, hfits]
  -- of the three ways only the last is left, where the session is taken up
  refine restore_ends_of_load (fun f st' _ hrefuses _ => ?_) ?_ ?_
  · exact absurd (hrefuses t (Traversal.ofText_toText ht) hframes) hnot
  · intro t' f vs st' ht' _ hf _ _
    obtain rfl := Checked.valid.inj ((Traversal.ofText_toText ht).symm.trans ht')
    rw [hf] at hload
    cases hload
  · intro t' ns' vs st₁ ht' _ hns _ h₁
    obtain rfl := Checked.valid.inj ((Traversal.ofText_toText ht).symm.trans ht')
    obtain rfl : ns' = ns := Except.ok.inj ((congrArg Prod.fst hns).symm.trans hload)
    obtain ⟨_, _, _, _, _, hs₁⟩ := h₁.follows.session
    refine resumeAt_ends o (fun st₂ h₂ => ?_) hok ?_
    · refine hsteps st₂ (h₁.follows.trans h₂ ?_)
      rw [hs₁]
      exact ⟨_, _, _, _, _, rfl⟩
    · rw [hs₁]
      exact hempty

/-- A stored traversal that cannot be read is not restored. -/
theorem restore_unreadable {t : Traversal} (ht : ¬t.Storable) (h : ∀ f st', E f st') :
    Ends (restore o.hear t.toText) st Q E := by
  unfold restore
  rw [Traversal.ofText_toText_of_not ht]
  exact h _ st

end Specs

end Act

end VisualNovel
