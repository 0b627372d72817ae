import VisualNovel.Proofs.Life.Accepting
import VisualNovel.Proofs.Save.Rotating

/-!
# Automatic saves at a start

A session that has started asks for an automatic save when it has come to its first rest. Whatever
it was before, it then is at some place, or it is over: its run may have gone through the node and
everything that the node leads to. A save of a session that is at some place can be resumed. A save
of a session that is over cannot, and it takes the place of an older one all the same.

## Main results

* `Input.start_prepare_ends`: what a session that starts is before it runs;
* `Input.start_placed`: whatever a session tells from its start on is told at the right place;
* `Input.autoSave_at_start`: what becomes of the save that is asked for at a start.
-/

namespace VisualNovel

open Act Entry

/-- What is stored of a session in no node is refused. -/
theorem Shelf.rejects_of_over {w : Shelf} {t : Traversal} (ht : t.Storable)
    (hframes : t.frames = []) : w.Rejects t.toText := by
  rintro σ hear st -
  unfold restore
  rw [Traversal.ofText_toText ht]
  simp only [hframes, List.isEmpty_nil, if_true]
  exact rfl

namespace Input

variable {st : Stage (List Entry)} {node context : String}

/-- A session that starts is in the node at which it starts, and runs on; or else it is in no
node. -/
theorem start_prepare_ends {σ : Type} (o : Observer σ) (st : Stage σ) :
    Ends ((Input.start node context).prepare o.hear) st
      (fun r st' => match r with
        | some seen => st'.shelf = st.shelf ∧
            ∃ ys, { st'.session with seen }.Running st.shelf ys
        | none => st'.session.traversal.frames = [])
      fun _ st' => st'.session.traversal.frames = [] := by
  have hframes {st' : Stage σ} {vs : Variables}
      (h : Stage.Follows { st with session := st.session.fresh } st'
        (st.session.fresh.withVars vs)) : st'.session.traversal.frames = [] := by
    obtain ⟨_, _, _, _, _, hs⟩ := h.session
    rw [hs]
    rfl
  -- a session that ends has left all its nodes
  have hend {st' : Stage σ} (h : st'.session.traversal.frames = []) :
      Ends (endSession o.hear) st' (fun _ st'' => st''.session.traversal.frames = [])
        fun _ st'' => st''.session.traversal.frames = [] := by
    simpa [endSession, ends_bind, Session.cleared] using h
  simp only [prepare, ends_bind, ends_edit, ends_ite, ends_pure]
  refine openNode_ends o ?_ ?_ ?_ ?_ ?_
  · exact fun _ => hend rfl
  · exact fun n st' _ _ _ h => hend (hframes h)
  · intro n st' _ hn _ h
    exact ⟨h.shelf, _, (Session.running_start hn _).of_alike (h.session.remembering [])⟩
  · intro f st' _ _ _ h
    obtain ⟨_, _, _, _, _, hs⟩ := h.session
    rw [hs]
    rfl
  · exact fun f st' _ _ _ h => hframes h

/-- Whatever a session tells from its start on is told at the right place, whatever the session was
before. -/
theorem start_placed (hlegible : st.shelf.Legible) (hplaced : st.Placed st.shelf) :
    Ends ((Input.start node context).perform scribe.hear) st
      (fun _ st' => st'.Placed st.shelf) fun _ st' => st'.Placed st.shelf := by
  refine (perform_ends_of_prepare scribe (E := fun _ st' => st'.Placed st.shelf)
    (Q := fun st' => st'.session.Sits st.shelf ∧ st'.Placed st.shelf)
    ?_ ?_).imp (fun _ _ h => h.2) fun _ _ h => h
  · rintro e st' ⟨hsits, hplaced'⟩
    exact ⟨hsits, hplaced'.of_tells (tells_hear e) hsits⟩
  refine ((start_prepare_ends scribe st).and ((Input.start node context).prepare_tells)).imp ?_ ?_
  · rintro (_ | seen) st' ⟨h, htells⟩
    · exact ⟨.inl h, hplaced.of_tells htells (.inl h)⟩
    · obtain ⟨hshelf, ys, hrunning⟩ := h
      refine (run_placed hlegible hrunning hshelf (hplaced.of_tells htells hrunning.sits)).imp ?_
        fun _ _ h => h
      rintro _ st₁ ⟨⟨ys₁, hrest⟩, hplaced₁⟩
      exact ⟨hrest.sits, hplaced₁⟩
  · rintro f st' ⟨h, htells⟩
    exact hplaced.of_tells htells (.inl h)

section AtStart

variable (hlegible : st.shelf.Legible) (hhost : st.host = []) {name : String} {s : Session}
  (htold : told (.autoSaveRequested name) s ∈
    ((Request.input (.start node context)).after scribe.hear st).host)

include hlegible hhost htold

/-- What is saved of a session that asks for this at its start is accepted exactly if the session is
in a node. -/
theorem accepts_at_start (hstorable : s.snapshot.Storable) :
    st.shelf.Accepts s.stored ↔ s.traversal.frames ≠ [] := by
  constructor
  · intro haccepts hframes
    exact (Shelf.rejects_of_over hstorable hframes).not_accepts st haccepts
  · intro hframes
    have hnothing : st.Placed st.shelf := by simp [Stage.Placed, hhost]
    have hplaced : ((Request.input (.start node context)).after scribe.hear st).Placed st.shelf :=
      Request.after_of_ends (start_placed hlegible hnothing)
    exact ((hplaced _ _ htold).accepts hframes).1 ⟨hstorable, by rintro _ ⟨⟩⟩

/-- Over scripts that are text, let a session be started, whatever it was before, and let a folder
of save slots answer when it asks for an automatic save. Then nothing is saved and every slot reads
as before, or an automatic slot holds a save of the session, and no other slot has changed. This
save is accepted over the same scripts if the session is in a node. If its run has come through to
the end, the save is refused. -/
theorem autoSave_at_start {σ : Type} (o : Observer σ) {st' : Stage σ} (hs : st'.session = s)
    {k : SaveFolder} (hfolder : st'.files.hasFolder k.path) (thumbnail : Option String) :
    Ends (autoSave o.hear k thumbnail) st'
      (fun r st'' => match r with
        | some v => k.Receives s st'.files st''.files v ∧
            (st.shelf.Accepts v.traversal.toText ↔ s.traversal.frames ≠ [])
        | none => k.SlotsKept st'.files st''.files)
      fun _ st'' => k.SlotsKept st'.files st''.files ∨
        ∃ v, k.Receives s st'.files st''.files v ∧
          (st.shelf.Accepts v.traversal.toText ↔ s.traversal.frames ≠ []) := by
  subst hs
  have hsaved {t : Files.Tree} {v : Save} (h : k.Receives st'.session st'.files t v) :
      st.shelf.Accepts v.traversal.toText ↔ st'.session.traversal.frames ≠ [] := by
    rw [h.traversal]
    exact accepts_at_start hlegible hhost htold h.storable
  refine (autoSave_ends o hfolder thumbnail).imp ?_ ?_
  · rintro (_ | v) st'' h
    · exact h
    · exact ⟨h, hsaved h⟩
  · rintro f st'' (h | ⟨v, h⟩)
    · exact .inl h
    · exact .inr ⟨v, h, hsaved h⟩

end AtStart

/-- A stage on which somebody takes notes, with a node of the given lines. -/
private def premiere (lines : List String) : Stage (List Entry) :=
  { Stage.ofScript (["#Node: main"] ++ lines ++ ["#EndNode"]) with host := [] }

/-- A stage with a session and an empty folder of save slots. -/
private def cabinet (s : Session) : Stage Unit :=
  { Stage.ofScript [] with files := ⟨[(["saves"], .folder)]⟩, session := s }

/-- The folder on this stage. -/
private def drawers : SaveFolder := { path := ⟨.working, ["saves"]⟩ }

private theorem hasFolder_cabinet (s : Session) :
    (cabinet s).files.hasFolder drawers.path = true := by rfl

/-- If a line is presented, what is saved is accepted. -/
theorem autoSave_at_start_greeting : ∃ s, told (.autoSaveRequested "main") s ∈
      ((Request.input (.start "main" "")).after scribe.hear (premiere ["Hello."])).host ∧
    s.traversal.names = ["main"] ∧ s.snapshot.Storable ∧
    Ends (autoSave (.noting : Observer Unit).hear drawers none) (cabinet s)
      (fun r st' => match r with
        | some v => drawers.Receives s (cabinet s).files st'.files v ∧
            (premiere ["Hello."]).shelf.Accepts v.traversal.toText
        | none => drawers.SlotsKept (cabinet s).files st'.files)
      fun _ _ => True := by
  obtain ⟨s, htold, hs⟩ := exists_of_any_tells (e := .autoSaveRequested "main")
    ((Request.input (.start "main" "")).after scribe.hear (premiere ["Hello."])).host
    (P := fun s => s.traversal.names = ["main"] ∧ s.snapshot.Storable) (by decide +kernel)
  obtain ⟨hnames, hstorable⟩ := of_decide_eq_true hs
  have hframes : s.traversal.frames ≠ [] := by
    intro hnil
    simp [Traversal.names, hnil] at hnames
  refine ⟨s, htold, hnames, hstorable, ?_⟩
  refine (autoSave_at_start (by decide +kernel) rfl htold .noting
    (show (cabinet s).session = s from rfl) (hasFolder_cabinet s) none).imp ?_ fun _ _ _ => trivial
  rintro (_ | v) st' h
  · exact h
  · exact ⟨h.1, h.2.mpr hframes⟩

/-- It is not so that every automatic save that is asked for at a start is accepted: if a node has a
command only, the session is over by then, and what is saved is refused. -/
theorem not_autoSave_at_start : ¬∀ (st : Stage (List Entry)) (node context name : String)
    (s : Session) (k : SaveFolder) (st' st'' : Stage Unit) (v : Save), st.shelf.Legible →
    st.host = [] → told (.autoSaveRequested name) s ∈
      ((Request.input (.start node context)).after scribe.hear st).host →
    st'.session = s → st'.files.hasFolder k.path →
    autoSave (.noting : Observer Unit).hear k none st' = .ok (some v) st'' →
    st.shelf.Accepts v.traversal.toText := by
  intro hall
  obtain ⟨s, htold, hs⟩ := exists_of_any_tells (e := .autoSaveRequested "main")
    ((Request.input (.start "main" "")).after scribe.hear (premiere ["[Bow]"])).host
    (P := fun s => s.traversal.frames = [] ∧
      Ends (autoSave (.noting : Observer Unit).hear drawers none) (cabinet s)
        (fun saved _ => saved.isSome) fun _ _ => False) (by decide +kernel)
  obtain ⟨hframes, hsaves⟩ := of_decide_eq_true hs
  obtain ⟨saved, st', hresult, hsome⟩ := hsaves.exists_ok
  obtain ⟨v, rfl⟩ := Option.isSome_iff_exists.mp hsome
  have hreceives :=
    (autoSave_ends (.noting : Observer Unit) (hasFolder_cabinet s) none).of_ok hresult
  have haccepts := hall _ _ _ _ s drawers (cabinet s) st' v (by decide +kernel) rfl htold rfl
    (hasFolder_cabinet s) hresult
  rw [hreceives.traversal] at haccepts
  exact (accepts_at_start (by decide +kernel) rfl htold hreceives.storable).mp haccepts hframes

end Input

end VisualNovel
