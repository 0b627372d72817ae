import VisualNovel.Proofs.Save.Folder
import VisualNovel.Proofs.Traversal.Lossless

/-!
# Automatic saves

Automatic slots are written in turn, and a file in the folder remembers the last one. To read and
to write this file leaves all slots alone. So an automatic save puts the session into one slot, or
nothing comes of it, whether or not the file can be read and written.

## Main definitions

* `SaveFolder.SlotsKept`: every slot reads as before;
* `SaveFolder.Receives`: an automatic slot has received the traversal of a session.

## Main results

* `Act.autoSave_ends`: what an automatic save makes of the slots.
-/

namespace VisualNovel

namespace SaveFolder

variable {k : SaveFolder} {t t' t'' : Files.Tree}

/-- Every slot reads as before, and the folder is still there. -/
structure SlotsKept (k : SaveFolder) (t t' : Files.Tree) : Prop where
  read : ∀ type slot checked, k.read t' type slot checked = k.read t type slot checked
  folder : t'.hasFolder k.path

/-- An automatic slot has received the traversal of a session, which can be read again, and every
other slot reads as before. -/
structure Receives (k : SaveFolder) (s : Session) (t t' : Files.Tree) (v : Save) : Prop where
  type : v.type = .auto
  traversal : v.traversal = s.snapshot
  storable : s.snapshot.Storable
  read : ∀ checked, k.read t' v.type v.slot checked = .ok (some ⟨v, none⟩)
  others : ∀ type slot checked, (type, slot) ≠ (v.type, v.slot) →
    k.read t' type slot checked = k.read t type slot checked
  folder : t'.hasFolder k.path

theorem SlotsKept.refl (h : t.hasFolder k.path) : k.SlotsKept t t := ⟨fun _ _ _ => rfl, h⟩

namespace Receives

variable {s : Session} {v : Save}

theorem of_kept (h : k.SlotsKept t t') (h' : k.Receives s t' t'' v) : k.Receives s t t'' v :=
  { h' with others := fun _ _ _ hne => (h'.others _ _ _ hne).trans (h.read _ _ _) }

theorem kept (h : k.Receives s t t' v) (h' : k.SlotsKept t' t'') : k.Receives s t t'' v :=
  { h with
    read := fun _ => (h'.read _ _ _).trans (h.read _)
    others := fun _ _ _ hne => (h'.read _ _ _).trans (h.others _ _ _ hne)
    folder := h'.folder }

end Receives

/-- The file that remembers the last automatic slot is none of the slots. -/
theorem slotsKept_storeText (hdir : t.hasFolder k.path) (text : String) :
    k.SlotsKept t (t.storeText k.rotationPath text).tree := by
  rcases Files.Tree.storeText_child hdir "persistent.json" text with
    ⟨f, hstore⟩ | ⟨names, hplace, hfind, hstore⟩
  · rw [rotationPath, hstore]
    exact .refl hdir
  · rw [rotationPath, hstore]
    have hholds : t.Holds (t.put names (.file text.toUTF8)) := Files.Tree.holds_put hfind
    refine ⟨fun type slot checked => read_congr ?_, hholds.hasFolder hdir⟩
    exact Files.Tree.entry_sibling hdir (by decide) fileName_ne_persistent hplace hholds fun _ =>
      Files.Tree.find?_put_of_ne

/-- To write what is remembered leaves the slots alone. -/
theorem slotsKept_save (hdir : t.hasFolder k.path) (r : Rotation) :
    k.SlotsKept t (Rotation.model.save t k.rotationPath r).tree :=
  slotsKept_storeText hdir _

/-- So does reading it, although a file that is missing or spoilt is written anew. -/
theorem slotsKept_load (hdir : t.hasFolder k.path) :
    k.SlotsKept t (Rotation.model.load t k.rotationPath).tree := by
  have hparent : k.rotationPath.parent = k.path := Files.Path.parent_child k.path _
  have hreset (remarks : List Remark) :
      k.SlotsKept t (Rotation.model.reset t k.rotationPath remarks).tree := by
    unfold Files.Model.reset
    split
    · exact .refl hdir
    · exact slotsKept_save hdir _
  unfold Files.Model.load
  rw [hparent, Files.Tree.makeFolders_of_hasFolder hdir]
  dsimp only
  split
  · exact .refl hdir
  · exact hreset _
  · split
    · exact .refl hdir
    · exact hreset _

/-- A save that has been written is the one that was to be written. -/
theorem write_ok {s v : Save} (h : (k.write t s).result = .ok v) : v = s := by
  unfold write at h
  split at h
  · next text path _ _ =>
    cases hresult : (t.storeText path text).result with
    | error f => simp [hresult, Except.map] at h
    | ok u => simpa [hresult, Except.map] using h.symm
  · cases h
  · cases h

end SaveFolder

namespace Act

variable {σ : Type} {st : Stage σ} {k : SaveFolder} {type : SaveType} {slot : Int}

/-- If no traversal is given, what is saved is the one of the session, which can be read again. -/
theorem traversalToSave_own : Ends (traversalToSave k none) st
    (fun t st' => st' = st ∧ t = st.session.snapshot ∧ st.session.snapshot.Storable)
    fun _ _ => True := by
  unfold traversalToSave
  simp only [ends_bind, ends_ite, ends_throw, ends_session, ends_ofExcept]
  split
  · trivial
  by_cases hstorable : st.session.snapshot.Storable
  · rw [Session.stored, Traversal.ofText_toText hstorable]
    exact ⟨trivial, rfl, hstorable⟩
  · rw [Session.stored, Traversal.ofText_toText_of_not hstorable]
    trivial

theorem writeSave_own (thumbnail : Option String) : Ends (writeSave k type slot thumbnail none) st
    (fun v _ => v.traversal = st.session.snapshot ∧ st.session.snapshot.Storable)
    fun _ _ => True := by
  simp only [writeSave, ends_bind, ends_get]
  refine traversalToSave_own.imp ?_ fun _ _ h => h
  rintro t _ ⟨rfl, rfl, hstorable⟩
  rw [ends_ofOutcome]
  split
  · next v hresult => exact ⟨by rw [SaveFolder.write_ok hresult], hstorable⟩
  · trivial

theorem save_own (hear : Listener σ) (thumbnail : Option String) :
    Ends (save hear k type slot thumbnail none) st
      (fun r _ => ∀ v ∈ r, v.traversal = st.session.snapshot ∧ st.session.snapshot.Storable)
      fun _ _ => True := by
  simp only [save, ends_bind, ends_attempt, ends_pure]
  refine (writeSave_own thumbnail).imp (fun v st₁ hv => ?_) fun f st₁ _ => ?_
  · exact ends_of_forall (fun _ _ => by simpa using hv) fun _ _ => trivial
  · split
    · simp only [ends_remark]
      exact ends_of_forall (fun _ _ => by simp) fun _ _ => trivial
    · trivial

/-- An automatic save puts the session into an automatic slot, if it can be read again. Or nothing
comes of it; then every slot reads as before. If it fails, it is the memory of the last slot that
cannot be read or written. -/
theorem autoSave_ends (o : Observer σ) (hdir : st.files.hasFolder k.path)
    (thumbnail : Option String) : Ends (autoSave o.hear k thumbnail) st
      (fun r st' => match r with
        | some v => k.Receives st.session st.files st'.files v
        | none => k.SlotsKept st.files st'.files)
      fun _ st' => k.SlotsKept st.files st'.files ∨
        ∃ v, k.Receives st.session st.files st'.files v := by
  have hloaded := SaveFolder.slotsKept_load hdir
  simp only [autoSave, ends_bind, ends_get, ends_ofOutcome]
  split
  · next r _ =>
    refine ((save_ends o (by exact hloaded.folder) thumbnail none).and
      (save_own o.hear thumbnail)).imp ?_ ?_
    · rintro (_ | v) st₁ ⟨hr, hown⟩
      · have hfiles : st₁.files = _ := hr
        simpa [hfiles] using hloaded
      · obtain ⟨htype, hslot, -, -, hkept, hread⟩ := hr
        obtain ⟨htraversal, hstorable⟩ := hown v rfl
        have hreceives : k.Receives st.session st.files st₁.files v :=
          .of_kept hloaded {
            type := htype
            traversal := htraversal
            storable := hstorable
            read := fun checked => by rw [htype, hslot]; exact hread checked
            others := fun type' slot' checked hne => hkept.read type' slot' checked (by
              rwa [htype, hslot] at hne)
            folder := hkept.folder }
        -- the slot has been written, whatever becomes of the memory of it
        have hsaved := hreceives.kept (SaveFolder.slotsKept_save hreceives.folder
          { r with lastSlot := r.nextSlot })
        simp only [ends_bind, ends_get, ends_ofOutcome, ends_pure]
        split
        · exact hsaved
        · exact .inr ⟨v, hsaved⟩
    · rintro f st₁ ⟨hno, -⟩
      exact hno.elim
  · exact .inl hloaded

end Act

end VisualNovel
