import VisualNovel.Host.Basic
import VisualNovel.Proofs.Files.Tree
import VisualNovel.Proofs.Life.Observer
import VisualNovel.Proofs.Save.Slot
import VisualNovel.Save.Folder

/-!
# The slots of a folder are a map

Every slot has a file of its own in the folder, and none of them is the file that remembers the
automatic slot. So a slot that has been written holds what was saved, one that has been deleted is
empty, and all others are as they were.

The folder is there from the time when it is taken, since folders never go away.

## Main definitions

* `SaveFolder.OthersKept`: everything in the folder but one slot is as it was.

## Main results

* `SaveFolder.fileName_inj`: slots have files of their own;
* `SaveFolder.write_spec`, `SaveFolder.remove_spec`: what a slot holds after it has been written or
  deleted;
* `Act.save_ends`, `Act.deleteSave_ends`: saving never fails, and what comes of it;
* `Act.slots_are_a_map`: slots behave as a map.
-/

namespace VisualNovel

namespace SaveFolder

variable {k : SaveFolder} {type type' : SaveType} {slot slot' : Int} {checked : Bool}

/-- Slot numbers are written differently: a zero stands only in front of a number below ten. -/
theorem slotText_inj (h : slotText slot = slotText slot') : slot = slot' := by
  have hchars : (slotText slot).toList = (slotText slot').toList := by rw [h]
  have htext (n : Int) : (slotText n).toList =
      if 0 ≤ n ∧ n < 10 then '0' :: Number.formatInt n else Number.formatInt n := by
    unfold slotText
    split <;> simp [Value.intText]
  -- a number with a zero in front and one without: the latter would be zero
  have hmixed {n m : Int} (hn : 0 ≤ n ∧ n < 10) (hm : ¬(0 ≤ m ∧ m < 10))
      (heq : '0' :: Number.formatInt n = Number.formatInt m) : False := by
    obtain ⟨rfl, -⟩ := Number.eq_zero_of_formatInt heq.symm
    exact hm ⟨le_refl 0, by decide⟩
  rw [htext, htext] at hchars
  split at hchars
  · next hslot =>
    split at hchars
    · exact Number.formatInt_inj (List.cons.inj hchars).2
    · next hslot' => exact (hmixed hslot hslot' hchars).elim
  · next hslot =>
    split at hchars
    · next hslot' => exact (hmixed hslot' hslot hchars.symm).elim
    · exact Number.formatInt_inj hchars

theorem toList_fileName (type : SaveType) (slot : Int) : (fileName type slot).toList =
    type.stem.toList ++ ("save_".toList ++ ((slotText slot).toList ++ ".save".toList)) := by
  simp [fileName, toString]

/-- Every slot has a file of its own. -/
theorem fileName_inj (h : fileName type slot = fileName type' slot') :
    type = type' ∧ slot = slot' := by
  have hchars : (fileName type slot).toList = (fileName type' slot').toList := by rw [h]
  rw [toList_fileName, toList_fileName] at hchars
  -- the kinds can be told by the first letters
  have htype : type = type' := by
    cases type <;> cases type' <;> simp [SaveType.stem] at hchars ⊢
  subst htype
  have hslot : slotText slot = slotText slot' := String.toList_injective (by simpa using hchars)
  exact ⟨rfl, slotText_inj hslot⟩

/-- A slot file does not have a name of a given first letter, unless it is one of three. -/
theorem fileName_ne {name : String} (hname : ∀ c ∈ name.toList.head?, c ∉ ['a', 'q', 's']) :
    fileName type slot ≠ name := by
  rintro rfl
  rw [toList_fileName] at hname
  cases type <;> simp [SaveType.stem] at hname

theorem fileName_ne_persistent : fileName type slot ≠ "persistent.json" := fileName_ne (by simp)

theorem fileName_ne_dots : fileName type slot ≠ ".." := fileName_ne (by simp)

/-- What a slot holds depends only on what its file name stands for. -/
theorem read_congr {t t' : Files.Tree}
    (h : t'.entry (k.path.child (fileName type slot)) =
      t.entry (k.path.child (fileName type slot))) :
    k.read t' type slot checked = k.read t type slot checked := by
  unfold read slotPath
  split
  · simp only [bind, Except.bind, Files.Tree.has, Files.Tree.readText, Files.Tree.readWith,
      Files.Tree.readBytes, h]
  · rfl

/-- Everything in the folder but one slot is as it was. -/
structure OthersKept (k : SaveFolder) (type : SaveType) (slot : Int) (t t' : Files.Tree) :
    Prop where
  /-- Every other slot reads as it did. -/
  read : ∀ type' slot' checked, (type', slot') ≠ (type, slot) →
    k.read t' type' slot' checked = k.read t type' slot' checked
  /-- So does the file that remembers the last automatic slot. -/
  rotation : t'.entry k.rotationPath = t.entry k.rotationPath
  /-- The folder is still there. -/
  folder : t'.hasFolder k.path

variable {t t' : Files.Tree} {names : List String}

/-- A change of what the name of a slot file stands for keeps all other slots. -/
theorem othersKept (hdir : t.hasFolder k.path)
    (h : t.locate (k.path.child (fileName type slot)) = .ok (.inside names)) (hholds : t.Holds t')
    (hother : ∀ names', names' ≠ names → t'.find? names' = t.find? names') :
    k.OthersKept type slot t t' where
  read type' slot' checked hne := by
    refine read_congr (Files.Tree.entry_sibling hdir fileName_ne_dots ?_ h hholds hother)
    intro heq
    obtain ⟨rfl, rfl⟩ := fileName_inj heq
    exact hne rfl
  rotation :=
    Files.Tree.entry_sibling hdir fileName_ne_dots fileName_ne_persistent.symm h hholds hother
  folder := hholds.hasFolder hdir

/-- A slot whose file name stands for nothing is empty. -/
theorem read_of_missing (hshort : Number.isShort slot)
    (h : t.entry (k.path.child (fileName type slot)) = .error .missing) :
    k.read t type slot checked = .ok none := by
  rw [read, slotPath, if_pos hshort]
  simp only [bind, Except.bind, Files.Tree.has, h, Except.mapError]
  rfl

/-- A file of bytes that are a text is read as the text. -/
theorem readText_of_file {path : Files.Path} {bytes : ByteArray} {text : String}
    (h : t.entry path = .ok (.file bytes)) (hdecode : Text.decode? bytes = some text) :
    t.readText path = .ok text := by
  simp only [Files.Tree.readText, Files.Tree.readWith, Files.Tree.readBytes, h, hdecode]

/-- A slot whose file holds the text of a save holds the save. -/
theorem read_of_file {s : Save} {text : String} (hshort : Number.isShort slot)
    (htext : s.toText = .ok text)
    (h : t.entry (k.path.child (fileName type slot)) = .ok (.file text.toUTF8)) :
    k.read t type slot checked = .ok (some ⟨s, none⟩) := by
  have hreadText := readText_of_file h (Save.decode?_of_toText htext)
  rw [read, slotPath, if_pos hshort]
  simp only [bind, Except.bind, Files.Tree.has, h, Except.mapError, hreadText,
    Save.ofText_toText htext]
  rfl

/-- A slot with a path has a short number. -/
theorem slotPath_ok {path : Files.Path} (h : k.slotPath type slot = .ok path) :
    Number.isShort slot ∧ path = k.path.child (fileName type slot) := by
  unfold slotPath at h
  split at h
  · next hshort => exact ⟨hshort, (Except.ok.inj h).symm⟩
  · cases h

/-- A slot without a path cannot be saved to. -/
theorem spoilsSaving_of_slotPath {f : Failure} (h : k.slotPath type slot = .error f) :
    f.spoilsSaving := by
  unfold slotPath at h
  split at h
  · cases h
  · rw [← Except.error.inj h]
    rfl

/-- Nor can what has no text be saved. -/
theorem spoilsSaving_of_toText {s : Save} {f : Failure} (h : s.toText = .error f) :
    f.spoilsSaving := by
  unfold Save.toText at h
  split at h
  · cases h
  · rw [← Except.error.inj h]
    rfl

/-- A slot is written, or the attempt fails without effect. -/
theorem write_spec (hdir : t.hasFolder k.path) (s : Save) :
    (∃ f, f.spoilsSaving ∧ k.write t s = ⟨.error f, t, []⟩) ∨
      ∃ t', k.write t s = ⟨.ok s, t', []⟩ ∧ k.OthersKept s.type s.slot t t' ∧
        ∀ checked, k.read t' s.type s.slot checked = .ok (some ⟨s, none⟩) := by
  -- it fails for want of a text or of a path, or where the file cannot be stored
  unfold write
  split
  · next text path htext hpath =>
    obtain ⟨hshort, rfl⟩ := slotPath_ok hpath
    rcases Files.Tree.storeText_child hdir (fileName s.type s.slot) text with
      ⟨f, hstore⟩ | ⟨names, hplace, hfind, hstore⟩
    · refine .inl ⟨.file f, rfl, ?_⟩
      rw [hstore]
      rfl
    · have hholds : t.Holds (t.put names (.file text.toUTF8)) := Files.Tree.holds_put hfind
      have hentry : (t.put names (.file text.toUTF8)).entry
          (k.path.child (fileName s.type s.slot)) = .ok (.file text.toUTF8) :=
        Files.Tree.entry_of_locate (hholds.locate hplace)
          (Files.Tree.find?_put_self (Files.Tree.ne_nil_of_find? hfind))
      refine .inr ⟨_, ?_, othersKept hdir hplace hholds fun _ => Files.Tree.find?_put_of_ne,
        fun checked => read_of_file hshort htext hentry⟩
      rw [hstore]
      rfl
  · next f hf => exact .inl ⟨f, spoilsSaving_of_toText hf, rfl⟩
  · next f hf _ => exact .inl ⟨f, spoilsSaving_of_slotPath hf, rfl⟩

/-- A slot that has been deleted is empty. -/
theorem remove_spec (hdir : t.hasFolder k.path) (hshort : Number.isShort slot)
    (h : t.remove (k.path.child (fileName type slot)) = .ok t') :
    k.OthersKept type slot t t' ∧ ∀ checked, k.read t' type slot checked = .ok none := by
  obtain ⟨names, bytes, hplace, hfile, rfl⟩ := Files.Tree.remove_ok h
  have hfind : t.find? names ≠ some .folder := by simp [hfile]
  have hholds : t.Holds (t.erase names) := Files.Tree.holds_erase hfind
  have hentry : (t.erase names).entry (k.path.child (fileName type slot)) = .error .missing :=
    Files.Tree.entry_of_locate_none (hholds.locate hplace)
      (Files.Tree.find?_erase_self (Files.Tree.ne_nil_of_find? hfind))
  exact ⟨othersKept hdir hplace hholds fun _ => Files.Tree.find?_erase_of_ne,
    fun checked => read_of_missing hshort hentry⟩

end SaveFolder

namespace Act

variable {σ : Type} {st : Stage σ} {k : SaveFolder} {type : SaveType} {slot : Int}

@[simp]
theorem ends_setFiles {t : Files.Tree} {Q : Unit → Stage σ → Prop} {E : Failure → Stage σ → Prop} :
    Ends (setFiles t) st Q E ↔ Q () { st with files := t } := Iff.rfl

theorem ends_ofOutcome {α : Type} {r : Files.Outcome α} {Q : α → Stage σ → Prop}
    {E : Failure → Stage σ → Prop} :
    Ends (ofOutcome r) st Q E ↔ match r.result with
      | .ok a => Q a { st with files := r.tree, remarks := st.remarks ++ r.remarks }
      | .error f => E f { st with files := r.tree, remarks := st.remarks ++ r.remarks } := by
  cases hresult : r.result <;>
    simp only [ofOutcome, ends_bind, ends_setFiles, ends_remarkAll, ends_ofExcept, hresult]

/-- What is saved is the traversal that is given, or else the one of the session; if there is none,
saving is spoilt. -/
theorem traversalToSave_ends (given : Option Traversal) :
    Ends (traversalToSave k given) st (fun t st' => st' = st ∧ ∀ t' ∈ given, t = t')
      fun f st' => st' = st ∧ f.spoilsSaving := by
  unfold traversalToSave
  cases given with
  | some t => simp
  | none =>
    cases k.attached with
    | false => exact ⟨rfl, rfl⟩
    | true =>
      simp only [Bool.not_true, Bool.false_eq_true, if_false, ends_bind, ends_session,
        ends_ofExcept]
      cases Traversal.ofText st.session.stored with
      | valid t => exact ⟨trivial, by simp⟩
      | invalid ps => exact ⟨trivial, rfl⟩

/-- A save that has been written is the one that was asked for. -/
theorem writeSave_ends (hdir : st.files.hasFolder k.path) (thumbnail : Option String)
    (given : Option Traversal) :
    Ends (writeSave k type slot thumbnail given) st
      (fun s st' => s.type = type ∧ s.slot = slot ∧ s.thumbnail = thumbnail.getD k.thumbnail ∧
        (∀ t ∈ given, s.traversal = t) ∧ k.OthersKept type slot st.files st'.files ∧
        ∀ checked, k.read st'.files type slot checked = .ok (some ⟨s, none⟩))
      fun f st' => st'.files = st.files ∧ f.spoilsSaving := by
  simp only [writeSave, ends_bind, ends_get]
  refine (traversalToSave_ends given).imp ?_ fun f st' h => ⟨by rw [h.1], h.2⟩
  rintro t _ ⟨rfl, ht⟩
  rw [ends_ofOutcome]
  rcases SaveFolder.write_spec hdir
    ⟨slot, type, _, thumbnail.getD k.thumbnail, t⟩ with ⟨f, hf, hwrite⟩ | ⟨t', hwrite, hkept, hread⟩
  · rw [hwrite]
    exact ⟨rfl, hf⟩
  · rw [hwrite]
    exact ⟨rfl, rfl, rfl, ht, hkept, hread⟩

/-- Telling an event leaves the files alone. -/
theorem announce_ends (o : Observer σ) (e : Event) {Q : Unit → Stage σ → Prop}
    {E : Failure → Stage σ → Prop} (h : ∀ st', st'.files = st.files → Q () st') :
    Ends (announce o.hear k e) st Q E := by
  unfold announce
  split
  · exact h _ (o.files_react e st)
  · exact h st rfl

/-- Saving never fails. Nothing comes of it and the files stay as they are, or the slot holds what
was saved and everything else in the folder is as it was. -/
theorem save_ends (o : Observer σ) (hdir : st.files.hasFolder k.path) (thumbnail : Option String)
    (given : Option Traversal) :
    Ends (save o.hear k type slot thumbnail given) st
      (fun r st' => match r with
        | none => st'.files = st.files
        | some s => s.type = type ∧ s.slot = slot ∧ s.thumbnail = thumbnail.getD k.thumbnail ∧
            (∀ t ∈ given, s.traversal = t) ∧ k.OthersKept type slot st.files st'.files ∧
            ∀ checked, k.read st'.files type slot checked = .ok (some ⟨s, none⟩))
      fun _ _ => False := by
  simp only [save, ends_bind, ends_attempt]
  refine (writeSave_ends hdir thumbnail given).imp ?_ ?_
  · intro s st₁ hs
    refine announce_ends o _ fun st₂ hfiles => ?_
    rw [ends_pure, hfiles]
    exact hs
  · rintro f st₁ ⟨hfiles, hf⟩
    rw [if_pos hf]
    simp only [ends_remark]
    refine announce_ends o _ fun st₂ hfiles' => ?_
    rw [ends_pure, hfiles', hfiles]

/-- A slot that has been deleted is empty, and everything else in the folder is as it was. If
nothing has been deleted, the files are as they were. -/
theorem deleteSave_ends (hdir : st.files.hasFolder k.path) :
    Ends (deleteSave k type slot) st
      (fun b st' => if b then k.OthersKept type slot st.files st'.files ∧
          ∀ checked, k.read st'.files type slot checked = .ok none
        else st'.files = st.files)
      fun _ st' => st'.files = st.files := by
  simp only [deleteSave, ends_bind, ends_ofExcept, ends_get]
  split
  · next path hpath =>
    obtain ⟨hshort, rfl⟩ := SaveFolder.slotPath_ok hpath
    split
    · next b _ =>
      cases b with
      | false => simp
      | true =>
        simp only [Bool.not_true, Bool.false_eq_true, if_false]
        split
        · next t' hremove =>
          simp only [ends_bind, ends_setFiles, ends_pure, if_true]
          exact SaveFolder.remove_spec hdir hshort hremove
        · simp only [ends_bind, ends_remark, ends_pure, Bool.false_eq_true, if_false]
    · trivial
  · trivial

/-- Slots behave as a map. A slot that has been saved to reads as what was saved, with its checksum
looked at, and one that has been deleted is empty; every other slot reads as before, and so does the
file that remembers the last automatic slot. If nothing comes of saving or deleting, everything
reads as before. -/
theorem slots_are_a_map (o : Observer σ) (k : SaveFolder) (st : Stage σ)
    (hfolder : st.files.hasFolder k.path) (type : SaveType) (slot : Int) :
    (∀ thumbnail given, Ends (save o.hear k type slot thumbnail given) st
      (fun r st' => match r with
        | some s => s.type = type ∧ s.slot = slot ∧ s.thumbnail = thumbnail.getD k.thumbnail ∧
            (∀ t ∈ given, s.traversal = t) ∧
            k.read st'.files type slot true = .ok (some ⟨s, none⟩) ∧
            k.OthersKept type slot st.files st'.files
        | none => st'.files = st.files)
      fun _ _ => False) ∧
    Ends (deleteSave k type slot) st
      (fun deleted st' =>
        if deleted then k.read st'.files type slot true = .ok none ∧
          k.OthersKept type slot st.files st'.files
        else st'.files = st.files)
      fun _ st' => st'.files = st.files := by
  refine ⟨fun thumbnail given => ?_, ?_⟩
  · refine (save_ends o hfolder thumbnail given).imp (fun r st' hr => ?_) fun _ _ hf => hf
    cases r with
    | none => exact hr
    | some s =>
      obtain ⟨htype, hslot, hthumbnail, htraversal, hkept, hread⟩ := hr
      exact ⟨htype, hslot, hthumbnail, htraversal, hread true, hkept⟩
  · refine (deleteSave_ends hfolder).imp (fun b st' hb => ?_) fun _ _ hf => hf
    split at hb
    · next hdeleted => exact if_pos hdeleted ▸ ⟨hb.2 true, hb.1⟩
    · next hkept => exact if_neg hkept ▸ hb

/-- A stage with nothing but a folder of slots. -/
private def desk : Stage Unit where
  setup := ⟨⟨.working, ["dialogue"]⟩, [], ⟨2026, 1, 1, 0, 0⟩, 100⟩
  files := ⟨[(["saves"], .folder)]⟩
  session := {}
  notices := []
  remarks := []
  host := ()

theorem slots_are_a_map_desk :
    ∃ s st', save (.noting : Observer Unit).hear { path := ⟨.working, ["saves"]⟩ } .manual 3 none
        (some {}) desk = .ok (some s) st' ∧
      SaveFolder.read { path := ⟨.working, ["saves"]⟩ } st'.files .manual 3 true =
        .ok (some ⟨s, none⟩) := by
  have hmap := slots_are_a_map .noting { path := ⟨.working, ["saves"]⟩ } desk (by decide) .manual 3
  obtain ⟨r, st', hsave, hr⟩ := (hmap.1 none (some {})).exists_ok
  have hsome : (match save (.noting : Observer Unit).hear { path := ⟨.working, ["saves"]⟩ } .manual
      3 none (some {}) desk with
    | .ok r _ => r.isSome
    | .error _ _ => false) = true := by
    decide +kernel
  rw [hsave] at hsome
  cases r with
  | none => cases hsome
  | some s => exact ⟨s, st', hsave, hr.2.2.2.2.1⟩

end Act

namespace Host

/-- The folder of save slots is there once it has been taken. -/
theorem takeFolder_ends {st : Stage Host} {k : SaveFolder} :
    Act.Ends (takeFolder k) st
      (fun _ st' => st'.host.folder = some k ∧ st'.files.hasFolder k.path) fun _ _ => True := by
  simp only [takeFolder, Act.ends_bind, Act.ends_get, Act.ends_setFiles, Act.ends_ofExcept]
  unfold Files.Change.result
  split
  · next hok =>
    split at hok
    · next hnone => exact ⟨rfl, Files.Tree.hasFolder_makeFolders hnone⟩
    · cases hok
  · trivial

end Host

end VisualNovel
