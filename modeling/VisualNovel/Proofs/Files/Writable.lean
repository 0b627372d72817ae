import VisualNovel.Proofs.Files.Tree

/-!
# Files that can be written

A file in a folder can be written where its path leads to a place below the working folder and no
folder is in the way. That depends on the folders alone, and writing a file makes none, so that
what can be written once can always be.

## Main definitions

* `Tree.SameFolders`: two trees with the same folders;
* `Tree.ChangedAt`: nothing in a folder but one file has changed;
* `Tree.Writable`: a file that can be written.

## Main results

* `Tree.Writable.storeText`: writing succeeds;
* `Tree.storeText_sameFolders`, `Tree.Writable.of_sameFolders`: it does so ever after.
-/

namespace VisualNovel.Files.Tree

variable {t t' : Tree} {dir : Path} {name : String} {names : List String} {bytes : ByteArray}

/-- The two trees have the same folders. -/
def SameFolders (t t' : Tree) : Prop :=
  ∀ names, t'.find? names = some .folder ↔ t.find? names = some .folder

namespace SameFolders

theorem refl (t : Tree) : t.SameFolders t := fun _ => Iff.rfl

theorem holds (h : t.SameFolders t') : t.Holds t' := fun names => (h names).mpr

end SameFolders

/-- A file that is put where no folder is leaves the folders as they are. -/
theorem sameFolders_put (h : t.find? names ≠ some .folder) :
    t.SameFolders (t.put names (.file bytes)) := by
  intro names'
  by_cases hnames : names' = names
  · subst hnames
    rw [find?_put_self (ne_nil_of_find? h)]
    exact iff_of_false (by simp) h
  · rw [find?_put_of_ne hnames]

/-- Nothing in the folder has changed but what one name stands for. -/
structure ChangedAt (dir : Path) (name : String) (t t' : Tree) : Prop where
  /-- The folder is still there. -/
  folder : t'.hasFolder dir
  /-- Every other name stands for what it did. -/
  sibling : ∀ name', name' ≠ name → t'.entry (dir.child name') = t.entry (dir.child name')

theorem ChangedAt.refl (h : t.hasFolder dir) : ChangedAt dir name t t := ⟨h, fun _ _ => rfl⟩

/-- A name in a folder stands for a place below the working folder, where no folder is. -/
def Writable (dir : Path) (name : String) (t : Tree) : Prop :=
  ∃ names, t.locate (dir.child name) = .ok (.inside names) ∧ t.find? names ≠ some .folder

/-- A file that is there can be written. -/
theorem writable_of_file (h : t.entry (dir.child name) = .ok (.file bytes)) :
    Writable dir name t := by
  rw [entry] at h
  cases hplace : t.locate (dir.child name) with
  | error c =>
    rw [hplace] at h
    cases h
  | ok place =>
    rw [hplace] at h
    cases place with
    | above => cases h
    | inside names =>
      refine ⟨names, hplace, fun hfolder => ?_⟩
      simp [bind, Except.bind, at?, hfolder] at h

namespace Writable

/-- Writing the file succeeds. -/
theorem storeText (hdir : t.hasFolder dir) (h : t.Writable dir name) (s : String) :
    (t.storeText (dir.child name) s).fault = none := by
  obtain ⟨names, hplace, hfind⟩ := h
  rw [Tree.storeText, store, Path.parent_child, makeFolders_of_hasFolder hdir]
  show (Change.ofStep t (t.writeBytes (dir.child name) s.toUTF8)).fault = none
  rw [writeBytes, hplace]
  dsimp only
  split
  · next hfolder => exact absurd hfolder hfind
  · rfl

/-- Whether it is there can be told. -/
theorem has (h : t.Writable dir name) : ∃ b, t.has (dir.child name) = .ok b := by
  obtain ⟨names, hplace, -⟩ := h
  cases hfind : t.find? names with
  | none =>
    rw [Tree.has, entry_of_locate_none hplace hfind]
    exact ⟨false, rfl⟩
  | some x =>
    rw [Tree.has, entry_of_locate hplace hfind]
    exact ⟨true, rfl⟩

/-- It can be written also in a tree with the same folders. -/
theorem of_sameFolders (h : t.Writable dir name) (hsame : t.SameFolders t') :
    t'.Writable dir name := by
  obtain ⟨names, hplace, hfind⟩ := h
  exact ⟨names, hsame.holds.locate hplace, fun hfolder => hfind ((hsame names).mp hfolder)⟩

end Writable

/-- Writing a file in a folder that is there makes no folder. -/
theorem storeText_sameFolders (hdir : t.hasFolder dir) (name s : String) :
    t.SameFolders (t.storeText (dir.child name) s).tree := by
  rcases storeText_child hdir name s with ⟨f, hstore⟩ | ⟨names, -, hfind, hstore⟩
  · rw [hstore]
    exact .refl t
  · rw [hstore]
    exact sameFolders_put hfind

end VisualNovel.Files.Tree
