import VisualNovel.Files.Model
import VisualNovel.Proofs.Files.Writable
import VisualNovel.Proofs.Json.Plain

/-!
# Models in the files of a folder

A model that is read again as it has been written survives being saved. If its file is there and
can be read, then loading it changes nothing; if not, the defaults are written to the file and are
there to be read the next time. Nothing else in the folder changes.

## Main definitions

* `Model.Lossless`: a model that is read from its text again.

## Main results

* `Model.load_of_read`: a file that can be read is loaded as it is;
* `Model.save_spec`, `Model.save_of_read`: what comes of saving;
* `Model.load_spec`: what has been loaded is in the file afterwards;
* `Model.load_of_writable`: a file that can be written can be loaded.
-/

namespace VisualNovel.Files

namespace Model

variable {α : Type} {m : Model α} {t t' : Tree} {dir p : Path} {name : String} {a b : α}

/-- The model is read from its text again, as it has been written. -/
structure Lossless (m : Model α) (a : α) : Prop where
  exact : (m.toJson a).isExact
  text : Schema.text m.check ((m.toJson a).render .storedIndented) = .valid a

/-- What is read from a file depends only on what its path stands for. -/
theorem read_congr (h : t'.entry p = t.entry p) : m.read t' p = m.read t p := by
  simp only [Model.read, Tree.readText, Tree.readWith, Tree.readBytes, h]

/-- What can be read is a file. -/
theorem entry_of_read (h : m.read t p = .ok a) : ∃ bytes, t.entry p = .ok (.file bytes) := by
  simp only [Model.read, Tree.readText, Tree.readWith, Tree.readBytes] at h
  cases hentry : t.entry p with
  | error c =>
    rw [hentry] at h
    cases h
  | ok x =>
    cases x with
    | file bytes => exact ⟨bytes, rfl⟩
    | folder =>
      rw [hentry] at h
      cases h

/-- A file with the text of the model is read as the model. -/
theorem read_of_file (ha : m.Lossless a) (h : t.entry p =
    .ok (.file ((m.toJson a).render .storedIndented).toUTF8)) : m.read t p = .ok a := by
  simp only [Model.read, Tree.readText, Tree.readWith, Tree.readBytes, h,
    Json.decode?_render ha.exact]
  simp only [Except.bind, ha.text, ofChecked]

theorem has_of_read (h : m.read t p = .ok a) : t.has p = .ok true := by
  obtain ⟨bytes, hentry⟩ := entry_of_read h
  rw [Tree.has, hentry]

/-- A file that can be read is loaded as it is. -/
theorem load_of_read (hdir : t.hasFolder dir) (h : m.read t (dir.child name) = .ok a) :
    m.load t (dir.child name) = ⟨.ok a, t, []⟩ := by
  rw [load, Path.parent_child, Tree.makeFolders_of_hasFolder hdir]
  simp [Change.result, Except.bind, has_of_read h, Except.mapError, h]

/-- A model is written to its file and can be read there, or the attempt is without effect. -/
theorem save_spec (hdir : t.hasFolder dir) (hname : name ≠ "..") (ha : m.Lossless a) :
    (∃ f, m.save t (dir.child name) a = ⟨.error f, t, []⟩) ∨
      ∃ t', m.save t (dir.child name) a = ⟨.ok (), t', []⟩ ∧ t.ChangedAt dir name t' ∧
        m.read t' (dir.child name) = .ok a := by
  unfold save
  rcases Tree.storeText_child hdir name ((m.toJson a).render .storedIndented) with
    ⟨f, hstore⟩ | ⟨names, hplace, hfind, hstore⟩
  · refine .inl ⟨.file f, ?_⟩
    rw [hstore]
    rfl
  · have hholds := Tree.holds_put (x := .file ((m.toJson a).render .storedIndented).toUTF8) hfind
    refine .inr ⟨t.put names (.file ((m.toJson a).render .storedIndented).toUTF8), ?_,
      ⟨hholds.hasFolder hdir, fun name' hne => ?_⟩, ?_⟩
    · rw [hstore]
      rfl
    · exact Tree.entry_sibling hdir hname hne hplace hholds fun _ => Tree.find?_put_of_ne
    · apply read_of_file ha
      exact Tree.entry_of_locate (hholds.locate hplace)
        (Tree.find?_put_self (Tree.ne_nil_of_find? hfind))

theorem save_of_writable (hdir : t.hasFolder dir) (h : t.Writable dir name) (a : α) :
    (m.save t (dir.child name) a).result = .ok () := by
  simp only [save, Change.result, h.storeText hdir]

theorem save_sameFolders (hdir : t.hasFolder dir) (a : α) :
    t.SameFolders (m.save t (dir.child name) a).tree :=
  Tree.storeText_sameFolders hdir name _

/-- A file that can be read can also be written. -/
theorem save_of_read (hdir : t.hasFolder dir) (hname : name ≠ "..") (hb : m.Lossless b)
    (h : m.read t (dir.child name) = .ok a) :
    ∃ t', m.save t (dir.child name) b = ⟨.ok (), t', []⟩ ∧ t.ChangedAt dir name t' ∧
      m.read t' (dir.child name) = .ok b := by
  refine (save_spec hdir hname hb).resolve_left ?_
  rintro ⟨f, hsave⟩
  obtain ⟨bytes, hentry⟩ := entry_of_read h
  have hresult := save_of_writable (m := m) hdir (Tree.writable_of_file hentry) b
  rw [hsave] at hresult
  cases hresult

/-- What has been loaded is in the file afterwards, and nothing else in the folder has changed. -/
theorem load_spec (hdir : t.hasFolder dir) (hname : name ≠ "..")
    (hdefaults : ∀ b, m.defaults = .ok b → m.Lossless b)
    (h : (m.load t (dir.child name)).result = .ok a) :
    t.ChangedAt dir name (m.load t (dir.child name)).tree ∧
      m.read (m.load t (dir.child name)).tree (dir.child name) = .ok a := by
  -- a file that cannot be used is made anew, which is the only way in which anything changes
  have hreset (remarks : List Remark) : (m.reset t (dir.child name) remarks).result = .ok a →
      t.ChangedAt dir name (m.reset t (dir.child name) remarks).tree ∧
        m.read (m.reset t (dir.child name) remarks).tree (dir.child name) = .ok a := by
    unfold reset
    split
    · intro h
      cases h
    · next b hb =>
      rcases save_spec hdir hname (hdefaults b hb) with ⟨f, hsave⟩ | ⟨t', hsave, hchanged, hread⟩
      · rw [hsave]
        intro h
        cases h
      · rw [hsave]
        intro h
        obtain rfl : b = a := Except.ok.inj h
        exact ⟨hchanged, hread⟩
  -- the folder exists, so none is made on the way
  have hfolders : t.makeFolders (dir.child name).parent = ⟨t, none⟩ := by
    rw [Path.parent_child, Tree.makeFolders_of_hasFolder hdir]
  unfold load at h ⊢
  rw [hfolders] at h ⊢
  dsimp only at h ⊢
  split at h
  · cases h
  · exact hreset _ h
  · split at h
    · next b hread =>
      obtain rfl : b = a := Except.ok.inj h
      exact ⟨.refl hdir, hread⟩
    · exact hreset _ h

/-- A file that can be written can be loaded, be it read or made, and no folder is made then. -/
theorem load_of_writable (hdir : t.hasFolder dir) (h : t.Writable dir name) {d : α}
    (hdefaults : m.defaults = .ok d) :
    (∃ a, (m.load t (dir.child name)).result = .ok a) ∧
      t.SameFolders (m.load t (dir.child name)).tree := by
  have hreset (remarks : List Remark) :
      (∃ a, (m.reset t (dir.child name) remarks).result = .ok a) ∧
        t.SameFolders (m.reset t (dir.child name) remarks).tree := by
    simp only [reset, hdefaults, save_of_writable hdir h]
    exact ⟨⟨d, rfl⟩, save_sameFolders hdir d⟩
  have hfolders : t.makeFolders (dir.child name).parent = ⟨t, none⟩ := by
    rw [Path.parent_child, Tree.makeFolders_of_hasFolder hdir]
  obtain ⟨there, hhas⟩ := h.has
  unfold load
  rw [hfolders]
  simp only [Change.result, Except.bind, hhas, Except.mapError]
  cases there with
  | false => exact hreset _
  | true =>
    dsimp only
    split
    · next a _ => exact ⟨⟨a, rfl⟩, .refl t⟩
    · exact hreset _

end Model

end VisualNovel.Files
