import VisualNovel.Proofs.Save.Folder

/-!
# Which slots are valid

A slot file holds an object, and what the program writes is sealed: the checksum is that of the
other members. A seal that does not hold is never accepted. But a file without a seal, where the
checksum is missing or counts as nothing, is accepted as it is.

## Main definitions

* `Save.IsSealed`, `Save.IsUnsealed`: the checksum is that of the other members; there is none;
* `SaveFolder.HoldsObject`: the file of a slot holds an object.

## Main results

* `Save.isSealed_written`: what is written is sealed;
* `SaveFolder.isValid_of_members`: a save without a checksum is accepted;
* `SaveFolder.isValid_eq_false`: a seal that does not hold is never accepted;
* `SaveFolder.isValid_iff`: which slots are valid.
-/

namespace VisualNovel

namespace Save

variable {ms : List (String × Json)}

/-- The checksum is that of the other members. -/
def IsSealed (ms : List (String × Json)) : Prop :=
  Json.member? checksumName ms = some (.str (checksum (Json.dropMember checksumName ms)))

/-- There is no checksum, or one that counts as nothing. -/
def IsUnsealed (ms : List (String × Json)) : Prop :=
  ∀ c ∈ Json.member? checksumName ms, c.isEmptyValue

/-- What the program writes is sealed. -/
theorem isSealed_written (s : Save) :
    IsSealed (s.members ++ [(checksumName, .str (checksum s.members))]) := by
  rw [IsSealed, dropMember_checksum]
  simp [Json.member?, members, checksumName]

/-- The checksum is none of the members that it is taken of. -/
theorem member?_checksum (s : Save) : Json.member? checksumName s.members = none := by
  simp [Json.member?, members, checksumName]

/-- A checksum that is looked at is that of the other members, or counts as nothing. -/
theorem checksumHolds_iff :
    checksumHolds (Json.member? checksumName ms) (Json.dropMember checksumName ms) ↔
      IsSealed ms ∨ IsUnsealed ms := by
  unfold IsSealed IsUnsealed checksumHolds
  split
  · next h => simp [h]
  · next s h => simp [h, Json.isEmptyValue, or_comm]
  · next c hstr h =>
    -- what is no text is not compared
    have hne : c ≠ .str (checksum (Json.dropMember checksumName ms)) := hstr _
    simp [h, hne]

/-- A text is read as a save exactly if it is an object with the members of a save, and sealed or
unsealed. -/
theorem exists_ofText_iff {fileName text : String} :
    (∃ r, ofText fileName true text = .ok r) ↔
      ∃ ms, Json.read .slot text = .ok (.obj ms) ∧ (IsSealed ms ∨ IsUnsealed ms) ∧
        ∃ s, Schema.save (.obj (Json.dropMember checksumName ms)) = .valid s := by
  simp only [← checksumHolds_iff]
  unfold ofText
  split
  · next h => simp [h]
  · next h => simp [h]
  · next ms h =>
    simp only [h, Bool.true_and, Bool.not_eq_true']
    split
    · next hwrong => simp [hwrong]
    · next hholds =>
      cases hsave : Schema.save (.obj (Json.dropMember checksumName ms)) <;> simp_all
  · next v hobj h =>
    refine iff_of_false (by simp) ?_
    rintro ⟨ms, hread, -⟩
    exact hobj ms (Except.ok.inj (h.symm.trans hread))

end Save

namespace SaveFolder

variable {k : SaveFolder} {tree : Files.Tree} {type : SaveType} {slot : Int} {checked : Bool}
variable {ms ms' : List (String × Json)}

/-- The slot has a file, and the file holds an object with these members. -/
def HoldsObject (k : SaveFolder) (tree : Files.Tree) (type : SaveType) (slot : Int)
    (ms : List (String × Json)) : Prop :=
  ∃ path text, k.slotPath type slot = .ok path ∧ tree.readText path = .ok text ∧
    Json.read .slot text = .ok (.obj ms)

/-- Where a text can be read there is something. -/
theorem has_of_readText {path : Files.Path} {text : String} (h : tree.readText path = .ok text) :
    tree.has path = .ok true := by
  unfold Files.Tree.readText Files.Tree.readWith Files.Tree.readBytes at h
  unfold Files.Tree.has
  cases hentry : tree.entry path with
  | ok x => rfl
  | error c => simp [hentry] at h

/-- What is read from a slot is what its file holds. -/
theorem read_eq_ok_some_iff {r : Save.Reading} :
    k.read tree type slot checked = .ok (some r) ↔
      ∃ path text, k.slotPath type slot = .ok path ∧ tree.readText path = .ok text ∧
        Save.ofText path.name checked text = .ok r := by
  simp only [read, bind, Except.bind]
  cases hpath : k.slotPath type slot with
  | error f => simp
  | ok path =>
    cases htext : tree.readText path with
    | ok text =>
      have hhas : tree.has path = .ok true := has_of_readText htext
      cases hsave : Save.ofText path.name checked text <;>
        simp [hhas, Except.mapError, htext, hsave, pure, Except.pure]
    | error f =>
      -- the file is missing or cannot be read
      refine iff_of_false (fun h => ?_) (by simp [htext])
      rcases hhas : tree.has path with f | _ | _ <;>
        simp [hhas, Except.mapError, htext, pure, Except.pure] at h

/-- A slot holds one object at most. -/
theorem HoldsObject.unique (h : k.HoldsObject tree type slot ms)
    (h' : k.HoldsObject tree type slot ms') : ms = ms' := by
  obtain ⟨path, text, hpath, htext, hms⟩ := h
  obtain ⟨path', text', hpath', htext', hms'⟩ := h'
  obtain rfl := Except.ok.inj (hpath.symm.trans hpath')
  obtain rfl := Except.ok.inj (htext.symm.trans htext')
  exact Json.obj.inj (Except.ok.inj (hms.symm.trans hms'))

/-- A slot is valid if a save is read from it with a look at the checksum. -/
theorem isValid_iff_exists_read :
    k.isValid tree type slot ↔ ∃ r, k.read tree type slot true = .ok (some r) := by
  unfold isValid
  rcases k.read tree type slot true with f | _ | r <;> simp

/-- A save is read if the slot holds an object with its members that is sealed or unsealed. -/
theorem exists_read_iff :
    (∃ r, k.read tree type slot true = .ok (some r)) ↔ ∃ ms, k.HoldsObject tree type slot ms ∧
      (Save.IsSealed ms ∨ Save.IsUnsealed ms) ∧
      ∃ s, Schema.save (.obj (Json.dropMember Save.checksumName ms)) = .valid s := by
  simp only [read_eq_ok_some_iff]
  constructor
  · rintro ⟨r, path, text, hpath, htext, hr⟩
    obtain ⟨ms, hms, hseal, hsave⟩ := Save.exists_ofText_iff.mp ⟨r, hr⟩
    exact ⟨ms, ⟨path, text, hpath, htext, hms⟩, hseal, hsave⟩
  · rintro ⟨ms, ⟨path, text, hpath, htext, hms⟩, hseal, hsave⟩
    obtain ⟨r, hr⟩ := Save.exists_ofText_iff.mpr ⟨ms, hms, hseal, hsave⟩
    exact ⟨r, path, text, hpath, htext, hr⟩

/-- A slot that holds the members of a save without a checksum is valid. -/
theorem isValid_of_members {s : Save} (h : k.HoldsObject tree type slot s.members) :
    k.isValid tree type slot := by
  refine isValid_iff_exists_read.mpr (exists_read_iff.mpr ⟨_, h, .inr ?_, s, ?_⟩)
  · intro c hc
    rw [Save.member?_checksum] at hc
    cases hc
  · have hall : Json.dropMember Save.checksumName s.members = s.members := by
      simp [Json.dropMember, Save.members, Save.checksumName]
    rw [hall, s.check_members]

/-- A seal that does not hold is never accepted. -/
theorem isValid_eq_false (h : k.HoldsObject tree type slot ms) (hsealed : ¬Save.IsSealed ms)
    (hunsealed : ¬Save.IsUnsealed ms) : k.isValid tree type slot = false := by
  rw [Bool.eq_false_iff, ne_eq, isValid_iff_exists_read, exists_read_iff]
  rintro ⟨ms', h', hseal, -⟩
  obtain rfl := h.unique h'
  exact hseal.elim hsealed hunsealed

/-- A slot is valid if a save is read from it with a look at the checksum. So it is if it holds an
object with the members of a save, and this is sealed or unsealed. -/
theorem isValid_iff (k : SaveFolder) (tree : Files.Tree) (type : SaveType) (slot : Int) :
    (k.isValid tree type slot ↔ ∃ r, k.read tree type slot true = .ok (some r)) ∧
    (k.isValid tree type slot ↔ ∃ ms, k.HoldsObject tree type slot ms ∧
      (Save.IsSealed ms ∨ Save.IsUnsealed ms) ∧
      ∃ s, Schema.save (.obj (Json.dropMember Save.checksumName ms)) = .valid s) :=
  ⟨isValid_iff_exists_read, isValid_iff_exists_read.trans exists_read_iff⟩

/-- A folder of saves. -/
private def shelf : SaveFolder := { path := ⟨.working, ["saves"]⟩ }

/-- The save of a session that has not begun. -/
private def blank : Save := ⟨1, .manual, "", "", {}⟩

/-- The save without a checksum. -/
private def unsealed : String := (Json.obj blank.members).render .slot

/-- The first slot of the folder has no checksum. -/
private def ledger : Files.Tree :=
  ⟨[(["saves"], .folder), (["saves", "save_01.save"], .file unsealed.toUTF8)]⟩

theorem holdsObject_ledger : shelf.HoldsObject ledger .manual 1 blank.members := by
  have hpath : shelf.slotPath .manual 1 = .ok (shelf.path.child (fileName .manual 1)) :=
    if_pos (by decide)
  have hexact : (Json.obj blank.members).isExact := by decide +kernel
  have hentry : ledger.entry (shelf.path.child (fileName .manual 1)) =
      .ok (.file unsealed.toUTF8) := rfl
  have hdecode : Text.decode? unsealed.toUTF8 = some unsealed := by
    rw [unsealed, Json.decode?_render hexact]
  have hshort : (Json.obj blank.members).numbers.all Number.isShort := by decide +kernel
  have hread : Json.read .slot unsealed = .ok (.obj blank.members) := by
    rw [unsealed, Json.read_render hexact (Json.Dialect.slot_reads hshort),
      Json.asRead_obj .slot (by simp [Save.members]), Save.membersAsRead_slot]
  exact ⟨_, unsealed, hpath, readText_of_file hentry hdecode, hread⟩

/-- It is not so that all valid slots are sealed: a checksum that is missing is not missed. -/
theorem not_isSealed_of_isValid : ¬∀ (k : SaveFolder) (tree : Files.Tree) (type : SaveType)
    (slot : Int), k.isValid tree type slot →
      ∃ ms, k.HoldsObject tree type slot ms ∧ Save.IsSealed ms := by
  intro hall
  obtain ⟨ms, hms, hsealed⟩ := hall shelf ledger .manual 1 (isValid_of_members holdsObject_ledger)
  obtain rfl := hms.unique holdsObject_ledger
  rw [Save.IsSealed, Save.member?_checksum] at hsealed
  cases hsealed

end SaveFolder

end VisualNovel
