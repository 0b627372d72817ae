import VisualNovel.Save.Slot
import VisualNovel.Session.Restore

/-!
# The folder of save slots

A folder holds slots of three kinds and a file that remembers which automatic slot was written
last. The automatic slots are written in turn, so the oldest one is always the next to go.

A folder may have the session of the stage attached, which is then what is saved and what a loaded
slot resumes. It may also tell events of what it does.
-/

namespace VisualNovel

/-- What is remembered between runs of the program. -/
structure Rotation where
  /-- The program has not been run before. -/
  firstRun : Bool := true
  /-- The automatic slot that was written last. -/
  lastSlot : Int := 0
  deriving DecidableEq, Repr, Inhabited

namespace Rotation

/-- The memory as stored data. -/
def toJson (r : Rotation) : Json :=
  .obj [("first_application_run", .bool r.firstRun), ("current_auto_save_slot", .int r.lastSlot)]

/-- The check of a stored memory. -/
def check : Json → Checked Rotation :=
  Schema.model ["first_application_run", "current_auto_save_slot"] fun ms =>
    Rotation.mk <$> Schema.optional "first_application_run" true Schema.bool ms <*>
      Schema.optional "current_auto_save_slot" 0 Schema.int ms

/-- How the memory is kept in a file. -/
def model : Files.Model Rotation := ⟨"PersistentData", check, toJson⟩

/-- The automatic slot to write next: one of six in turn. -/
def nextSlot (r : Rotation) : Int := r.lastSlot % SaveType.auto.capacity + 1

end Rotation

/-- A folder of save slots. -/
structure SaveFolder where
  /-- Where it is. -/
  path : Files.Path
  /-- The session of the stage is attached. -/
  attached : Bool := true
  /-- Events are told. -/
  announces : Bool := true
  /-- The latest thumbnail that the host has supplied. -/
  thumbnail : String := ""
  deriving DecidableEq, Repr, Inhabited

namespace SaveFolder

/-- What remarks about save slots are filed under. -/
def remarkSource : String := "dialogue.save"

/-- A slot number with two digits at least. -/
def slotText (slot : Int) : String :=
  if 0 ≤ slot ∧ slot < 10 then "0" ++ Value.intText slot else Value.intText slot

/-- The name of a slot file. -/
def fileName (type : SaveType) (slot : Int) : String :=
  s!"{type.stem}save_{slotText slot}.save"

/-- The path of a slot file. A number with too many digits has none. -/
def slotPath (k : SaveFolder) (type : SaveType) (slot : Int) : Except Failure Files.Path :=
  if Number.isShort slot then .ok (k.path.child (fileName type slot))
  else .error (.oversizedNumber none)

/-- The path of the file that remembers the last automatic slot. -/
def rotationPath (k : SaveFolder) : Files.Path := k.path.child "persistent.json"

/-- Writes a slot file. -/
def write (k : SaveFolder) (tree : Files.Tree) (s : Save) : Files.Outcome Save :=
  match s.toText, k.slotPath s.type s.slot with
  | .ok text, .ok path =>
    let c := tree.storeText path text
    ⟨c.result.map fun _ => s, c.tree, []⟩
  | .error f, _ | _, .error f => ⟨.error f, tree, []⟩

/-- Reads a slot; an empty slot has no file. -/
def read (k : SaveFolder) (tree : Files.Tree) (type : SaveType) (slot : Int) (checked : Bool) :
    Except Failure (Option Save.Reading) := do
  let path ← k.slotPath type slot
  if ← (tree.has path).mapError .file then
    return some (← Save.ofText path.name checked (← tree.readText path))
  else return none

/-- A slot that can be read and holds a save. -/
def isValid (k : SaveFolder) (tree : Files.Tree) (type : SaveType) (slot : Int) : Bool :=
  match k.read tree type slot true with
  | .ok (some _) => true
  | _ => false

/-- The slots from a number on, with remarks on those that cannot be read. -/
def listFrom (k : SaveFolder) (tree : Files.Tree) (type : SaveType) :
    Nat → Int → List (Option Save) × List Remark
  | 0, _ => ([], [])
  | n + 1, slot =>
    let (saves, remarks) := k.listFrom tree type n (slot + 1)
    match k.read tree type slot true with
    | .ok r => (r.map Save.Reading.save :: saves, remarks)
    | .error f =>
      let message := s!"Unreadable {type.label} slot {slot}: {f.message}"
      (none :: saves, ⟨.warning, remarkSource, message⟩ :: remarks)

/-- All slots of a kind in order, with remarks on those that cannot be read. -/
def list (k : SaveFolder) (tree : Files.Tree) (type : SaveType) :
    List (Option Save) × List Remark :=
  k.listFrom tree type type.capacity 1

end SaveFolder

namespace Failure

/-- Failures because of which a slot is not written. -/
def spoilsSaving (f : Failure) : Bool := f.isFile || f.isData

/-- Failures because of which a slot is not loaded. -/
def spoilsLoading (f : Failure) : Bool := f.isFile || f.isData || f.isDialogue

end Failure

namespace Act

variable {σ : Type} (hear : Listener σ) (k : SaveFolder)

/-- Tells an event, if the folder does so. -/
def announce (e : Event) : Act σ Unit := do
  if k.announces then hear e

/-- The traversal to save: the one given, or that of the attached session. -/
def traversalToSave (given : Option Traversal) : Act σ Traversal := do
  match given with
  | some t => return t
  | none =>
    if !k.attached then throw .nothingToSave
    ofExcept (Files.ofChecked (Traversal.ofText (← session).stored))

/-- Writes a slot. -/
def writeSave (type : SaveType) (slot : Int) (thumbnail : Option String)
    (given : Option Traversal) : Act σ Save := do
  let t ← traversalToSave k given
  let st ← get
  ofOutcome (k.write st.files ⟨slot, type, st.setup.now.format, thumbnail.getD k.thumbnail, t⟩)

/-- Saves to a slot; nothing if that fails. -/
def save (type : SaveType) (slot : Int) (thumbnail : Option String) (given : Option Traversal) :
    Act σ (Option Save) := do
  match ← attempt Failure.spoilsSaving (writeSave k type slot thumbnail given) with
  | .ok s =>
    announce hear k (.saveCompleted type slot)
    return some s
  | .error f =>
    remark .error SaveFolder.remarkSource
      s!"Save to {type.label} slot {slot} failed: {f.message}"
    announce hear k (.saveFailed type slot f.message)
    return none

/-- Saves to the next automatic slot and remembers it; nothing if saving fails. -/
def autoSave (thumbnail : Option String) : Act σ (Option Save) := do
  let r ← ofOutcome (Rotation.model.load (← get).files k.rotationPath)
  match ← save hear k .auto r.nextSlot thumbnail none with
  | none => return none
  | some s =>
    -- a slot that has not been written is tried again the next time
    ofOutcome (Rotation.model.save (← get).files k.rotationPath { r with lastSlot := r.nextSlot })
    return some s

/-- Reads a slot. -/
def readSave (type : SaveType) (slot : Int) (checked : Bool) : Act σ (Option Save) := do
  return (← ofExcept (k.read (← get).files type slot checked)).map Save.Reading.save

/-- Reads a slot and resumes it in the attached session. -/
def readAndResume (type : SaveType) (slot : Int) (checked : Bool) : Act σ (Option Save) := do
  match ← ofExcept (k.read (← get).files type slot checked) with
  | none => return none
  | some r =>
    if k.attached then restore hear (← ofExcept r.stored)
    return some r.save

/-- Loads a slot; nothing if it is empty or that fails. -/
def load (type : SaveType) (slot : Int) (checked : Bool) : Act σ (Option Save) := do
  match ← attempt Failure.spoilsLoading (readAndResume hear k type slot checked) with
  | .ok none =>
    remark .warning SaveFolder.remarkSource s!"No save in {type.label} slot {slot}"
    return none
  | .ok (some s) =>
    announce hear k (.slotLoaded type slot)
    return some s
  | .error f =>
    remark .error SaveFolder.remarkSource
      s!"Load from {type.label} slot {slot} failed: {f.message}"
    announce hear k (.slotLoadFailed type slot f.message)
    return none

/-- All slots of a kind in order; empty and unreadable ones are nothing. -/
def listSaves (type : SaveType) : Act σ (List (Option Save)) := do
  let (saves, remarks) := k.list (← get).files type
  remarkAll remarks
  return saves

/-- Deletes a slot; false if it is empty or cannot be deleted. -/
def deleteSave (type : SaveType) (slot : Int) : Act σ Bool := do
  let path ← ofExcept (k.slotPath type slot)
  let tree := (← get).files
  if !(← ofExcept ((tree.has path).mapError .file)) then return false
  match tree.remove path with
  | .ok tree =>
    setFiles tree
    return true
  | .error f =>
    remark .error SaveFolder.remarkSource s!"Failed to delete {path}: {f.message}"
    return false

end Act

end VisualNovel
