import VisualNovel.Digest.Base64
import VisualNovel.Digest.Sha256
import VisualNovel.Event.Kinds
import VisualNovel.Failure
import VisualNovel.Traversal.Stored

/-!
# Save slots

A save slot is a file with the traversal of a session, the time and a thumbnail. Its last member is
a checksum of the others. A slot without a checksum is accepted as it is.
-/

namespace VisualNovel

/-- What a slot file's name starts with; slots store their kind by it. -/
def SaveType.stem : SaveType → String
  | auto => "auto_"
  | quick => "quick_"
  | manual => ""

/-- The kinds of slots. -/
def SaveType.all : List SaveType := [auto, quick, manual]

/-- The number of slots of a kind. -/
def SaveType.capacity : SaveType → Nat
  | auto => 6
  | quick => 6
  | manual => 30

/-- The contents of a save slot. -/
structure Save where
  /-- The number of the slot among those of its kind. -/
  slot : Int
  /-- The kind of the slot. -/
  type : SaveType
  /-- The time of saving in words. -/
  time : String
  /-- A thumbnail supplied by the host. -/
  thumbnail : String := ""
  /-- The traversal to resume. -/
  traversal : Traversal
  deriving DecidableEq, Repr, Inhabited

namespace Save

/-- The name of the member that holds the checksum. -/
def checksumName : String := "checksum"

/-- The members of a slot without its checksum. -/
def members (s : Save) : List (String × Json) :=
  [("slot_index", .int s.slot), ("save_type", .str s.type.stem), ("timestamp", .str s.time),
    ("screenshot_data", .str s.thumbnail), ("state", s.traversal.toJson)]

/-- The checksum of members: a digest of their text with the members of every object in order. -/
def checksum (ms : List (String × Json)) : String :=
  let text := (Json.obj ms).sorted.render .canonical
  String.ofList (Digest.base64 (Digest.sha256 text.toUTF8.toList))

/-- What a slot file holds: the members and their checksum. -/
def toJson (s : Save) : Json :=
  .obj (s.members ++ [(checksumName, .str (checksum s.members))])

/-- The text of a slot file. An integer with too many digits cannot be written. -/
def toText (s : Save) : Except Failure String :=
  if s.toJson.numbers.all Number.isShort then .ok (s.toJson.render .slot)
  else .error (.oversizedNumber none)

end Save

namespace Schema

/-- The check of a kind of slots. -/
def saveType : Json → Checked SaveType
  | .str s => match SaveType.all.find? fun t => t.stem = s with
    | some t => .valid t
    | none => .fail .notChoice
  | .broken _ => .fail .notText
  | _ => .fail .notChoice

/-- The check of the contents of a slot. -/
def save : Json → Checked Save :=
  model ["slot_index", "save_type", "timestamp", "screenshot_data", "state"] fun ms =>
    Save.mk <$> required "slot_index" int ms <*> required "save_type" saveType ms <*>
      required "timestamp" str ms <*> optional "screenshot_data" "" str ms <*>
      required "state" traversal ms

end Schema

namespace Save

/-- A stored checksum that is present is that of the other members. -/
def checksumHolds (stored : Option Json) (others : List (String × Json)) : Bool :=
  match stored with
  | none => true
  | some (.str s) => s.isEmpty || s == checksum others
  | some c => c.isEmptyValue

/-- A save as it was read from a file. -/
structure Reading where
  /-- The save, with replacements in strings that are no text. -/
  save : Save
  /-- The first string of the traversal that is no text. -/
  broken : Option (List Nat)
  deriving DecidableEq, Repr, Inhabited

/-- Reads the text of a slot file, with or without a look at its checksum. -/
def ofText (fileName : String) (checked : Bool) (text : String) : Except Failure Reading :=
  match Json.read .slot text with
  | .error .malformed => .error .notJson
  | .error (.oversized digits) => .error (.oversizedNumber (some digits))
  | .ok (.obj ms) =>
    let others := Json.dropMember checksumName ms
    if checked && !checksumHolds (Json.member? checksumName ms) others then .error .wrongChecksum
    else match Schema.save (.obj others) with
      | .valid s => .ok ⟨s, (Json.member? "state" others).bind Json.broken?⟩
      | .invalid ps => .error (.data ps)
  | .ok _ => .error (.notASave fileName)

/-- The traversal of a save that was read, as text. -/
def Reading.stored (r : Reading) : Except Failure String :=
  match r.broken with
  | none => .ok r.save.traversal.toText
  | some points => .error (.notStorable points)

end Save

end VisualNovel
