import VisualNovel.Files.Path
import VisualNovel.Text.Line
import VisualNovel.Text.Order
import VisualNovel.Text.Quoted

/-!
# File trees

A tree holds the files and folders below the working folder. The folders above it are there, but
nothing else is known of them. The names in a path and its text are of bounded size.
-/

namespace VisualNovel.Files

/-- Why an operation on a path was refused. -/
inductive Cause where
  | missing
  | taken
  | notFolder
  | isFolder
  /-- A name or the whole path is too long. -/
  | tooLong
  /-- The path has a character that no path may have. -/
  | notAPath
  deriving DecidableEq, Repr, Inhabited

/-- A refusal and the path concerned. -/
structure Fault where
  /-- Why. -/
  cause : Cause
  /-- The path as it was asked for. -/
  path : Path
  deriving DecidableEq, Repr, Inhabited

/-- The number and the words for a cause in messages. -/
def Cause.wording : Cause → String
  | missing => "[Errno 2] No such file or directory"
  | taken => "[Errno 17] File exists"
  | notFolder => "[Errno 20] Not a directory"
  | isFolder => "[Errno 21] Is a directory"
  | tooLong => "[Errno 36] File name too long"
  | notAPath => "embedded null byte"

/-- The message of a refusal. -/
def Fault.message (f : Fault) : String :=
  match f.cause with
  | .notAPath => f.cause.wording
  | c => s!"{c.wording}: {Text.quoted f.path.toString}"

/-- What a name in a folder stands for. -/
inductive Entry where
  | file (bytes : ByteArray)
  | folder
  deriving Inhabited

/-- Two entries are the same if both are folders or both are files of the same bytes. -/
instance : DecidableEq Entry
  | .folder, .folder => .isTrue rfl
  | .folder, .file _ => .isFalse nofun
  | .file _, .folder => .isFalse nofun
  | .file ⟨a⟩, .file ⟨b⟩ =>
    if h : a = b then .isTrue (by rw [h])
    else .isFalse fun e => h (by injection e with e; injection e)

/-- The files and folders below the working folder. -/
structure Tree where
  /-- Each entry with the names that lead to it; no names occur twice. -/
  entries : List (List String × Entry)
  deriving DecidableEq, Inhabited

namespace Tree

/-- An empty working folder. -/
def empty : Tree := ⟨[]⟩

/-- The entry among a list of entries. -/
def findIn (names : List String) : List (List String × Entry) → Option Entry
  | [] => none
  | e :: es => if e.1 = names then some e.2 else findIn names es

/-- The entry that names lead to; no names lead to the working folder. -/
def find? (t : Tree) (names : List String) : Option Entry :=
  if names.isEmpty then some .folder else findIn names t.entries

/-- Replaces the entry at names or adds one. -/
def putIn (names : List String) (x : Entry) :
    List (List String × Entry) → List (List String × Entry)
  | [] => [(names, x)]
  | e :: es => if e.1 = names then (names, x) :: es else e :: putIn names x es

/-- Puts an entry at names. -/
def put (t : Tree) (names : List String) (x : Entry) : Tree := ⟨putIn names x t.entries⟩

/-- Removes the entry at names. -/
def erase (t : Tree) (names : List String) : Tree := ⟨t.entries.filter fun e => e.1 ≠ names⟩

/-- Where a path leads. -/
inductive Place where
  /-- To the working folder or to a place below it. -/
  | inside (names : List String)
  /-- To a folder above the working folder. -/
  | above
  deriving DecidableEq, Repr, Inhabited

/-- What is at a place, as far as that is known. -/
def at? (t : Tree) : Place → Option Entry
  | .inside names => t.find? names
  | .above => some .folder

/-- The size of the longest name in bytes. -/
def maxNameSize : Nat := 255

/-- The size of the longest text of a path in bytes. -/
def maxPathSize : Nat := 4095

/-- The place that a name leads to from a folder. -/
def Place.step (place : Place) (name : String) : Except Cause Place :=
  if maxNameSize < name.utf8ByteSize then .error .tooLong
  else match place with
    | .inside names =>
      if name ≠ ".." then .ok (.inside (names ++ [name]))
      else if names.isEmpty then .ok .above
      else .ok (.inside names.dropLast)
    | .above => if name = ".." then .ok .above else .error .missing

/-- Follows names from a place. Each has to start at a folder. -/
def walk (t : Tree) (place : Place) : List String → Except Cause Place
  | [] => .ok place
  | name :: rest =>
    match t.at? place with
    | none => .error .missing
    | some (.file _) => .error .notFolder
    | some .folder => match place.step name with
      | .error c => .error c
      | .ok next => t.walk next rest

/-- The place that a path leads to. Something need not be there, but all names before the last have
to lead to folders. -/
def locate (t : Tree) (p : Path) : Except Cause Place :=
  if p.parts.any fun name => name.toList.contains '\x00' then .error .notAPath
  else if maxPathSize < p.toString.utf8ByteSize then .error .tooLong
  else t.walk (if p.anchor = .working then .inside [] else .above) p.parts

/-- The entry of a path. -/
def entry (t : Tree) (p : Path) : Except Cause Entry := do
  match t.at? (← t.locate p) with
  | some x => .ok x
  | none => .error .missing

/-- Something is at the path. The question is refused if the path is too long. -/
def has (t : Tree) (p : Path) : Except Fault Bool :=
  match t.entry p with
  | .ok _ => .ok true
  | .error .tooLong => .error ⟨.tooLong, p⟩
  | .error _ => .ok false

/-- The first path at which there is something. -/
def first? (t : Tree) : List Path → Except Fault (Option Path)
  | [] => .ok none
  | p :: ps =>
    match t.has p with
    | .error f => .error f
    | .ok true => .ok (some p)
    | .ok false => t.first? ps

/-- A folder is at the path. -/
def hasFolder (t : Tree) (p : Path) : Bool := (t.entry p).toOption = some .folder

/-- The bytes of a file. -/
def readBytes (t : Tree) (p : Path) : Except Fault ByteArray :=
  match t.entry p with
  | .ok (.file bytes) => .ok bytes
  | .ok .folder => .error ⟨.isFolder, p⟩
  | .error c => .error ⟨c, p⟩

/-- Creates or replaces a file in an existing folder. -/
def writeBytes (t : Tree) (p : Path) (bytes : ByteArray) : Except Fault Tree :=
  match t.locate p with
  | .error c => .error ⟨c, p⟩
  | .ok .above => .error ⟨.isFolder, p⟩
  | .ok (.inside names) => match t.find? names with
    | some .folder => .error ⟨.isFolder, p⟩
    | _ => .ok (t.put names (.file bytes))

/-- Removes a file. -/
def remove (t : Tree) (p : Path) : Except Fault Tree :=
  match t.locate p with
  | .error c => .error ⟨c, p⟩
  | .ok .above => .error ⟨.isFolder, p⟩
  | .ok (.inside names) => match t.find? names with
    | some (.file _) => .ok (t.erase names)
    | some .folder => .error ⟨.isFolder, p⟩
    | none => .error ⟨.missing, p⟩

/-- Creates a folder in an existing folder. -/
def makeFolder (t : Tree) (p : Path) : Except Fault Tree :=
  match t.locate p with
  | .error c => .error ⟨c, p⟩
  | .ok .above => .error ⟨.taken, p⟩
  | .ok (.inside names) =>
    if (t.find? names).isSome then .error ⟨.taken, p⟩ else .ok (t.put names .folder)

end Tree

/-- A tree after a change. If the change failed half way, what was done before is still there. -/
structure Change where
  /-- The tree. -/
  tree : Tree
  /-- Why the change failed. -/
  fault : Option Fault := none
  deriving DecidableEq, Inhabited

/-- A change of one step, which does nothing if it fails. -/
def Change.ofStep (t : Tree) : Except Fault Tree → Change
  | .ok t => ⟨t, none⟩
  | .error f => ⟨t, some f⟩

/-- A change and then another one, unless the first fails. -/
def Change.andThen (c : Change) (next : Tree → Change) : Change :=
  match c.fault with
  | none => next c.tree
  | some _ => c

namespace Tree

/-- Creates a folder unless it is there. -/
def ensureFolder (t : Tree) (p : Path) : Change :=
  match t.makeFolder p with
  | .ok t => ⟨t, none⟩
  | .error f => if t.hasFolder p then ⟨t, none⟩ else ⟨t, some f⟩

/-- Makes sure that a folder exists, given by its names from the innermost out. The folders above it
are made first if it cannot be created without them. -/
def makeFoldersFrom (anchor : Anchor) : List String → Tree → Change
  | [], t => t.ensureFolder ⟨anchor, []⟩
  | name :: outer, t =>
    let p : Path := ⟨anchor, (name :: outer).reverse⟩
    match t.makeFolder p with
    | .error ⟨.missing, _⟩ =>
      (makeFoldersFrom anchor outer t).andThen fun t => t.ensureFolder p
    | _ => t.ensureFolder p

/-- Makes sure that a folder exists, with all folders above it. -/
def makeFolders (t : Tree) (p : Path) : Change := makeFoldersFrom p.anchor p.parts.reverse t

/-- Creates or replaces a file and makes the folders above it. -/
def store (t : Tree) (p : Path) (bytes : ByteArray) : Change :=
  (t.makeFolders p.parent).andThen fun t => .ofStep t (t.writeBytes p bytes)

/-- Creates or replaces a file with a text and makes the folders above it. -/
def storeText (t : Tree) (p : Path) (s : String) : Change := t.store p s.toUTF8

/-- The paths of all entries as texts, in order. -/
def listing (t : Tree) : List String :=
  (t.entries.map fun e => String.intercalate "/" e.1).mergeSort fun a b => a ≤ b

/-- Everything below a folder, name by name in order. -/
def below (t : Tree) (names : List String) : List (List String × Entry) :=
  let inside := t.entries.filter fun e => names.isPrefixOf e.1 && names.length < e.1.length
  inside.mergeSort fun a b => !Text.namesPrecede b.1 a.1

end Tree

end VisualNovel.Files
