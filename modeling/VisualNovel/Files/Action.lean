import VisualNovel.Failure

/-!
# Working with files

What a host can do with the files below the working folder.
-/

namespace VisualNovel.Files

/-- Something to do with files. -/
inductive Action where
  /-- Creates or replaces a file and makes the folders above it. -/
  | write (path : Path) (bytes : ByteArray)
  /-- Makes sure that a folder exists. -/
  | makeFolder (path : Path)
  | delete (path : Path)
  /-- Reads a file as text, with its line ends as they are. -/
  | read (path : Path)
  | has (path : Path)
  /-- Lists everything in order. -/
  | list
  deriving Inhabited

/-- What comes of it. -/
inductive Answer where
  | nothing
  | text (s : String)
  | flag (b : Bool)
  | names (ns : List String)
  deriving DecidableEq, Repr, Inhabited

/-- The text of a file, read by a decoder. -/
def Tree.readWith (decode? : ByteArray → Option String) (t : Tree) (p : Path) :
    Except Failure String :=
  match t.readBytes p with
  | .error f => .error (.file f)
  | .ok bytes => match decode? bytes with
    | some s => .ok s
    | none => .error .notText

/-- The text of a file, where all line ends are the same. -/
def Tree.readText (t : Tree) (p : Path) : Except Failure String := t.readWith Text.decode? p

/-- The failure of a change, if it failed. -/
def Change.result (c : Change) : Except Failure Unit :=
  match c.fault with
  | none => .ok ()
  | some f => .error (.file f)

/-- The answer to a change. -/
def Change.answer (c : Change) : Except Failure Answer × Tree :=
  (c.result.map fun _ => .nothing, c.tree)

/-- Does something with files. -/
def Action.run (t : Tree) : Action → Except Failure Answer × Tree
  | .write path bytes => (t.store path bytes).answer
  | .makeFolder path => (t.makeFolders path).answer
  | .delete path => (Change.ofStep t (t.remove path)).answer
  | .read path => ((t.readWith String.fromUTF8? path).map .text, t)
  | .has path => (((t.has path).mapError .file).map .flag, t)
  | .list => (.ok (.names t.listing), t)

end VisualNovel.Files
