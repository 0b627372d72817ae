import VisualNovel.Failure
import VisualNovel.Remark

/-!
# The folder of scripts

A node is looked for in all script files below a folder, in the order of their paths. The files are
read anew for every search.
-/

namespace VisualNovel

namespace Script

open Files

/-- What remarks about scripts are filed under. -/
def remarkSource : String := "dialogue.parser"

/-- The end of the name of every script file. -/
def extension : List Char := ".dlg".toList

/-- The name is that of a script file. -/
def isScriptName (name : String) : Bool := extension.isSuffixOf name.toList

/-- What is named like a script below a folder, in order. -/
def inFolder (tree : Tree) (folder : Path) : List (Path × Entry) :=
  match tree.locate folder with
  | .ok (.inside names) =>
    if !tree.hasFolder folder then []
    else ((tree.below names).filter fun e => e.1.getLast?.any isScriptName).map fun e =>
      ({ folder with parts := folder.parts ++ e.1.drop names.length }, e.2)
  | _ => []

/-- What is named like a script below a folder, and a remark if the folder is missing. -/
def files (tree : Tree) (folder : Path) : Except Failure (List (Path × Entry) × List Remark) :=
  match tree.has folder with
  | .error f => .error (.file f)
  | .ok true => .ok (inFolder tree folder, [])
  | .ok false =>
    .ok ([], [⟨.warning, remarkSource, s!"Dialogue directory not found: {folder}"⟩])

/-- The text of a script file. -/
def readSource (path : Path) : Entry → Except Failure String
  | .folder => .error (.unreadableScript path ⟨.isFolder, path⟩)
  | .file bytes => match Text.decode? bytes with
    | some s => .ok s
    | none => .error .notText

/-- Looks for a node in files, one after the other. -/
def searchFiles (name context : String) (vs : Variables) :
    List (Path × Entry) → Except Failure Node × Variables
  | [] => (.error (.noNode name), vs)
  | (path, x) :: rest =>
    match readSource path x with
    | .error f => (.error f, vs)
    | .ok source => match compile source name context vs with
      | (.error f, vs) => (.error (.script (some path) f), vs)
      | (.ok (some node), vs) => (.ok node, vs)
      | (.ok none, vs) => searchFiles name context vs rest

/-- The remark that no script defines the node. -/
def noNodeRemark : Except Failure Node → List Remark
  | .error (.noNode name) => [⟨.error, remarkSource, s!"Node not found: {name}"⟩]
  | _ => []

/-- The outcome of looking for a node. -/
structure Search where
  /-- The node, or why there is none. -/
  result : Except Failure Node
  /-- The variables after the declarations that were read. -/
  vars : Variables
  /-- What was remarked on the way. -/
  remarks : List Remark

/-- Looks for a node below a folder. -/
def search (tree : Tree) (folder : Path) (vs : Variables) (name context : String) : Search :=
  match files tree folder with
  | .error f => ⟨.error f, vs, []⟩
  | .ok (paths, remarks) =>
    let (result, vs) := searchFiles name context vs paths
    ⟨result, vs, remarks ++ noNodeRemark result⟩

end Script

end VisualNovel
