import VisualNovel.Files.Action
import VisualNovel.Remark
import VisualNovel.Json.Printer

/-!
# Models kept in files

A model is kept in a file as indented JSON. A file that is missing is created from the model's
defaults, and one that cannot be read or holds something else is reset to them.
-/

namespace VisualNovel.Files

/-- How a model is kept in files. -/
structure Model (α : Type) where
  /-- The name of the model in remarks. -/
  name : String
  /-- Checks stored data. -/
  check : Json → Checked α
  /-- Makes stored data. -/
  toJson : α → Json

/-- What remarks about files are filed under. -/
def remarkSource : String := "engine.resources.data_io"

/-- A checked value, or the failure of its check. -/
def ofChecked {α : Type} : Checked α → Except Failure α
  | .valid a => .ok a
  | .invalid ps => .error (.data ps)

/-- The outcome of an operation on files that may fail half way. -/
structure Outcome (α : Type) where
  /-- The value or the failure. -/
  result : Except Failure α
  /-- The files afterwards. -/
  tree : Tree
  /-- What was remarked. -/
  remarks : List Remark := []

namespace Model

variable {α : Type}

/-- The model with every member at its default; a member without a default makes it fail. -/
def defaults (m : Model α) : Except Failure α := ofChecked (m.check (.obj []))

/-- Writes a model to a file. -/
def save (m : Model α) (tree : Tree) (path : Path) (a : α) : Outcome Unit :=
  let c := tree.storeText path ((m.toJson a).render .storedIndented)
  ⟨c.result, c.tree, []⟩

/-- Writes the defaults to a file. -/
def reset (m : Model α) (tree : Tree) (path : Path) (remarks : List Remark) : Outcome α :=
  match m.defaults with
  | .error f => ⟨.error f, tree, remarks⟩
  | .ok a =>
    let saved := m.save tree path a
    ⟨saved.result.map fun _ => a, saved.tree, remarks⟩

/-- Reads a model from an existing file. -/
def read (m : Model α) (tree : Tree) (path : Path) : Except Failure α :=
  (tree.readText path).bind fun s => ofChecked (Schema.text m.check s)

/-- Reads a model from a file that may be missing or hold something else. -/
def load (m : Model α) (tree : Tree) (path : Path) : Outcome α :=
  let c := tree.makeFolders path.parent
  match c.result.bind fun _ => (c.tree.has path).mapError .file with
  | .error f => ⟨.error f, c.tree, []⟩
  | .ok false => m.reset c.tree path []
  | .ok true => match m.read c.tree path with
    | .ok a => ⟨.ok a, c.tree, []⟩
    | .error f =>
      m.reset c.tree path [⟨.warning, remarkSource,
        s!"{m.name} file at {path} was invalid ({f.message}). Resetting to default."⟩]

end Model

end VisualNovel.Files
