import VisualNovel.Files.Media
import VisualNovel.Files.Model
import VisualNovel.Number.Quantity

/-!
# Illustrations

One illustration is shown at a time, full screen. Illustrations are known by name and looked up in
a folder; once loaded they are kept. One that is missing leaves what is shown as it is.
-/

namespace VisualNovel

/-- The layer that shows illustrations, with its files. -/
structure IllustrationLayer where
  /-- The folder of illustrations. -/
  folder : Files.Path
  /-- The names of loaded illustrations and their files. -/
  loaded : List (String × String) := []
  /-- The name of the illustration that is shown. -/
  current : Option String := none
  /-- The file of the image that is shown. -/
  image : Option String := none
  /-- How opaque the image is. -/
  opacity : Quantity := .real 0
  /-- The files below the working folder. -/
  files : Files.Tree := .empty
  /-- The files that have been read, oldest first. -/
  reads : List String := []
  /-- What has been remarked, oldest first. -/
  remarks : List Remark := []
  deriving DecidableEq, Inhabited

namespace IllustrationLayer

/-- What remarks about illustrations are filed under. -/
def remarkSource : String := "engine.graphics.cg"

/-- The ends of the names of image files, in the order in which they are tried. -/
def extensions : List String := [".png", ".jpg", ".jpeg", ".bmp"]

/-- Something of the illustration can be seen. -/
def isVisible (l : IllustrationLayer) : Bool := l.image.isSome && l.opacity.isPositive

/-- The file of a name. -/
def locate (l : IllustrationLayer) (name : String) : Except Files.Fault (Option Files.Path) :=
  l.files.first? (extensions.map fun e => l.folder.join (name ++ e))

/-- Adds a remark. -/
def remark (l : IllustrationLayer) (severity : Severity) (message : String) : IllustrationLayer :=
  { l with remarks := l.remarks ++ [⟨severity, remarkSource, message⟩] }

/-- The layer after a file was found for a name that has not been loaded yet, and the file if it can
be decoded. -/
def read (l : IllustrationLayer) (name : String) (path : Files.Path) :
    Option String × IllustrationLayer :=
  let file := path.toString
  let l := { l with reads := l.reads ++ [file] }
  if Files.Media.isGood l.files path then
    (some file, { l with loaded := l.loaded ++ [(name, file)] })
  else (none, l.remark .error s!"Failed to load CG {file}: {Files.Media.badMessage}")

/-- The file of the image of a name, which is loaded unless it has been loaded before. -/
def load (l : IllustrationLayer) (name : String) :
    Except Files.Fault (Option String × IllustrationLayer) :=
  match l.loaded.lookup name with
  | some file => .ok (some file, l)
  | none => do
    match ← l.locate name with
    | none => return (none, l.remark .warning s!"CG '{name}' could not be found in {l.folder}")
    | some path => return l.read name path

/-- Shows an illustration by name; false if it cannot be loaded. -/
def display (l : IllustrationLayer) (name : String) :
    Except Files.Fault (Bool × IllustrationLayer) := do
  match ← l.load name with
  | (none, l) => return (false, l)
  | (some file, l) =>
    return (true, { l with current := some name, image := some file, opacity := .real 1 })

/-- Hides the illustration. -/
def hide (l : IllustrationLayer) : IllustrationLayer :=
  { l with current := none, image := none, opacity := .real 0 }

end IllustrationLayer

end VisualNovel
