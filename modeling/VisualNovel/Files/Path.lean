import VisualNovel.Text.Split

/-!
# Paths

A path is a sequence of names, counted from the working folder or from the root. Empty names and
names that stand for the folder itself are dropped. Two slashes in front are not the same as one,
though both stand for the root.
-/

namespace VisualNovel.Files

/-- Where a path begins. -/
inductive Anchor where
  /-- The working folder. -/
  | working
  /-- The root. -/
  | root
  /-- The root, written with two slashes. -/
  | doubleRoot
  deriving DecidableEq, Repr, Inhabited

/-- What is written for the beginning of a path. -/
def Anchor.text : Anchor → String
  | working => ""
  | root => "/"
  | doubleRoot => "//"

/-- A path. -/
structure Path where
  /-- Where it begins. -/
  anchor : Anchor
  /-- The names, outermost first. -/
  parts : List String
  deriving DecidableEq, Repr, Inhabited

namespace Path

/-- The names in a text. -/
def partsOf (s : List Char) : List String :=
  ((Text.splitOn ['/'] s).filter fun p => !p.isEmpty && p ≠ ['.']).map String.ofList

/-- The beginning of a path, which the slashes in front of its text tell. -/
def anchorOf (s : List Char) : Anchor :=
  match (s.takeWhile (· = '/')).length with
  | 0 => .working
  | 2 => .doubleRoot
  | _ => .root

/-- The path that a text writes. -/
def ofString (s : String) : Path := ⟨anchorOf s.toList, partsOf s.toList⟩

/-- The text of a path. -/
def toString (p : Path) : String :=
  match p.anchor, p.parts with
  | .working, [] => "."
  | anchor, parts => anchor.text ++ String.intercalate "/" parts

instance : ToString Path := ⟨toString⟩

/-- The path of something in a folder. -/
def child (p : Path) (name : String) : Path := { p with parts := p.parts ++ [name] }

/-- A path counted from another one, unless it is counted from the root. -/
def join (p : Path) (s : String) : Path :=
  let q := ofString s
  if q.anchor = .working then { p with parts := p.parts ++ q.parts } else q

/-- The folder that contains what the path names. -/
def parent (p : Path) : Path := { p with parts := p.parts.dropLast }

/-- The last name, or the empty text. -/
def name (p : Path) : String := p.parts.getLast?.getD ""

/-- The last name has a dot with something before and after it. -/
def hasSuffix (p : Path) : Bool :=
  let s := p.name.toList
  let afterDot := s.reverse.takeWhile (· ≠ '.')
  !afterDot.isEmpty && afterDot.length + 1 < s.length

end Path

end VisualNovel.Files
