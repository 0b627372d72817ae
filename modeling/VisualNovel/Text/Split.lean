/-!
# Splitting a text

A text is cut at every occurrence of a separator, found from left to right without overlap, or once
at the first occurrence of a character.
-/

namespace VisualNovel.Text

/-- Adds a character to the front of the first part. -/
def consHead (c : Char) : List (List Char) → List (List Char)
  | [] => [[c]]
  | p :: ps => (c :: p) :: ps

/-- Splits after passing over the characters of a separator that are still to be dropped. -/
def splitFrom (sep : List Char) : Nat → List Char → List (List Char)
  | _, [] => [[]]
  | k + 1, _ :: s => splitFrom sep k s
  | 0, c :: s =>
    if sep.isPrefixOf (c :: s) then [] :: splitFrom sep (sep.length - 1) s
    else consHead c (splitFrom sep 0 s)

/-- The parts of a text between the occurrences of a separator. -/
def splitOn (sep : List Char) (s : List Char) : List (List Char) := splitFrom sep 0 s

/-- A separator occurs in a text. -/
def occurs (sep : List Char) : List Char → Bool
  | [] => sep.isEmpty
  | c :: s => sep.isPrefixOf (c :: s) || occurs sep s

/-- What stands before and after the first occurrence of a character. -/
def breakAt (c : Char) : List Char → Option (List Char × List Char)
  | [] => none
  | x :: s =>
    if x = c then some ([], s) else (breakAt c s).map fun p => (x :: p.1, p.2)

/-- What follows a given beginning. -/
def dropPrefix? : List Char → List Char → Option (List Char)
  | [], s => some s
  | _ :: _, [] => none
  | p :: ps, c :: s => if p = c then dropPrefix? ps s else none

/-- The texts with a separator between neighbours. -/
def join (sep : List Char) : List (List Char) → List Char
  | [] => []
  | [s] => s
  | s :: t :: rest => s ++ sep ++ join sep (t :: rest)

end VisualNovel.Text
