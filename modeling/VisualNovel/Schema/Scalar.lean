import VisualNovel.Schema.Basic
import VisualNovel.Number.Exact

/-!
# Checks of single values

Stored numbers and flags may be written in several ways: an integer as an integral real number, a
flag or a text, a flag as a number or as one of a few words. Wide integers are integers only. Texts
are never converted.
-/

namespace VisualNovel.Schema

open Number

/-- The integers that an integral real number may stand for. -/
def isWordSized (n : Int) : Bool := n.natAbs < Nat.pow 2 63

/-- An integer. -/
def int : Json → Checked Int
  | .int n | .wide n => .valid n
  | .bool b => .valid (if b then 1 else 0)
  | .broken _ => .fail .notText
  | .real x =>
    if !x.isFinite then .fail .notFinite
    else match exactInt? x with
      | some n => if isWordSized n then .valid n else .fail .oversizedInt
      | none => .fail .fractionalInt
  | .str s => match readStoredInt s.toList with
    | .ok n => .valid n
    | .error .unreadable => .fail .unreadableInt
    | .error .oversized => .fail .oversizedInt
  | _ => .fail .notInt

/-- A real number. -/
def real : Json → Checked Float
  | .real x => .valid x
  | .int n => let x := ofInt n; if x.isFinite then .valid x else .fail .notReal
  | .bool b => .valid (if b then 1 else 0)
  | .str s => match readStoredFloat? s.toList with
    | some x => .valid x
    | none => .fail .unreadableReal
  | .broken _ => .fail .notText
  | _ => .fail .notReal

/-- The words for yes. -/
def yesWords : List String := ["1", "on", "t", "true", "y", "yes"]

/-- The words for no. -/
def noWords : List String := ["0", "off", "f", "false", "n", "no"]

/-- A number as a flag. -/
def flagOfInt (n : Int) : Checked Bool :=
  if n = 1 then .valid true else if n = 0 then .valid false else .fail .unreadableBool

/-- A flag. -/
def bool : Json → Checked Bool
  | .bool b => .valid b
  | .int n => if isWord n then flagOfInt n else .fail .notBool
  | .broken _ => .fail .notText
  | .real x => match exactInt? x with
    | some n => if isWordSized n then flagOfInt n else .fail .notBool
    | none => .fail .notBool
  | .str s =>
    let word := String.ofList (foldCase s.toList)
    if yesWords.contains word then .valid true
    else if noWords.contains word then .valid false
    else .fail .unreadableBool
  | _ => .fail .notBool

/-- A text. Halves of surrogate pairs are replaced. -/
def str : Json → Checked String
  | .str s => .valid s
  | .broken points => .valid (Json.textOf points)
  | _ => .fail .notString

/-- A list of integers. -/
def ints : Json → Checked (List Int) := list int

/-- A list of texts. -/
def strs : Json → Checked (List String) := list str

end VisualNovel.Schema
