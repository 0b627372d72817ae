import VisualNovel.Json.Basic
import VisualNovel.Number.Shortest
import VisualNovel.Text.Quoted

/-!
# JSON text from values

One printer with a style: on one line or indented, with or without characters beyond the first
128, and with a layout of real numbers. The styles in use are `stored` and `storedIndented` for the
models kept in files and `slot`, `canonical` for save slots.
-/

namespace VisualNovel.Json

open Number Text

/-- How JSON text is laid out. -/
structure Style where
  /-- The spaces by which each level is indented; nothing puts all on one line. -/
  indent : Option Nat
  /-- Characters from code point 127 on are escaped. -/
  asciiOnly : Bool
  /-- Writes a real number. -/
  real : Float → List Char

/-- Real numbers in stored models: an exponent only beyond sixteen digits or five leading zeros. -/
def storedReal : RealLayout := ⟨-5, 15, false, 1⟩

/-- Real numbers in save slots: an exponent has a sign and at least two digits. -/
def slotReal : RealLayout := ⟨-4, 15, true, 2⟩

/-- Stored models have no literal for values that are not finite. -/
def formatStoredReal (x : Float) : List Char :=
  if x.isFinite then storedReal.format x else "null".toList

/-- Save slots name the values that are not finite. -/
def formatSlotReal (x : Float) : List Char :=
  if x.isFinite then slotReal.format x
  else if x.isNaN then "NaN".toList
  else if x < 0 then "-Infinity".toList
  else "Infinity".toList

/-- A stored model on one line. -/
def Style.stored : Style := ⟨none, false, formatStoredReal⟩

/-- A stored model as a file of its own. -/
def Style.storedIndented : Style := ⟨some 2, false, formatStoredReal⟩

/-- A save slot. -/
def Style.slot : Style := ⟨some 2, true, formatSlotReal⟩

/-- The text of a save slot that its checksum is taken of. -/
def Style.canonical : Style := ⟨none, true, formatSlotReal⟩

/-- The escape of a code point of the basic plane. -/
def escapeUnit (n : Nat) : List Char := '\\' :: 'u' :: hex 4 n

/-- The escape of any code point; beyond the basic plane it is a surrogate pair. -/
def escapePoint (n : Nat) : List Char :=
  if n < 0x10000 then escapeUnit n
  else
    escapeUnit (0xD800 + (n - 0x10000) / 0x400) ++ escapeUnit (0xDC00 + (n - 0x10000) % 0x400)

/-- One character of a string. -/
def escapeChar (asciiOnly : Bool) (c : Char) : List Char :=
  if c = '"' then ['\\', '"']
  else if c = '\\' then ['\\', '\\']
  else if c = '\x08' then ['\\', 'b']
  else if c = '\x0c' then ['\\', 'f']
  else if c = '\n' then ['\\', 'n']
  else if c = '\r' then ['\\', 'r']
  else if c = '\t' then ['\\', 't']
  else if c.toNat < 0x20 then escapeUnit c.toNat
  else if asciiOnly && 0x7F ≤ c.toNat then escapePoint c.toNat
  else [c]

/-- The characters of a string between its quotes. -/
def escape (asciiOnly : Bool) (s : List Char) : List Char := s.flatMap (escapeChar asciiOnly)

/-- One code point of a string that is no text: half of a surrogate pair is always escaped. -/
def escapeLoose (asciiOnly : Bool) (n : Nat) : List Char :=
  if isHalf n then escapeUnit n else escapeChar asciiOnly (Char.ofNat n)

/-- A string in quotes. -/
def printString (asciiOnly : Bool) (s : String) : List Char :=
  '"' :: (escape asciiOnly s.toList ++ ['"'])

/-- The start of a line at a level, or nothing on one line. -/
def Style.newline (st : Style) (level : Nat) : List Char :=
  match st.indent with
  | none => []
  | some k => '\n' :: List.replicate (k * level) ' '

/-- What stands between a member's name and its value. -/
def Style.colon (st : Style) : List Char :=
  if st.indent.isSome then [':', ' '] else [':']

mutual
/-- The text of a value that starts at a level. -/
def print (st : Style) (level : Nat) : Json → List Char
  | .null => "null".toList
  | .bool b => (if b then "true" else "false").toList
  | .int n | .wide n => formatInt n
  | .real x => st.real x
  | .str s => printString st.asciiOnly s
  | .broken points => '"' :: (points.flatMap (escapeLoose st.asciiOnly) ++ ['"'])
  | .arr [] => ['[', ']']
  | .arr (v :: vs) =>
    '[' :: (st.newline (level + 1) ++ print st (level + 1) v ++ printItems st (level + 1) vs ++
      st.newline level ++ [']'])
  | .obj [] => ['{', '}']
  | .obj ((k, v) :: ms) =>
    '{' :: (st.newline (level + 1) ++ printString st.asciiOnly k ++ st.colon ++
      print st (level + 1) v ++ printMembers st (level + 1) ms ++ st.newline level ++ ['}'])
/-- The items after the first. -/
def printItems (st : Style) (level : Nat) : List Json → List Char
  | [] => []
  | v :: vs => ',' :: (st.newline level ++ print st level v ++ printItems st level vs)
/-- The members after the first. -/
def printMembers (st : Style) (level : Nat) : List (String × Json) → List Char
  | [] => []
  | (k, v) :: ms =>
    ',' :: (st.newline level ++ printString st.asciiOnly k ++ st.colon ++ print st level v ++
      printMembers st level ms)
end

/-- The text of a value. -/
def render (st : Style) (v : Json) : String := String.ofList (print st 0 v)

end VisualNovel.Json
