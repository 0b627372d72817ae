import VisualNovel.Number.Integer

/-!
# Real numbers as text

A decimal is a coefficient and a power of ten. It stands for the nearest floating-point number.
Reading covers the two grammars in use: numbers in conditions, where digits may be grouped by
underscores, and stored numbers.
-/

namespace VisualNovel.Number

/-- A decimal number: `coefficient * 10 ^ exponent`, negated if `negative`. -/
structure Decimal where
  /-- A minus sign stands in front. -/
  negative : Bool
  /-- The digits, read as one number. -/
  coefficient : Nat
  /-- The power of ten that the coefficient is scaled by. -/
  exponent : Int
  deriving DecidableEq, Repr

/-- The positive infinity. -/
def infinity : Float := Float.ofBits 0x7FF0000000000000

/-- A value that is no number. -/
def notANumber : Float := Float.ofBits 0x7FF8000000000000

/-- Puts a sign on a magnitude. -/
def withSign (negative : Bool) (x : Float) : Float := if negative then -x else x

/-- The floating-point number nearest to a decimal. Exponents beyond the range of the type are
settled without computing the power. -/
def Decimal.toFloat (d : Decimal) : Float :=
  let size : Int := (decimal d.coefficient).length + d.exponent
  withSign d.negative <|
    if d.coefficient = 0 then 0
    else if 310 < size then infinity
    else if size < -330 then 0
    else Float.ofScientific d.coefficient (d.exponent < 0) d.exponent.natAbs

/-- Reads the exponent part, which has to be all that is left. -/
def readExponent? : List Char → Option Int
  | [] => some 0
  | c :: s =>
    if c = 'e' ∨ c = 'E' then
      let (negative, body) := spanSign s
      match spanDigits body with
      | (d :: ds, []) => some (signed negative (ofDigits (d :: ds)))
      | _ => none
    else none

/-- Reads an unsigned decimal: digits with an optional point among them, then an exponent. -/
def readUnsigned? (negative : Bool) (s : List Char) : Option Decimal :=
  let (whole, rest) := spanDigits s
  let (fraction, rest) := match rest with
    | '.' :: r => spanDigits r
    | r => ([], r)
  if whole.isEmpty && fraction.isEmpty then none
  else (readExponent? rest).map fun e =>
    ⟨negative, ofDigits (whole ++ fraction), e - fraction.length⟩

/-- The capital letters of the first script become small. -/
def foldCase (s : List Char) : List Char := s.map Char.toLower

/-- Reads a real number or one of the words for an infinity and for no number at all. -/
def readFloat? (s : List Char) : Option Float :=
  let (negative, body) := spanSign s
  let word := foldCase body
  if word = "inf".toList ∨ word = "infinity".toList then some (withSign negative infinity)
  else if word = "nan".toList then some notANumber
  else (readUnsigned? negative body).map Decimal.toFloat

/-- Removes underscores, each of which has to stand between two digits. The first argument is the
character before. -/
def ungroup? : Option Char → List Char → Option (List Char)
  | prev, [] => if prev = some '_' then none else some []
  | prev, c :: s =>
    if c = '_' then
      if prev.any Char.isDigit then ungroup? (some c) s else none
    else if prev = some '_' ∧ !c.isDigit then none
    else (ungroup? (some c) s).map (c :: ·)

/-- Reads a number in a condition; there is no literal for "not a number". -/
def readNumber? (s : List Char) : Option Float := do
  let body ← ungroup? none ((Text.trimBy Text.isSpace s).map plainDigit)
  let x ← readFloat? body
  if x.isNaN then none else some x

/-- Reads the text of a stored real number. -/
def readStoredFloat? (s : List Char) : Option Float :=
  match readFloat? (Text.trimBy Text.isSpace s) with
  | some x => some x
  | none => (dropUnderscores? s).bind readFloat?

end VisualNovel.Number
