import VisualNovel.Number.Digit
import VisualNovel.Text.Blank

/-!
# Integers as text

An integer is written as decimal digits after an optional sign. Reading allows single underscores
between digits. Scripts may use the digits of any script; stored numbers use the first ten only and
may carry leading zeros and a fraction of zeros.
-/

namespace VisualNovel.Number

/-- The values of digits between which single underscores may stand. The flag says whether the
character before was a digit. -/
def groupedDigits (value? : Char → Option Nat) : Bool → List Char → Option (List Nat)
  | afterDigit, [] => if afterDigit then some [] else none
  | afterDigit, c :: s =>
    match value? c with
    | some d => (groupedDigits value? true s).map (d :: ·)
    | none => if c = '_' ∧ afterDigit then groupedDigits value? false s else none

/-- The number that digits write, most significant first. -/
def ofDigits (ds : List Nat) : Nat := ds.foldl (fun n d => 10 * n + d) 0

/-- The digits of a number, most significant first. -/
def decimal (n : Nat) : List Char := (Nat.toDigits 10 n)

/-- An integer in decimal digits, with a minus sign if it is negative. -/
def formatInt (n : Int) : List Char :=
  match n with
  | .ofNat k => decimal k
  | .negSucc k => '-' :: decimal (k + 1)

/-- A sign at the front of a text: whether it is a minus, and what follows it. -/
def spanSign : List Char → Bool × List Char
  | '-' :: s => (true, s)
  | '+' :: s => (false, s)
  | s => (false, s)

/-- A magnitude with its sign. -/
def signed (negative : Bool) (n : Nat) : Int := if negative then -(n : Int) else n

/-- The integers that fit into a machine word. -/
def isWord (n : Int) : Bool := -(Nat.pow 2 63 : Nat) ≤ n && n < (Nat.pow 2 63 : Nat)

/-- The longest integer literal, in digits. -/
def maxDigits : Nat := 4300

/-- An integer has few enough digits to be written out. -/
def isShort (n : Int) : Bool := (decimal n.natAbs).length ≤ maxDigits

/-- Reads an integer literal of a script, with blanks around it. -/
def readInt? (s : List Char) : Option Int :=
  let (negative, body) := spanSign (Text.trim s)
  match groupedDigits digitValue? false body with
  | some ds => if ds.length ≤ maxDigits then some (signed negative (ofDigits ds)) else none
  | none => none

/-- The value of one of the digits `0` to `9`. -/
def plainDigitValue? (c : Char) : Option Nat :=
  if c.isDigit then some (c.toNat - 48) else none

/-- The digits at the front of a text, as values, and what follows them. -/
def spanDigits : List Char → List Nat × List Char
  | [] => ([], [])
  | c :: s =>
    match plainDigitValue? c with
    | some d => let (ds, rest) := spanDigits s; (d :: ds, rest)
    | none => ([], c :: s)

/-- Why a stored integer cannot be read. -/
inductive IntFault where
  /-- The text writes no integer. -/
  | unreadable
  /-- The number has too many digits. -/
  | oversized
  deriving DecidableEq, Repr, Inhabited

/-- Reads an integer without blanks, leading zeros or a plus sign. A minus sign counts as a digit
when the length is looked at, which comes before what follows the digits. -/
def readBareInt (s : List Char) : Except IntFault Int :=
  let (negative, body) := match s with
    | '-' :: r => (true, r)
    | r => (false, r)
  let (ds, rest) := spanDigits body
  match ds with
  | [] => .error .unreadable
  | [0] => if rest.isEmpty then .ok 0 else .error .unreadable
  | 0 :: _ => .error .unreadable
  | _ =>
    if maxDigits < ds.length + (if negative then 1 else 0) then .error .oversized
    else if rest.isEmpty then .ok (signed negative (ofDigits ds))
    else .error .unreadable

/-- The text begins with a sign. -/
def startsWithSign (s : List Char) : Bool := s.head?.any fun c => c = '+' || c = '-'

/-- A digit that is not zero, or a minus sign: here a number begins that is left as it is. -/
def startsNumber (c : Char) : Bool := c = '-' || (c.isDigit && c ≠ '0')

/-- Passes over zeros and underscores. The character before is the last that was passed: it is kept
if nothing follows, and in front of a point. -/
def dropZeros? (before : Char) : List Char → Option (List Char)
  | [] => some [before]
  | c :: s =>
    if c = '0' ∨ c = '_' then dropZeros? c s
    else if startsNumber c then some (c :: s)
    else if c = '.' then some (before :: c :: s)
    else none

/-- Leaves out the zeros in front of a number, with the underscores among them. -/
def dropLeadingZeros? : List Char → Option (List Char)
  | [] => none
  | c :: s =>
    if c = '0' then dropZeros? c s
    else if startsNumber c then some (c :: s)
    else none

/-- A text without a fraction of zeros at its end. -/
def dropZeroFraction (s : List Char) : List Char :=
  match s.span (· ≠ '.') with
  | (whole, '.' :: d :: ds) => if (d :: ds).all (· = '0') then whole else s
  | _ => s

/-- Removes single underscores between other characters. -/
def dropUnderscores? (s : List Char) : Option (List Char) :=
  if s.head? = some '_' ∨ s.getLast? = some '_' ∨ (s.zip s.tail).contains ('_', '_') then none
  else some (s.filter (· ≠ '_'))

/-- A stored integer as a bare one: without the spaces around it, a plus sign, leading zeros, a
fraction of zeros and underscores. -/
def bareInt? (s : List Char) : Option (List Char) := do
  let (negative, body) := spanSign (Text.trimBy Text.isSpace s)
  if startsWithSign body then none
  else
    let digits ← dropLeadingZeros? body
    let whole := dropZeroFraction (if negative then '-' :: digits else digits)
    return (dropUnderscores? whole).getD whole

/-- Reads the text of a stored integer. -/
def readStoredInt (s : List Char) : Except IntFault Int :=
  match readBareInt s with
  | .error .unreadable => match bareInt? s with
    | some bare => readBareInt bare
    | none => .error .unreadable
  | result => result

end VisualNovel.Number
