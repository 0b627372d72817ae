import VisualNovel.Json.Basic
import VisualNovel.Number.Decimal

/-!
# JSON values from text

The reader follows the grammar of JSON and knows the three literals for numbers that are not
finite. There are two dialects. Models are stored strictly: every string is text, numbers and
nesting are bounded, and members keep their places even if a name occurs twice. Save slots are read
leniently: a string may hold half of a surrogate pair, and of two members with one name the later
one counts.
-/

namespace VisualNovel.Json

open Number

/-- Passes over white space. -/
def skipSpace (s : List Char) : List Char :=
  s.dropWhile fun c => c = ' ' || c = '\t' || c = '\n' || c = '\r'

/-- The value of a hexadecimal digit. -/
def hexValue? (c : Char) : Option Nat :=
  if '0' ≤ c ∧ c ≤ '9' then some (c.toNat - 48)
  else if 'a' ≤ c ∧ c ≤ 'f' then some (c.toNat - 87)
  else if 'A' ≤ c ∧ c ≤ 'F' then some (c.toNat - 55)
  else none

/-- The code unit that four hexadecimal digits write. -/
def unit? (a b c d : Char) : Option Nat := do
  return (← hexValue? a) * 4096 + (← hexValue? b) * 256 + (← hexValue? c) * 16 + (← hexValue? d)

/-- The character that a short escape stands for. -/
def shortEscape? (c : Char) : Option Char :=
  if c = '"' ∨ c = '\\' ∨ c = '/' then some c
  else if c = 'b' then some '\x08'
  else if c = 'f' then some '\x0c'
  else if c = 'n' then some '\n'
  else if c = 'r' then some '\r'
  else if c = 't' then some '\t'
  else none

/-- The code points and code units of a string up to its closing quote, and what follows it. -/
def spanString : List Char → Option (List Nat × List Char)
  | [] => none
  | '"' :: s => some ([], s)
  | '\\' :: 'u' :: a :: b :: c :: d :: s => do
    let n ← unit? a b c d
    let (ns, rest) ← spanString s
    return (n :: ns, rest)
  | '\\' :: e :: s => do
    let c ← shortEscape? e
    let (ns, rest) ← spanString s
    return (c.toNat :: ns, rest)
  | c :: s =>
    if c = '\\' ∨ c.toNat < 0x20 then none
    else do
      let (ns, rest) ← spanString s
      return (c.toNat :: ns, rest)

/-- Joins the halves of surrogate pairs. -/
def joinPairs : List Nat → List Nat
  | [] => []
  | h :: l :: ns =>
    if isHigh h && isLow l then (0x10000 + (h - 0xD800) * 0x400 + (l - 0xDC00)) :: joinPairs ns
    else h :: joinPairs (l :: ns)
  | [n] => [n]

/-- A string from code points. -/
def ofPoints (points : List Nat) : Json :=
  if points.any isHalf then .broken points else .str (textOf points)

/-- Why a text has no value. -/
inductive Fault where
  | malformed
  /-- An integer has more digits than can be read. -/
  | oversized (digits : Nat)
  deriving DecidableEq, Repr, Inhabited

/-- The ways in which JSON text is read. -/
inductive Dialect where
  /-- The text of a stored model. -/
  | model
  /-- The text of a save slot. -/
  | slot
  deriving DecidableEq, Repr, Inhabited

/-- The digits of a whole number without superfluous zeros, and what follows them. -/
def spanWhole (s : List Char) : Option (List Nat × List Char) :=
  match s with
  | '0' :: r => some ([0], r)
  | _ => match spanDigits s with
    | ([], _) => none
    | p => some p

/-- The fraction after a point, if there is one. -/
def spanFraction (s : List Char) : Option (Option (List Nat) × List Char) :=
  match s with
  | '.' :: r => match spanDigits r with
    | ([], _) => none
    | (ds, rest) => some (some ds, rest)
  | _ => some (none, s)

/-- The exponent, if there is one. -/
def spanExponent (s : List Char) : Option (Option Int × List Char) :=
  match s with
  | c :: r =>
    if c = 'e' ∨ c = 'E' then
      let (negative, body) := spanSign r
      match spanDigits body with
      | ([], _) => none
      | (ds, rest) => some (some (signed negative (ofDigits ds)), rest)
    else some (none, s)
  | [] => some (none, [])

/-- Integers of stored models from this size on are wide. -/
def wideFrom : Nat := Nat.pow 10 18

/-- An integer of a dialect. -/
def Dialect.int : Dialect → Int → Json
  | .model, n => if wideFrom ≤ n.natAbs then .wide n else .int n
  | .slot, n => .int n

/-- A number in front of its point or exponent is not too long. In stored models the minus sign
counts as a digit; in save slots only integers are bounded. -/
def Dialect.admits (d : Dialect) (negative : Bool) (digits : Nat) (isInteger : Bool) : Bool :=
  match d with
  | .model => digits + (if negative then 1 else 0) ≤ maxDigits
  | .slot => !isInteger || digits ≤ maxDigits

/-- A string of a dialect. -/
def Dialect.string (d : Dialect) (points : List Nat) : Except Fault Json :=
  match d, ofPoints points with
  | .model, .broken _ => .error .malformed
  | _, v => .ok v

/-- The name of a member in a dialect. -/
def Dialect.name (d : Dialect) (points : List Nat) : Except Fault String :=
  if d = .model && points.any isHalf then .error .malformed else .ok (textOf points)

/-- An object of a dialect. -/
def Dialect.object : Dialect → List (String × Json) → Json
  | .model, ms => .obj ms
  | .slot, ms => .obj (ms.foldl (fun acc m => setMember m.1 m.2 acc) [])

/-- What a part of the grammar gives, or that the text is malformed. -/
def orMalformed {α : Type} : Option α → Except Fault α
  | some a => .ok a
  | none => .error .malformed

/-- A number: real if it has a fraction or an exponent, and an integer otherwise. -/
def spanNumber (d : Dialect) (s : List Char) : Except Fault (Json × List Char) := do
  let (negative, body) := match s with
    | '-' :: r => (true, r)
    | r => (false, r)
  let (whole, rest) ← orMalformed (spanWhole body)
  let (fraction, rest) ← orMalformed (spanFraction rest)
  let (exponent, rest) ← orMalformed (spanExponent rest)
  if !d.admits negative whole.length (fraction.isNone && exponent.isNone) then
    .error (.oversized whole.length)
  else match fraction, exponent with
    | none, none => return (d.int (signed negative (ofDigits whole)), rest)
    | f, e =>
      let ds := f.getD []
      let x : Decimal := ⟨negative, ofDigits (whole ++ ds), e.getD 0 - ds.length⟩
      return (.real x.toFloat, rest)

/-- A string after its opening quote. -/
def spanText (d : Dialect) (s : List Char) : Except Fault (Json × List Char) := do
  let (points, rest) ← orMalformed (spanString s)
  return (← d.string (joinPairs points), rest)

/-- A name in quotes. -/
def spanName (d : Dialect) (s : List Char) : Except Fault (String × List Char) :=
  match s with
  | '"' :: r => do
    let (points, rest) ← orMalformed (spanString r)
    return (← d.name (joinPairs points), rest)
  | _ => .error .malformed

mutual
/-- A value, and what follows it. -/
def span (d : Dialect) : Nat → List Char → Except Fault (Json × List Char)
  | 0, _ => .error .malformed
  | fuel + 1, s =>
    match skipSpace s with
    | 'n' :: 'u' :: 'l' :: 'l' :: r => .ok (.null, r)
    | 't' :: 'r' :: 'u' :: 'e' :: r => .ok (.bool true, r)
    | 'f' :: 'a' :: 'l' :: 's' :: 'e' :: r => .ok (.bool false, r)
    | 'N' :: 'a' :: 'N' :: r => .ok (.real notANumber, r)
    | 'I' :: 'n' :: 'f' :: 'i' :: 'n' :: 'i' :: 't' :: 'y' :: r => .ok (.real infinity, r)
    | '-' :: 'I' :: 'n' :: 'f' :: 'i' :: 'n' :: 'i' :: 't' :: 'y' :: r =>
      .ok (.real (-infinity), r)
    | '"' :: r => spanText d r
    | '[' :: r => match skipSpace r with
      | ']' :: r => .ok (.arr [], r)
      | _ => do
        let (vs, rest) ← spanItems d fuel r
        return (.arr vs, rest)
    | '{' :: r => match skipSpace r with
      | '}' :: r => .ok (.obj [], r)
      | _ => do
        let (ms, rest) ← spanMembers d fuel r
        return (d.object ms, rest)
    | r => spanNumber d r
/-- Items up to the closing bracket. -/
def spanItems (d : Dialect) : Nat → List Char → Except Fault (List Json × List Char)
  | 0, _ => .error .malformed
  | fuel + 1, s => do
    let (v, rest) ← span d fuel s
    match skipSpace rest with
    | ',' :: r => do
      let (vs, rest) ← spanItems d fuel r
      return (v :: vs, rest)
    | ']' :: r => return ([v], r)
    | _ => .error .malformed
/-- Members up to the closing brace. -/
def spanMembers (d : Dialect) : Nat → List Char → Except Fault (List (String × Json) × List Char)
  | 0, _ => .error .malformed
  | fuel + 1, s => do
    let (k, rest) ← spanName d (skipSpace s)
    match skipSpace rest with
    | ':' :: r => do
      let (v, rest) ← span d fuel r
      match skipSpace rest with
      | ',' :: r => do
        let (ms, rest) ← spanMembers d fuel r
        return ((k, v) :: ms, rest)
      | '}' :: r => return ([(k, v)], r)
      | _ => .error .malformed
    | _ => .error .malformed
end

/-- The value that a text writes in a dialect. -/
def read (d : Dialect) (s : String) : Except Fault Json := do
  let (v, rest) ← span d (2 * s.length + 2) s.toList
  if (skipSpace rest).isEmpty then return v else .error .malformed

/-- The deepest nesting of a stored model. -/
def maxDepth : Nat := 200

/-- The value of a stored model, which is not nested too deeply. -/
def readModel? (s : String) : Option Json :=
  (read .model s).toOption.filter fun v => v.depth ≤ maxDepth

end VisualNovel.Json
