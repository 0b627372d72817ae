import VisualNovel.Number.Decimal

/-!
# Shortest decimal of a floating-point number

Every finite floating-point number is `m * 2 ^ q`. The reals that round to it form an interval,
whose ends belong to it exactly if `m` is even. The shortest decimal is taken from the coarsest
decimal grid with a point in that interval; of two points, the one nearer to the number.
-/

namespace VisualNovel.Number

/-- A finite positive number and its neighbourhood, in units of `2 ^ unit`. -/
structure Neighbourhood where
  /-- The number itself. -/
  value : Nat
  /-- The lower end of the interval that rounds to it. -/
  low : Nat
  /-- The upper end. -/
  high : Nat
  /-- The exponent of the unit. -/
  unit : Int
  /-- Both ends belong to the interval. -/
  closed : Bool
  deriving DecidableEq, Repr

/-- The neighbourhood of the number whose bits, without the sign, are given. -/
def neighbourhood (bits : Nat) : Neighbourhood :=
  let biased : Nat := bits / Nat.pow 2 52
  let fraction : Nat := bits % Nat.pow 2 52
  let m : Nat := if biased = 0 then fraction else Nat.pow 2 52 + fraction
  let q : Int := if biased = 0 then -1074 else (biased : Int) - 1075
  let below : Nat := if fraction = 0 ∧ 1 < biased then 1 else 2
  ⟨4 * m, 4 * m - below, 4 * m + 2, q - 2, m % 2 = 0⟩

/-- The point `d * 10 ^ g` lies in the interval. `a` and `b` scale both sides to integers. -/
def Neighbourhood.holds (n : Neighbourhood) (a b d : Nat) : Bool :=
  if n.closed then n.low * b ≤ d * a && d * a ≤ n.high * b
  else n.low * b < d * a && d * a < n.high * b

/-- The point of the grid `10 ^ g` that is nearest to the number, if one lies in its interval. -/
def Neighbourhood.onGrid (n : Neighbourhood) (g : Int) : Option Nat :=
  let a := Nat.pow 10 g.toNat * Nat.pow 2 (-n.unit).toNat
  let b := Nat.pow 10 (-g).toNat * Nat.pow 2 n.unit.toNat
  let d := n.value * b / a
  let rest := n.value * b % a
  match n.holds a b d, n.holds a b (d + 1) with
  | true, true =>
    if 2 * rest < a ∨ (2 * rest = a ∧ d % 2 = 0) then some d else some (d + 1)
  | true, false => some d
  | false, true => some (d + 1)
  | false, false => none

/-- Tries grids from the exponent `g` downwards. -/
def Neighbourhood.search (n : Neighbourhood) : Nat → Int → Nat × Int
  | 0, g => (n.value, g)
  | fuel + 1, g =>
    match n.onGrid g with
    | some d => (d, g)
    | none => n.search fuel (g - 1)

/-- The shortest decimal `d * 10 ^ g` that rounds to the positive number with the given bits. -/
def shortest (bits : Nat) : Nat × Int :=
  let n := neighbourhood bits
  let top : Int := ((Nat.log2 n.value : Int) + n.unit + 1) * 30103 / 100000 + 1
  n.search 21 top

/-- How a finite number is laid out: which powers of ten are written without an exponent, and how
an exponent is written. -/
structure RealLayout where
  /-- The least power of ten of the leading digit that needs no exponent. -/
  leastPositional : Int
  /-- The greatest one. -/
  greatestPositional : Int
  /-- A positive exponent carries a plus sign. -/
  plus : Bool
  /-- The least number of digits of an exponent. -/
  exponentDigits : Nat
  deriving DecidableEq, Repr

/-- Zeros in front of a text up to a width. -/
def padLeft (width : Nat) (s : List Char) : List Char :=
  List.replicate (width - s.length) '0' ++ s

/-- Writes the digits of a decimal whose leading digit stands for `10 ^ power`. -/
def RealLayout.write (l : RealLayout) (digits : List Char) (power : Int) : List Char :=
  if l.leastPositional ≤ power ∧ power ≤ l.greatestPositional then
    if power < 0 then
      "0.".toList ++ List.replicate (-power - 1).toNat '0' ++ digits
    else if digits.length ≤ power.toNat + 1 then
      digits ++ List.replicate (power.toNat + 1 - digits.length) '0' ++ ".0".toList
    else digits.take (power.toNat + 1) ++ '.' :: digits.drop (power.toNat + 1)
  else
    let mantissa := match digits with
      | d :: e :: rest => d :: '.' :: e :: rest
      | ds => ds
    let sign := if power < 0 then ['-'] else if l.plus then ['+'] else []
    mantissa ++ 'e' :: sign ++ padLeft l.exponentDigits (decimal power.natAbs)

/-- Writes a finite number. -/
def RealLayout.format (l : RealLayout) (x : Float) : List Char :=
  let bits := x.toBits.toNat
  let sign := if Nat.pow 2 63 ≤ bits then ['-'] else []
  let magnitude := bits % Nat.pow 2 63
  if magnitude = 0 then sign ++ "0.0".toList
  else
    let (d, g) := shortest magnitude
    let digits := decimal d
    sign ++ l.write digits (digits.length - 1 + g)

end VisualNovel.Number
