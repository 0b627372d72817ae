/-!
# Exact integer values of floating-point numbers
-/

namespace VisualNovel.Number

/-- The integer that a floating-point number is, if it is one. -/
def exactInt? (x : Float) : Option Int :=
  let bits := x.toBits.toNat
  let biased : Nat := bits / Nat.pow 2 52 % Nat.pow 2 11
  let fraction : Nat := bits % Nat.pow 2 52
  let sign : Int := if Nat.pow 2 63 ≤ bits then -1 else 1
  let m : Nat := if biased = 0 then fraction else Nat.pow 2 52 + fraction
  let q : Int := if biased = 0 then -1074 else (biased : Int) - 1075
  if biased = 2047 then none
  else if 0 ≤ q then some (sign * (m * Nat.pow 2 q.toNat : Nat))
  else if m % Nat.pow 2 (-q).toNat = 0 then some (sign * (m / Nat.pow 2 (-q).toNat : Nat))
  else none

/-- The floating-point number nearest to an integer; beyond the range of the type, an infinity. -/
def ofInt (n : Int) : Float :=
  if n < 0 then -(Float.ofScientific n.natAbs false 0) else Float.ofScientific n.natAbs false 0

end VisualNovel.Number
