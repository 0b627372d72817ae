import VisualNovel.Number.Decimal
import VisualNovel.Number.Exact

/-!
# Numbers given by a host

A host may give a number as a flag, an integer or a real number, and is told the same number again.
-/

namespace VisualNovel

/-- A number as a host gives it. -/
inductive Quantity where
  /-- A flag counts as zero or one. -/
  | flag (b : Bool)
  | whole (n : Int)
  | real (x : Float)
  deriving DecidableEq, Repr, Inhabited

namespace Quantity

/-- The number is above zero. -/
def isPositive : Quantity → Bool
  | flag b => b
  | whole n => 0 < n
  | real x => 0 < x

/-- The real number nearest to the number; nothing if there is none of its size. -/
def toReal? : Quantity → Option Float
  | flag b => some (if b then 1 else 0)
  | whole n =>
    let x := Number.ofInt n
    if x.isFinite then some x else none
  | real x => some x

/-- The number brought into the range from zero to one. -/
def clamped (q : Quantity) : Float :=
  match q.toReal? with
  | some x =>
    let y := if x < 1 then x else 1
    if 0 < y then y else 0
  | none => if q.isPositive then 1 else 0

end Quantity

end VisualNovel
