import VisualNovel.Json.Basic
import VisualNovel.Number.Exact

/-!
# Values that count as the same

Numbers are the same if they have the same value, whatever they are written as, and a flag is the
number one or zero. The order of the members of an object does not matter.
-/

namespace VisualNovel.Json

/-- The integer that a value counts for. -/
def whole? : Json → Option Int
  | .bool b => some (if b then 1 else 0)
  | .int n | .wide n => some n
  | .real x => Number.exactInt? x
  | _ => none

/-- Two values of one kind are the same; a list and an object never are. -/
def sameKind : Json → Json → Bool
  | .null, .null => true
  | .real x, .real y => x == y
  | .str s, .str t => s == t
  | .broken s, .broken t => s == t
  | _, _ => false

/-- Two values that are neither lists nor objects are the same. -/
def sameScalar (v w : Json) : Bool :=
  match v.whole?, w.whole? with
  | some n, some m => n == m
  | none, none => sameKind v w
  | _, _ => false

mutual
/-- Two values are the same. -/
def same : Json → Json → Bool
  | .arr vs, .arr ws => sameItems vs ws
  | .obj ms, .obj ns => ms.length == ns.length && sameMembers ms ns
  | v, w => sameScalar v w
/-- The items of two lists are the same. -/
def sameItems : List Json → List Json → Bool
  | [], [] => true
  | v :: vs, w :: ws => v.same w && sameItems vs ws
  | _, _ => false
/-- All members are the same as those of the same name among others. -/
def sameMembers : List (String × Json) → List (String × Json) → Bool
  | [], _ => true
  | (k, v) :: ms, ns => (member? k ns).any v.same && sameMembers ms ns
end

end VisualNovel.Json
