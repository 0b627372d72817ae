/-!
# The order of texts

Texts are ordered character by character, by code point, and sequences of names name by name. In
both cases the first difference decides, and what ends first comes first.
-/

namespace VisualNovel.Text

/-- A sequence comes before another one, given the order of their elements. -/
def precedesBy {α : Type} [DecidableEq α] (less : α → α → Bool) : List α → List α → Bool
  | _, [] => false
  | [], _ :: _ => true
  | a :: s, b :: t => if a = b then precedesBy less s t else less a b

/-- A text comes before another one. -/
def precedes : List Char → List Char → Bool := precedesBy fun c d => c.toNat < d.toNat

/-- A sequence of names comes before another one. -/
def namesPrecede : List String → List String → Bool :=
  precedesBy fun a b => precedes a.toList b.toList

end VisualNovel.Text
