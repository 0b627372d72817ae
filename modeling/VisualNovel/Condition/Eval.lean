import VisualNovel.Condition.Substitution
import VisualNovel.Remark
import VisualNovel.Text.Order
import VisualNovel.Text.Split

/-!
# Truth of conditions

A condition is evaluated as text. Groups in parentheses are settled from the last opening one to
the first and replaced by the words for true and false. What is left has no groups: it is a
conjunction of disjunctions of possibly negated comparisons and single values.
-/

namespace VisualNovel

/-- Why a condition has no value. -/
inductive ConditionFault where
  /-- A group is not closed. -/
  | unmatchedParentheses
  deriving DecidableEq, Repr

/-- The message of a fault. -/
def ConditionFault.message : ConditionFault → String
  | unmatchedParentheses => "Unmatched parentheses"

/-- The remark that a condition has no value. -/
def ConditionFault.remark (f : ConditionFault) (condition : String) : Remark :=
  ⟨.error, "dialogue.expressions", s!"Error evaluating conditional '{condition}': {f.message}"⟩

namespace Condition

open Text Number

/-- The comparison operators. -/
inductive Comparison where
  | ge | le | eq | ne | gt | lt
  deriving DecidableEq, Repr

namespace Comparison

/-- How an operator is written. -/
def symbol : Comparison → List Char
  | ge => ['>', '=']
  | le => ['<', '=']
  | eq => ['=', '=']
  | ne => ['!', '=']
  | gt => ['>']
  | lt => ['<']

/-- The operators in the order in which they are looked for. -/
def all : List Comparison := [ge, le, eq, ne, gt, lt]

/-- Compares two numbers. -/
def onNumbers (op : Comparison) (x y : Float) : Bool :=
  match op with
  | ge => y ≤ x
  | le => x ≤ y
  | eq => x == y
  | ne => x != y
  | gt => y < x
  | lt => x < y

/-- Compares two texts by their code points. -/
def onTexts (op : Comparison) (s t : List Char) : Bool :=
  match op with
  | ge => !precedes s t
  | le => !precedes t s
  | eq => s = t
  | ne => s ≠ t
  | gt => precedes t s
  | lt => precedes s t

/-- Compares two flags for equality; they have no order. -/
def onFlags? (op : Comparison) (a b : Bool) : Option Bool :=
  match op with
  | eq => some (a == b)
  | ne => some (a != b)
  | _ => none

/-- Compares two operands: as numbers if both are, else as flags if both are, else as texts. -/
def holds (op : Comparison) (l r : List Char) : Bool :=
  match readNumber? l, readNumber? r with
  | some x, some y => op.onNumbers x y
  | _, _ =>
    let flags := do op.onFlags? (← Value.readBool? l) (← Value.readBool? r)
    flags.getD (op.onTexts l r)

end Comparison

/-- An operand without blanks and then without quotes at its ends. -/
def operand (s : List Char) : List Char := unquote (trim s)

/-- A comparison has exactly two operands; anything else is false. -/
def compare (op : Comparison) (s : List Char) : Bool :=
  match splitOn op.symbol s with
  | [l, r] => op.holds (operand l) (operand r)
  | _ => false

/-- The truth of a single value: a flag, a number other than zero, or a text other than the empty
one. -/
def valueTruth (s : List Char) : Bool :=
  match Value.readBool? s with
  | some b => b
  | none => match readNumber? s with
    | some x => x != 0
    | none => !(unquote s).isEmpty

/-- The truth of a text without connectives and negations. -/
def atom (s : List Char) : Bool :=
  match Comparison.all.find? fun op => occurs op.symbol s with
  | some op => compare op s
  | none => valueTruth s

/-- The truth of a text without connectives: exclamation marks in front negate. -/
def negations : List Char → Bool
  | [] => atom []
  | c :: s =>
    if isBlank c then negations s
    else if c = '!' then !negations s
    else atom (c :: s)

/-- The truth of a text without conjunctions. -/
def disjunction (s : List Char) : Bool :=
  (splitOn ['|', '|'] s).any fun part => negations (trim part)

/-- The truth of a text without groups. -/
def flat (s : List Char) : Bool :=
  -- conjunctions are split first, so disjunctions bind more tightly
  (splitOn ['&', '&'] s).all fun part => disjunction (trim part)

/-- The word for a truth value. -/
def truthWord (b : Bool) : List Char := (if b then "true" else "false").toList

/-- Replaces every group by the word for its truth, the last one first. -/
def settle : List Char → Option (List Char)
  | [] => some []
  | c :: s => do
    let rest ← settle s
    -- the rest has no groups left, so the next closing bracket is the one of this group
    if c = '(' then
      let (inner, after) ← breakAt ')' rest
      some (truthWord (flat inner) ++ after)
    else some (c :: rest)

/-- The truth of a text in which variables have been substituted. -/
def truth (s : List Char) : Except ConditionFault Bool :=
  match settle (trim s) with
  | some t => .ok (flat t)
  | none => .error .unmatchedParentheses

/-- The truth of a condition. A blank condition is false. -/
def evaluate (vs : Variables) (s : String) : Except ConditionFault Bool :=
  if (trim s.toList).isEmpty then .ok false else truth (substitute vs s.toList)

end Condition

end VisualNovel
