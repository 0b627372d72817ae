import VisualNovel.Script.Compile
import VisualNovel.Failure

/-!
# Trying out conditionals

The conditionals of a node can be decided for any variables, without a session.
-/

namespace VisualNovel.Script

/-- The conditionals of a node, and what was chosen in them for each of several sets of
variables. -/
structure Trial where
  /-- The conditionals of the node. -/
  conditionals : List Conditional
  /-- What was chosen: a row for each set of variables. -/
  rows : List (List (Option (Nat × Branch)))
  /-- The conditions that could not be evaluated. -/
  faults : List (String × ConditionFault)

/-- Tries out the conditionals of a node, which the source has to define. -/
def tryOut (source name : String) (sets : List (Except VariableFault Variables)) :
    Except Failure Trial := do
  let (outcome, _) := compile source name "" .empty
  match ← outcome.mapError (.script none) with
  | none => throw (.lacks Json.null.typeLabel "conditional_blocks")
  | some node =>
    let sets ← sets.mapM fun s => s.mapError .value
    let choices := sets.map fun vs => node.conditionals.map fun b => b.select vs
    return ⟨node.conditionals, choices.map fun row => row.map Prod.fst,
      choices.flatten.flatMap Prod.snd⟩

end VisualNovel.Script
