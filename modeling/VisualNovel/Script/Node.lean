import VisualNovel.Schema.Scalar
import VisualNovel.Condition.Eval

/-!
# Nodes

A node is a flat list of content lines with an index of its decisions and conditionals. All line
ranges are half open: a branch over the lines 3 and 4 starts at 3 and ends at 5.
-/

namespace VisualNovel

/-- An option of a decision. -/
structure Choice where
  /-- What the option says. -/
  label : String
  /-- The first line that belongs to the option. -/
  start : Int
  /-- The line after the last one. -/
  stop : Int
  deriving DecidableEq, Repr, Inhabited

/-- A point at which the reader has to choose. -/
structure Decision where
  /-- The position among the decisions of the node. -/
  index : Int
  /-- The line at which the reader is asked. -/
  start : Int
  /-- The line after the whole decision. -/
  stop : Int
  /-- The options in order. -/
  options : List Choice := []
  deriving DecidableEq, Repr, Inhabited

/-- One branch of a conditional. The last branch may have no condition. -/
structure Branch where
  /-- The condition; a branch without one has the empty text. -/
  condition : String := ""
  /-- The first line of the branch. -/
  start : Int
  /-- The line after the last one. -/
  stop : Int
  deriving DecidableEq, Repr, Inhabited

/-- A chain of branches of which at most one is taken. -/
structure Conditional where
  /-- The position among the conditionals of the node, by their opening lines. -/
  index : Int
  /-- The first branch. -/
  first : Branch
  /-- The further branches with conditions. -/
  others : List Branch := []
  /-- The branch that is taken if no condition holds. -/
  otherwise : Option Branch := none
  /-- The line at which the branches are tried. -/
  start : Int
  /-- The line after the whole conditional. -/
  stop : Int
  deriving DecidableEq, Repr, Inhabited

/-- A node of a script. -/
structure Node where
  /-- The name by which scripts refer to the node. -/
  name : String
  /-- The scene for which the node was loaded. -/
  context : String := ""
  /-- The line at which the node was left or is shown. -/
  line : Int := 0
  /-- The content lines. -/
  lines : List String := []
  /-- The decisions in order. -/
  decisions : List Decision := []
  /-- The conditionals, an outer one before those inside it. -/
  conditionals : List Conditional := []
  deriving DecidableEq, Repr, Inhabited

/-- The labels of the options. -/
def Decision.labels (d : Decision) : List String := d.options.map Choice.label

namespace Conditional

/-- The branches that have a condition. -/
def guarded (c : Conditional) : List Branch := c.first :: c.others

/-- All branches in order. -/
def branches (c : Conditional) : List Branch := c.guarded ++ c.otherwise.toList

end Conditional

/-- The truth of a condition where a fault counts as false. The fault is given as well. -/
def Condition.evaluateSafe (vs : Variables) (s : String) : Bool × Option ConditionFault :=
  match Condition.evaluate vs s with
  | .ok b => (b, none)
  | .error f => (false, some f)

/-- The first of the branches, numbered from `i`, whose condition holds, and the conditions on the
way that have a fault. -/
def Branch.select (vs : Variables) : Nat → List Branch →
    Option (Nat × Branch) × List (String × ConditionFault)
  | _, [] => (none, [])
  | i, b :: bs =>
    match Condition.evaluateSafe vs b.condition with
    | (true, _) => (some (i, b), [])
    | (false, fault) =>
      let (found, faults) := Branch.select vs (i + 1) bs
      (found, (fault.map fun f => (b.condition, f)).toList ++ faults)

/-- The branch of a conditional to take, by its number, and the conditions that have a fault. -/
def Conditional.select (vs : Variables) (c : Conditional) :
    Option (Nat × Branch) × List (String × ConditionFault) :=
  let (found, faults) := Branch.select vs 0 c.guarded
  (found <|> c.otherwise.map fun b => (c.guarded.length, b), faults)

namespace Schema

/-- The check of an option. -/
def choice : Json → Checked Choice := model ["label", "start_line", "end_line"] fun ms =>
  Choice.mk <$> required "label" str ms <*> required "start_line" int ms <*>
    required "end_line" int ms

/-- The check of a decision. -/
def decision : Json → Checked Decision :=
  model ["index", "start_line", "end_line", "options"] fun ms =>
    Decision.mk <$> required "index" int ms <*> required "start_line" int ms <*>
      required "end_line" int ms <*> optional "options" [] (list choice) ms

/-- The check of a branch. -/
def branch : Json → Checked Branch := model ["expression", "start_line", "end_line"] fun ms =>
  Branch.mk <$> optional "expression" "" str ms <*> required "start_line" int ms <*>
    required "end_line" int ms

/-- The check of a conditional. -/
def conditional : Json → Checked Conditional :=
  model ["index", "if_branch", "else_if_branches", "else_branch", "start_line", "end_line"]
    fun ms => Conditional.mk <$> required "index" int ms <*> required "if_branch" branch ms <*>
      optional "else_if_branches" [] (list branch) ms <*>
      optional "else_branch" none (nullable branch) ms <*> required "start_line" int ms <*>
      required "end_line" int ms

/-- The check of a node. -/
def node : Json → Checked Node :=
  model ["name", "source_context", "line", "lines", "decision_blocks", "conditional_blocks"]
    fun ms => Node.mk <$> required "name" str ms <*> optional "source_context" "" str ms <*>
      optional "line" 0 int ms <*> optional "lines" [] strs ms <*>
      optional "decision_blocks" [] (list decision) ms <*>
      optional "conditional_blocks" [] (list conditional) ms

end Schema

/-- An option as stored data. -/
def Choice.toJson (c : Choice) : Json :=
  .obj [("label", .str c.label), ("start_line", .int c.start), ("end_line", .int c.stop)]

/-- A decision as stored data. -/
def Decision.toJson (d : Decision) : Json :=
  .obj [("index", .int d.index), ("start_line", .int d.start), ("end_line", .int d.stop),
    ("options", .arr (d.options.map Choice.toJson))]

/-- A branch as stored data. -/
def Branch.toJson (b : Branch) : Json :=
  .obj [("expression", .str b.condition), ("start_line", .int b.start), ("end_line", .int b.stop)]

/-- A conditional as stored data. -/
def Conditional.toJson (c : Conditional) : Json :=
  .obj [("index", .int c.index), ("if_branch", c.first.toJson),
    ("else_if_branches", .arr (c.others.map Branch.toJson)),
    ("else_branch", (c.otherwise.map Branch.toJson).getD .null),
    ("start_line", .int c.start), ("end_line", .int c.stop)]

/-- A node as stored data. -/
def Node.toJson (n : Node) : Json :=
  .obj [("name", .str n.name), ("source_context", .str n.context), ("line", .int n.line),
    ("lines", .strs n.lines), ("decision_blocks", .arr (n.decisions.map Decision.toJson)),
    ("conditional_blocks", .arr (n.conditionals.map Conditional.toJson))]

end VisualNovel
