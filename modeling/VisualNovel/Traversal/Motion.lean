import VisualNovel.Traversal.Validity

/-!
# Moving the cursor over blocks

Before a line is taken up, finished branches are left and the blocks that start at the line are
entered. A conditional moves the cursor to the branch that is taken or past the whole block; a
decision has to wait for a choice. Each block is entered at most once while the cursor is moved, so
empty blocks do not hold it up.

Main definitions: `Node.passConditionals` and `Node.passDecisions`.
-/

namespace VisualNovel

/-- The two kinds of blocks. -/
inductive BlockKind where
  | conditional
  | decision
  deriving DecidableEq, Repr, Inhabited

/-- A block that has been entered, with the place of its node on the stack. -/
structure Visit where
  /-- How many nodes are on the stack. -/
  depth : Nat
  /-- The name of the innermost node. -/
  node : String
  /-- The kind of the block. -/
  kind : BlockKind
  /-- The number of the block among those of its kind. -/
  index : Int
  deriving DecidableEq, Repr, Inhabited

/-- What is left of a stack of open blocks, innermost first, when finished ones have been left. -/
structure Departure where
  /-- The line after leaving. -/
  line : Int
  /-- The blocks that are still open. -/
  blocks : List Int
  /-- The way taken in each block: a branch or an option. -/
  ways : List Int
  /-- A block or a way does not exist. -/
  stuck : Bool
  deriving DecidableEq, Repr, Inhabited

/-- Leaves the blocks whose way ends at the line or before it, innermost first. The cursor then goes
to the end of the block and never backwards. `ends?` gives the ends of a way and of its block. -/
def Departure.leave (ends? : Int → Int → Option (Int × Int)) :
    List Int → List Int → Int → Departure
  | [], ways, line => ⟨line, [], ways, false⟩
  | b :: bs, ways, line =>
    match ways.head?.bind (ends? b) with
    | none => ⟨line, b :: bs, ways, true⟩
    | some (wayEnd, blockEnd) =>
      -- the innermost way goes on, so the outer ones do as well
      if line < wayEnd then ⟨line, b :: bs, ways, false⟩
      else leave ends? bs ways.tail (max line blockEnd)

/-- A cursor on its way over the conditionals of a node. -/
structure Motion where
  /-- Where the cursor is. -/
  cursor : Cursor
  /-- The blocks that have been entered, latest first. -/
  seen : List Visit
  /-- The conditions that could not be evaluated. -/
  faults : List (String × ConditionFault) := []
  /-- An open block does not exist in the node. -/
  stuck : Bool := false
  deriving DecidableEq, Repr

/-- What a cursor comes to at the decisions of a node. -/
inductive Turn where
  /-- No decision stands in the way. -/
  | onward
  /-- A decision waits for a choice. -/
  | ask (d : Decision)
  /-- An open decision does not exist in the node. -/
  | stuck
  deriving DecidableEq, Repr, Inhabited

namespace Node

/-- A block of the node as a visit. -/
def visit (n : Node) (depth : Nat) (kind : BlockKind) (index : Int) : Visit :=
  ⟨depth, n.name, kind, index⟩

/-- The ends of a branch and of its conditional. -/
def branchEnds? (n : Node) (index way : Int) : Option (Int × Int) := do
  let block ← at? n.conditionals index
  let branch ← at? block.branches way
  return (branch.stop, block.stop)

/-- The ends of an option and of its decision. -/
def optionEnds? (n : Node) (index way : Int) : Option (Int × Int) := do
  let block ← at? n.decisions index
  let choice ← at? block.options way
  return (choice.stop, block.stop)

/-- The cursor after leaving the branches that are finished, and whether a block is missing. -/
def leaveBranches (n : Node) (c : Cursor) : Cursor × Bool :=
  let d := Departure.leave n.branchEnds? c.conditionals.reverse c.branches.reverse c.line
  ({ c with line := d.line, conditionals := d.blocks.reverse, branches := d.ways.reverse }, d.stuck)

/-- The cursor after leaving the options that are finished, and whether a block is missing. -/
def leaveOptions (n : Node) (c : Cursor) : Cursor × Bool :=
  let d := Departure.leave n.optionEnds? c.decisions.reverse c.choices.reverse c.line
  ({ c with line := d.line, decisions := d.blocks.reverse, choices := d.ways.reverse }, d.stuck)

/-- The first conditional at the cursor that is neither open nor has been entered. -/
def conditionalAt? (n : Node) (depth : Nat) (seen : List Visit) (c : Cursor) :
    Option Conditional :=
  n.conditionals.find? fun b =>
    b.start = c.line && !c.conditionals.contains b.index &&
      !seen.contains (n.visit depth .conditional b.index)

/-- The first decision at the cursor that is neither open nor has been entered. -/
def decisionAt? (n : Node) (depth : Nat) (seen : List Visit) (c : Cursor) : Option Decision :=
  n.decisions.find? fun b =>
    b.start = c.line && !c.decisions.contains b.index &&
      !seen.contains (n.visit depth .decision b.index)

/-- Enters the branch of a conditional that is to be taken, or passes over the conditional. -/
def enterConditional (n : Node) (vs : Variables) (depth : Nat) (m : Motion) (b : Conditional) :
    Motion :=
  let (choice, faults) := b.select vs
  { m with
    cursor := match choice with
      | none => { m.cursor with line := b.stop }
      | some (way, branch) =>
        { m.cursor with
          line := branch.start
          conditionals := m.cursor.conditionals ++ [b.index]
          branches := m.cursor.branches ++ [(way : Int)] }
    -- it counts as entered even if none of its branches is taken
    seen := n.visit depth .conditional b.index :: m.seen
    faults := m.faults ++ faults }

/-- Leaves finished branches and enters conditionals, at most a number of times. -/
def passConditionalsUpTo (n : Node) (vs : Variables) (depth : Nat) : Nat → Motion → Motion
  | 0, m => m
  | k + 1, m =>
    let (cursor, stuck) := n.leaveBranches m.cursor
    let m := { m with cursor, stuck }
    if stuck then m
    else match n.conditionalAt? depth m.seen cursor with
      | none => m
      | some b => passConditionalsUpTo n vs depth k (n.enterConditional vs depth m b)

/-- Leaves finished branches and enters the conditionals at the cursor until there is nothing left
to do. A conditional is entered once at most, so there are no more rounds than conditionals, and
one to find that nothing is left. -/
def passConditionals (n : Node) (vs : Variables) (depth : Nat) (seen : List Visit) (c : Cursor) :
    Motion :=
  n.passConditionalsUpTo vs depth (n.conditionals.length + 1) { cursor := c, seen }

/-- Leaves finished options and opens the decision at the cursor. A decision that is open without a
choice comes first. -/
def passDecisions (n : Node) (depth : Nat) (seen : List Visit) (c : Cursor) : Cursor × Turn :=
  if c.choices.length < c.decisions.length then
    match c.decisions.getLast?.bind (at? n.decisions) with
    | some b => (c, .ask b)
    | none => (c, .stuck)
  else match n.leaveOptions c with
    | (c, true) => (c, .stuck)
    | (c, false) => match n.decisionAt? depth seen c with
      | none => (c, .onward)
      | some b => ({ c with decisions := c.decisions ++ [b.index] }, .ask b)

end Node

end VisualNovel
