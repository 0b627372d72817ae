import VisualNovel.Traversal.Basic
import VisualNovel.Script.Node

/-!
# Traversals that fit their scripts

A stored traversal may have been edited, or the scripts may have changed since. Before a session
goes on from it, its cursors are checked against the nodes that its frames name. Main definition:
`Traversal.misfit?`, which gives the first one.
-/

namespace VisualNovel

/-- Where a traversal does not fit its nodes. -/
inductive Misfit where
  /-- The numbers of choices and branches do not go with those of the open blocks. -/
  | uneven (node : String)
  | noDecision (index : Int) (node : String)
  | noOption (choice : Int) (index : Int)
  | noConditional (index : Int) (node : String)
  | noBranch (branch : Int) (index : Int)
  /-- A suspended cursor is outside its node. -/
  | resumeOutside (line : Int) (node : String)
  /-- The cursor is outside the innermost node. -/
  | lineOutside (line : Int) (node : String)
  deriving DecidableEq, Repr

/-- The message of a misfit. -/
def Misfit.message : Misfit → String
  | uneven node => s!"Block stacks for '{node}' are inconsistent"
  | noDecision index node => s!"Decision block {index} not in '{node}'"
  | noOption choice index => s!"Option {choice} not in decision block {index}"
  | noConditional index node => s!"Conditional block {index} not in '{node}'"
  | noBranch branch index => s!"Branch {branch} not in conditional block {index}"
  | resumeOutside line node => s!"Resume line {line} outside '{node}'"
  | lineOutside line node => s!"Line {line} outside '{node}'"

/-- The element of a list at an integer index; negative indices have none. -/
def at? {α : Type} (l : List α) (i : Int) : Option α := if i < 0 then none else l[i.toNat]?

namespace Node

/-- The first misfit of entered decisions and the options chosen in them. A decision without a
choice needs an option all the same. -/
def decisionMisfit? (n : Node) : List Int → List Int → Option Misfit
  | [], _ => none
  | d :: ds, cs =>
    match at? n.decisions d with
    | none => some (.noDecision d n.name)
    | some block =>
      let c := cs.head?.getD 0
      if (at? block.options c).isNone then some (.noOption c d)
      else n.decisionMisfit? ds cs.tail

/-- The first misfit of entered conditionals and the branches taken in them. -/
def conditionalMisfit? (n : Node) : List Int → List Int → Option Misfit
  | c :: cs, b :: bs =>
    match at? n.conditionals c with
    | none => some (.noConditional c n.name)
    | some block =>
      if (at? block.branches b).isNone then some (.noBranch b c)
      else n.conditionalMisfit? cs bs
  | _, _ => none

/-- The first misfit of the open blocks of a cursor. -/
def blockMisfit? (n : Node) (c : Cursor) : Option Misfit :=
  if c.decisions.length < c.choices.length ∨ c.branches.length ≠ c.conditionals.length then
    some (.uneven n.name)
  else n.decisionMisfit? c.decisions c.choices <|> n.conditionalMisfit? c.conditionals c.branches

/-- A line is inside the node or right after it. -/
def holdsLine (n : Node) (line : Int) : Bool := 0 ≤ line && line ≤ n.lines.length

end Node

namespace Traversal

/-- The first misfit of suspended frames and their nodes. -/
def suspendedMisfit? : List Frame → List Node → Option Misfit
  | f :: fs, n :: ns =>
    if !n.holdsLine f.suspended.line then some (.resumeOutside f.suspended.line n.name)
    else n.blockMisfit? f.suspended <|> suspendedMisfit? fs ns
  | _, _ => none

/-- The first misfit of a traversal and the nodes of its frames. -/
def misfit? (t : Traversal) (nodes : List Node) : Option Misfit :=
  suspendedMisfit? t.frames.dropLast nodes.dropLast <|>
    match nodes.getLast? with
    | none => none
    | some n =>
      if !n.holdsLine t.cursor.line then some (.lineOutside t.cursor.line n.name)
      else n.blockMisfit? t.cursor

end Traversal

end VisualNovel
