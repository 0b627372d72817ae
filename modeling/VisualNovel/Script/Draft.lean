import VisualNovel.Script.Line
import VisualNovel.Script.Node

/-!
# Drafts of nodes

A node is compiled line by line. A draft holds what has been read so far, the decision that is open
and the conditionals that are open, innermost first. Conditionals are entered into the node when
they open and completed in place; decisions are entered when they close.
-/

namespace VisualNovel

/-- What is wrong with the structure of a script. -/
inductive ScriptFault where
  /-- A node is opened inside another one. -/
  | nodeInside (line : String) (outer : String)
  | nestedDecision
  | optionOutside (line : String)
  | unopenedDecision
  | noOptions
  /-- A further branch without a conditional. -/
  | branchOutside (marker : String)
  /-- A further branch after the last one. -/
  | branchAfterLast (marker : String)
  | unopenedConditional
  | unclosedDecision
  | unclosedConditional
  | unclosedNode (name : String)
  deriving DecidableEq, Repr

/-- The message of a fault, without its location. -/
def ScriptFault.message : ScriptFault → String
  | nodeInside line outer => s!"'{line}' opened before #EndNode of '{outer}'"
  | nestedDecision => "Decisions cannot be nested"
  | optionOutside line => s!"Decision option '{line}' outside #StartDecision"
  | unopenedDecision => "#EndDecision without #StartDecision"
  | noOptions => "Decision block has no options"
  | branchOutside marker => s!"'{marker}' without a matching 'if'"
  | branchAfterLast marker => s!"'{marker}' after 'else'"
  | unopenedConditional => "'endif' without a matching 'if'"
  | unclosedDecision => "#StartDecision not closed before #EndNode"
  | unclosedConditional => "'if' not closed before #EndNode"
  | unclosedNode name => s!"Node '{name}' is missing #EndNode"

/-- Changes the last element of a list. -/
def modifyLast {α : Type} (f : α → α) : List α → List α
  | [] => []
  | [a] => [f a]
  | a :: b :: l => a :: modifyLast f (b :: l)

/-- Ends the last option at a line. -/
def Decision.endOption (d : Decision) (line : Int) : Decision :=
  { d with options := modifyLast (fun o => { o with stop := line }) d.options }

/-- Ends the last branch at a line. -/
def Conditional.endBranch (c : Conditional) (line : Int) : Conditional :=
  let close (b : Branch) : Branch := { b with stop := line }
  match c.otherwise with
  | some b => { c with otherwise := some (close b) }
  | none =>
    if c.others.isEmpty then { c with first := close c.first }
    else { c with others := modifyLast close c.others }

namespace Script

/-- A node that is being compiled. -/
structure Draft where
  /-- The name of the node. -/
  name : String
  /-- The scene for which the node is loaded. -/
  context : String
  /-- The content lines so far. -/
  lines : List String := []
  /-- The closed decisions. -/
  decisions : List Decision := []
  /-- The decision that is open. -/
  openDecision : Option Decision := none
  /-- The conditionals, open ones with provisional ends. -/
  conditionals : List Conditional := []
  /-- The numbers of the open conditionals, innermost first. -/
  openConditionals : List Nat := []
  deriving DecidableEq, Repr, Inhabited

namespace Draft

/-- The number that the next content line will have. -/
def cursor (d : Draft) : Int := d.lines.length

/-- Adds a content line. -/
def addLine (d : Draft) (text : List Char) : Draft :=
  { d with lines := d.lines ++ [String.ofList text] }

/-- Opens a decision. -/
def startDecision (d : Draft) : Except ScriptFault Draft :=
  match d.openDecision with
  | some _ => .error .nestedDecision
  | none =>
    .ok { d with openDecision := some ⟨d.decisions.length, d.cursor, d.cursor, []⟩ }

/-- Ends the last option of the open decision and starts another. -/
def addOption (d : Draft) (label whole : List Char) : Except ScriptFault Draft :=
  match d.openDecision with
  | none => .error (.optionOutside (String.ofList whole))
  | some b =>
    -- lines before the first option belong to none
    let b := b.endOption d.cursor
    let o : Choice := ⟨String.ofList label, d.cursor, d.cursor⟩
    .ok { d with openDecision := some { b with options := b.options ++ [o] } }

/-- Closes the open decision. -/
def endDecision (d : Draft) : Except ScriptFault Draft :=
  match d.openDecision with
  | none => .error .unopenedDecision
  | some b =>
    if b.options.isEmpty then .error .noOptions
    else
      let b := { b.endOption d.cursor with stop := d.cursor }
      .ok { d with decisions := d.decisions ++ [b], openDecision := none }

/-- Opens a conditional. -/
def startIf (d : Draft) (condition : List Char) : Draft :=
  let branch : Branch := ⟨String.ofList condition, d.cursor, d.cursor⟩
  let c : Conditional := ⟨d.conditionals.length, branch, [], none, d.cursor, d.cursor⟩
  { d with
    conditionals := d.conditionals ++ [c]
    openConditionals := d.conditionals.length :: d.openConditionals }

/-- The number of the innermost open conditional, which must not have its last branch yet. -/
def branchable (d : Draft) (marker : String) : Except ScriptFault Nat :=
  match d.openConditionals with
  | [] => .error (.branchOutside marker)
  | i :: _ =>
    -- only the innermost conditional can go on
    if (d.conditionals[i]?.bind Conditional.otherwise).isSome then
      .error (.branchAfterLast marker)
    else .ok i

/-- Starts a further branch with a condition. -/
def elseIf (d : Draft) (condition : List Char) : Except ScriptFault Draft := do
  let i ← d.branchable "else if"
  let branch : Branch := ⟨String.ofList condition, d.cursor, d.cursor⟩
  return { d with
    conditionals := d.conditionals.modify i fun c =>
      let c := c.endBranch d.cursor
      { c with others := c.others ++ [branch] } }

/-- Starts the branch without a condition. -/
def otherwise (d : Draft) : Except ScriptFault Draft := do
  let i ← d.branchable "else"
  let branch : Branch := ⟨"", d.cursor, d.cursor⟩
  return { d with
    conditionals := d.conditionals.modify i fun c =>
      { c.endBranch d.cursor with otherwise := some branch } }

/-- Closes the innermost open conditional. -/
def endIf (d : Draft) : Except ScriptFault Draft :=
  match d.openConditionals with
  | [] => .error .unopenedConditional
  | i :: rest =>
    .ok { d with
      conditionals := d.conditionals.modify i fun c =>
        { c.endBranch d.cursor with stop := d.cursor }
      openConditionals := rest }

/-- Takes up a line between the markers of the node. A declaration changes nothing here and the
closing marker is not taken up. -/
def take (d : Draft) : Line → Except ScriptFault Draft
  | .declaration _ _ => .ok d
  | .node _ whole => .error (.nodeInside (String.ofList whole) d.name)
  | .endNode => .ok d
  | .startDecision => d.startDecision
  | .endDecision => d.endDecision
  | .option label whole => d.addOption label whole
  | .elseIf condition => d.elseIf condition
  | .otherwise => d.otherwise
  | .endIf => d.endIf
  | .startIf condition => .ok (d.startIf condition)
  | .content text => .ok (d.addLine text)

/-- The node, if nothing is left open. -/
def close (d : Draft) : Except ScriptFault Node :=
  if d.openDecision.isSome then .error .unclosedDecision
  else if !d.openConditionals.isEmpty then .error .unclosedConditional
  else .ok {
    name := d.name, context := d.context, lines := d.lines,
    decisions := d.decisions, conditionals := d.conditionals }

end Draft

end Script

end VisualNovel
