import VisualNovel.Variable.Value
import VisualNovel.Text.Split
import VisualNovel.Text.Word

/-!
# Lines of a script

A script is read line by line. A line is trimmed and freed of its comment; then it is a variable
declaration, one of the markers that structure a node, or content.
-/

namespace VisualNovel.Script

open Text

/-- Cuts a line before the two slashes that start a comment. The flag says whether the line is
inside double quotes, where slashes are content. -/
def beforeComment? : Bool → List Char → Option (List Char)
  | _, [] => none
  | _, [_] => none
  | quoted, c :: d :: s =>
    let inside := if c = '"' then !quoted else quoted
    if !inside && c = '/' && d = '/' then some []
    else (beforeComment? inside (d :: s)).map (c :: ·)

/-- A line without its comment and the blanks before it. -/
def stripComment (s : List Char) : List Char :=
  match beforeComment? false s with
  | some t => trimRight isBlank t
  | none => s

/-- The text up to the parenthesis that closes the given number of open ones. -/
def closingGroup? : Nat → List Char → Option (List Char)
  | _, [] => none
  | depth, c :: s =>
    if c = '(' then (closingGroup? (depth + 1) s).map (c :: ·)
    else if c = ')' then
      match depth with
      | 0 => some []
      | d + 1 => (closingGroup? d s).map (c :: ·)
    else (closingGroup? depth s).map (c :: ·)

/-- The contents of the first group in parentheses, or nothing if it is not closed. -/
def extractCondition (s : List Char) : List Char :=
  match breakAt '(' s with
  | some (_, rest) => match closingGroup? 0 rest with
    | some inner => trim inner
    | none => []
  | none => []

/-- The marker that opens a node. -/
def nodeMarker : List Char := "#Node:".toList
/-- The marker that closes a node. -/
def endNodeMarker : List Char := "#EndNode".toList
/-- The marker that opens a decision. -/
def startDecisionMarker : List Char := "#StartDecision".toList
/-- The marker that closes a decision. -/
def endDecisionMarker : List Char := "#EndDecision".toList

/-- A line of a script by what it does. -/
inductive Line where
  /-- Sets a variable. -/
  | declaration (name : String) (value : Value)
  /-- Opens a node. The whole line is kept for messages. -/
  | node (name : List Char) (whole : List Char)
  | endNode
  | startDecision
  | endDecision
  /-- An option of a decision. The whole line is kept for messages. -/
  | option (label : List Char) (whole : List Char)
  | elseIf (condition : List Char)
  | otherwise
  | endIf
  | startIf (condition : List Char)
  /-- A line of dialogue or a command. -/
  | content (text : List Char)
  deriving DecidableEq, Repr

/-- Passes over blanks, of which there has to be one at least. -/
def skipBlanks? : List Char → Option (List Char)
  | c :: s => if isBlank c then some (trimLeft isBlank s) else none
  | [] => none

/-- Reads a declaration: the word `var`, a name, an equals sign and a literal on the same line. -/
def declaration? (s : List Char) : Option (String × Value) := do
  let rest ← dropPrefix? "var".toList s
  let (name, rest) := spanWord (← skipBlanks? rest)
  if name.isEmpty then none
  else match trimLeft isBlank rest with
    | '=' :: rest =>
      let literal := trimLeft isBlank rest
      if literal.isEmpty || literal.contains '\n' then none
      else some (String.ofList name, Value.ofLiteral (trim literal))
    | _ => none

/-- The line starts a group in parentheses right after blanks. -/
def opensGroup (s : List Char) : Bool := (trimLeft isBlank s).head? = some '('

/-- The line opens a conditional. -/
def isStartIf (s : List Char) : Bool :=
  match dropPrefix? "if".toList s with
  | some rest => opensGroup rest
  | none => false

/-- The line opens a further branch with a condition. -/
def isElseIf (s : List Char) : Bool :=
  match (dropPrefix? "else".toList s).bind skipBlanks? with
  | some rest => isStartIf rest
  | none => false

/-- The kind of a line that is trimmed and has no comment. -/
def Line.classify (s : List Char) : Line :=
  match declaration? s with
  | some (name, v) => .declaration name v
  | none =>
    if endNodeMarker.isPrefixOf s then .endNode
    else if nodeMarker.isPrefixOf s then .node (trim (s.drop nodeMarker.length)) s
    else if startDecisionMarker.isPrefixOf s then .startDecision
    else if endDecisionMarker.isPrefixOf s then .endDecision
    else if s.head? = some '-' then .option (trim s.tail) s
    else if isElseIf s then .elseIf (extractCondition s)
    else if s = "else".toList then .otherwise
    else if s = "endif".toList then .endIf
    else if isStartIf s then .startIf (extractCondition s)
    else .content s

/-- Reads a line; blank lines and comments mean nothing. -/
def Line.read? (raw : List Char) : Option Line :=
  match stripComment (trim raw) with
  | [] => none
  | s => some (Line.classify s)

end VisualNovel.Script
