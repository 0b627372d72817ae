import VisualNovel.Number.Decimal
import VisualNovel.Text.Quoted
import VisualNovel.Json.Basic

/-!
# Values of script variables

A variable holds a flag, an integer or a text. Which of them a declaration means is decided from
how its literal is written.
-/

namespace VisualNovel

/-- The value of a script variable. -/
inductive Value where
  | bool (b : Bool)
  | int (n : Int)
  | str (s : String)
  deriving DecidableEq, Repr, Inhabited

/-- The types that a host may ask for. Variables have no real numbers and no lists. -/
inductive ValueType where
  | bool | int | str | real | list
  deriving DecidableEq, Repr, Inhabited

/-- Why a variable could not be read or written. -/
inductive VariableFault where
  /-- No variable has the name. -/
  | unknown (name : String)
  /-- The text is no literal of the type asked for. -/
  | unreadable (text : String) (type : ValueType)
  /-- No value has the type asked for. -/
  | unsupported (type : ValueType)
  /-- The value is none that a variable can hold. -/
  | notAValue (name : String) (value : Json)
  deriving Repr

namespace ValueType

/-- The name of a type in messages. -/
def label : ValueType → String
  | bool => "bool"
  | int => "int"
  | str => "str"
  | real => "float"
  | list => "list"

end ValueType

/-- The name of a host value's type in messages. -/
def Json.typeLabel : Json → String
  | .null => "NoneType"
  | .bool _ => "bool"
  | .int _ | .wide _ => "int"
  | .real _ => "float"
  | .str _ | .broken _ => "str"
  | .arr _ => "list"
  | .obj _ => "dict"

/-- The message of a fault. -/
def VariableFault.message : VariableFault → String
  | unknown name => s!"Variable {name} not found."
  | unreadable text type => s!"Cannot convert {Text.quoted text} to {type.label}"
  | unsupported type => s!"Unsupported variable type: <class '{type.label}'>"
  | notAValue name value =>
    s!"Variable '{name}' must be bool, int or str, got {value.typeLabel}"

namespace Value

/-- Reads a flag: one of two words in any case, with blanks around it. -/
def readBool? (s : List Char) : Option Bool :=
  let word := Number.foldCase (Text.trim s)
  if word = "true".toList then some true
  else if word = "false".toList then some false
  else none

/-- The text between two double quotes. -/
def unquoted? : List Char → Option (List Char)
  | '"' :: s => match s.getLast? with
    | some '"' => some s.dropLast
    | _ => none
  | _ => none

/-- The value that a literal writes: a text in quotes, a flag, an integer, or else the text as it
stands. -/
def ofLiteral (s : List Char) : Value :=
  match unquoted? s with
  | some t => .str (String.ofList t)
  | none => match readBool? s with
    | some b => .bool b
    | none => match Number.readInt? s with
      | some n => .int n
      | none => .str (String.ofList s)

/-- An integer in decimal digits. -/
def intText (n : Int) : String := String.ofList (Number.formatInt n)

/-- The text of a value in a line of dialogue. -/
def display : Value → String
  | .bool b => if b then "True" else "False"
  | .int n => intText n
  | .str s => s

/-- The text of a value in a condition. -/
def literal : Value → List Char
  | .bool b => (if b then "true" else "false").toList
  | .int n => Number.formatInt n
  | .str s => '"' :: (s.toList ++ ['"'])

/-- The value as one of another type. -/
def convert (v : Value) : ValueType → Except VariableFault Value
  | .str => .ok (.str v.display)
  | .bool => match v with
    | .bool b => .ok (.bool b)
    | .int n => .ok (.bool (n ≠ 0))
    | .str s => match readBool? s.toList with
      | some b => .ok (.bool b)
      | none => .error (.unreadable s .bool)
  | .int => match v with
    | .bool b => .ok (.int (if b then 1 else 0))
    | .int n => .ok (.int n)
    | .str s => match Number.readInt? s.toList with
      | some n => .ok (.int n)
      | none => .error (.unreadable s .int)
  | type => .error (.unsupported type)

/-- What stands in for a variable that cannot be had as a type. -/
def default? : ValueType → Option Value
  | .bool => some (.bool false)
  | .int => some (.int 0)
  | .str => some (.str "")
  | _ => none

/-- The value of a variable from a host's value. -/
def ofJson? : Json → Option Value
  | .bool b => some (.bool b)
  | .int n | .wide n => some (.int n)
  | .str s => some (.str s)
  | .broken points => some (.str (Json.textOf points))
  | _ => none

/-- The value as a host's value. -/
def toJson : Value → Json
  | .bool b => .bool b
  | .int n => .int n
  | .str s => .str s

end Value

end VisualNovel
