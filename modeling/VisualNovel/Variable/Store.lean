import VisualNovel.Remark
import VisualNovel.Variable.Value

/-!
# The variables of a session

A store maps names to values and keeps the order in which the names were first set.
-/

namespace VisualNovel

/-- The variables of a session, in the order of their first setting. -/
structure Variables where
  /-- Names and values; no name occurs twice. -/
  entries : List (String × Value)
  deriving DecidableEq, Repr, Inhabited

namespace Variables

/-- No variables. -/
def empty : Variables := ⟨[]⟩

/-- Replaces the value of a name, or adds the name at the end. -/
def setEntry (name : String) (v : Value) : List (String × Value) → List (String × Value)
  | [] => [(name, v)]
  | e :: es => if e.1 = name then (name, v) :: es else e :: setEntry name v es

/-- Sets a variable. -/
def set (vs : Variables) (name : String) (v : Value) : Variables := ⟨setEntry name v vs.entries⟩

/-- The value of a name among entries. -/
def findEntry? (name : String) : List (String × Value) → Option Value
  | [] => none
  | e :: es => if e.1 = name then some e.2 else findEntry? name es

/-- The value of a variable. -/
def get? (vs : Variables) (name : String) : Option Value := findEntry? name vs.entries

/-- A variable of the name exists. -/
def has (vs : Variables) (name : String) : Bool := (vs.get? name).isSome

/-- The number of variables. -/
def size (vs : Variables) : Nat := vs.entries.length

/-- The variables in order. -/
def toList (vs : Variables) : List (String × Value) := vs.entries

/-- Sets variables one after the other. -/
def setAll (vs : Variables) (es : List (String × Value)) : Variables :=
  es.foldl (fun acc e => acc.set e.1 e.2) vs

/-- Variables from a list; of two entries with one name the later value counts. -/
def ofList (es : List (String × Value)) : Variables := empty.setAll es

/-- Sets a variable to a host's value. -/
def setHost (vs : Variables) (name : String) (v : Json) : Except VariableFault Variables :=
  match Value.ofJson? v with
  | some x => .ok (vs.set name x)
  | none => .error (.notAValue name v)

/-- Sets variables to a host's values up to the first that no variable can hold. -/
def setAllHost (vs : Variables) : List (String × Json) → Variables × Option VariableFault
  | [] => (vs, none)
  | e :: es => match vs.setHost e.1 e.2 with
    | .ok vs' => vs'.setAllHost es
    | .error f => (vs, some f)

/-- Replaces all variables by a host's values. The old variables are gone even if a value is
refused; those before it are then set. -/
def replaceAll (_ : Variables) (es : List (String × Json)) : Variables × Option VariableFault :=
  empty.setAllHost es

/-- The variables that a host's values make. -/
def ofHost (es : List (String × Json)) : Except VariableFault Variables :=
  match empty.setAllHost es with
  | (vs, none) => .ok vs
  | (_, some f) => .error f

/-- Reads a variable as it is. -/
def get (vs : Variables) (name : String) : Except VariableFault Value :=
  match vs.get? name with
  | some v => .ok v
  | none => .error (.unknown name)

/-- Reads a variable as a type. -/
def getAs (vs : Variables) (name : String) (type : ValueType) : Except VariableFault Value := do
  (← vs.get name).convert type

/-- The remark that a variable exists but has no value of a type. -/
def conversionRemark (name : String) (f : VariableFault) : Remark :=
  ⟨.warning, "dialogue.variables",
    s!"Variable '{name}' exists but cannot be converted: {f.message}"⟩

/-- Reads a variable as a type, or gives the type's default, and says whether the variable has been
read. A variable that exists but has no value of the type is remarked. -/
def tryGetAs (vs : Variables) (name : String) (type : ValueType) :
    Option Value × Bool × List Remark :=
  match vs.get? name with
  | none => (Value.default? type, false, [])
  | some v => match v.convert type with
    | .ok w => (some w, true, [])
    | .error f => (Value.default? type, false, [conversionRemark name f])

end Variables

end VisualNovel
