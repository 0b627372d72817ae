import VisualNovel.Json.Reader

/-!
# Checking stored data

Stored data is checked against the shape of the model it is read as. A check reports every problem
that it finds, each with the path to the offending value. Models are closed: a member that the
model does not have is a problem.
-/

namespace VisualNovel

/-- What is wrong with a value. -/
inductive ProblemKind where
  | missing
  | unknownMember
  | unknownField
  | notModel
  | notList
  | notInt
  | unreadableInt
  | oversizedInt
  | fractionalInt
  | notFinite
  | notReal
  | unreadableReal
  | notBool
  | unreadableBool
  | notString
  | notText
  | patternMismatch
  | notAbove
  | belowLeast
  | aboveGreatest
  | notChoice
  | malformed
  deriving DecidableEq, Repr, Inhabited

/-- The word that reports use for a kind of problem. -/
def ProblemKind.label : ProblemKind → String
  | missing => "missing"
  | unknownMember => "extra_forbidden"
  | unknownField => "no_such_attribute"
  | notModel => "model_type"
  | notList => "list_type"
  | notInt => "int_type"
  | unreadableInt => "int_parsing"
  | oversizedInt => "int_parsing_size"
  | fractionalInt => "int_from_float"
  | notFinite => "finite_number"
  | notReal => "float_type"
  | unreadableReal => "float_parsing"
  | notBool => "bool_type"
  | unreadableBool => "bool_parsing"
  | notString => "string_type"
  | notText => "string_unicode"
  | patternMismatch => "string_pattern_mismatch"
  | notAbove => "greater_than"
  | belowLeast => "greater_than_equal"
  | aboveGreatest => "less_than_equal"
  | notChoice => "enum"
  | malformed => "json_invalid"

/-- A problem and where it is. -/
structure Problem where
  /-- What is wrong. -/
  kind : ProblemKind
  /-- The member names and item numbers that lead to the value. -/
  path : List String
  deriving DecidableEq, Repr, Inhabited

/-- The path of a problem as one text. -/
def Problem.location (p : Problem) : String := String.intercalate "." p.path

/-- The outcome of a check: a value, or all problems found. -/
inductive Checked (α : Type) where
  | valid (value : α)
  | invalid (problems : List Problem)
  deriving DecidableEq, Repr

namespace Checked

variable {α β : Type}

/-- Applies a function to a checked value. -/
def map (f : α → β) : Checked α → Checked β
  | valid a => valid (f a)
  | invalid ps => invalid ps

/-- Both outcomes count: the problems of either are reported. -/
def both (f : Checked (α → β)) (x : Checked α) : Checked β :=
  match f, x with
  | valid g, valid a => valid (g a)
  | valid _, invalid qs => invalid qs
  | invalid ps, valid _ => invalid ps
  | invalid ps, invalid qs => invalid (ps ++ qs)

instance : Applicative Checked where
  pure := valid
  map := map
  seq f x := both f (x ())

/-- A single problem with the value itself. -/
def fail (kind : ProblemKind) : Checked α := invalid [⟨kind, []⟩]

/-- Problems are reported one level further out. -/
def within (name : String) : Checked α → Checked α
  | valid a => valid a
  | invalid ps => invalid (ps.map fun p => { p with path := name :: p.path })

/-- A further condition on a checked value. -/
def require (kind : ProblemKind) (p : α → Bool) : Checked α → Checked α
  | valid a => if p a then valid a else fail kind
  | invalid ps => invalid ps

/-- The value, if there is no problem. -/
def value? : Checked α → Option α
  | valid a => some a
  | invalid _ => none

end Checked

namespace Schema

variable {α : Type}

/-- The members of an object. -/
abbrev Members := List (String × Json)

/-- A member that has to be present. -/
def required (name : String) (check : Json → Checked α) (ms : Members) : Checked α :=
  match Json.member? name ms with
  | some v => (check v).within name
  | none => (Checked.fail .missing).within name

/-- A member with a default. -/
def optional (name : String) (default : α) (check : Json → Checked α) (ms : Members) : Checked α :=
  match Json.member? name ms with
  | some v => (check v).within name
  | none => .valid default

/-- No other members than those named are present. -/
def closed (names : List String) (ms : Members) : Checked Unit :=
  match (ms.filter fun m => !names.contains m.1) with
  | [] => .valid ()
  | others => .invalid (others.map fun m => ⟨.unknownMember, [m.1]⟩)

/-- A closed model, checked member by member. -/
def model (names : List String) (check : Members → Checked α) : Json → Checked α
  | .obj ms => Checked.both ((check ms).map fun a _ => a) (closed names ms)
  | _ => .fail .notModel

/-- The items of a list, numbered from `i`. -/
def items (check : Json → Checked α) : Nat → List Json → Checked (List α)
  | _, [] => .valid []
  | i, v :: vs =>
    Checked.both (((check v).within (toString i)).map List.cons) (items check (i + 1) vs)

/-- A list. -/
def list (check : Json → Checked α) : Json → Checked (List α)
  | .arr vs => items check 0 vs
  | _ => .fail .notList

/-- A value or nothing. -/
def nullable (check : Json → Checked α) : Json → Checked (Option α)
  | .null => .valid none
  | v => (check v).map some

/-- Data kept as text. -/
def text (check : Json → Checked α) (s : String) : Checked α :=
  match Json.readModel? s with
  | some v => check v
  | none => .fail .malformed

end Schema

end VisualNovel
