import VisualNovel.Failure
import VisualNovel.Files.Model

/-!
# Assigning members of models

A model in memory can be changed member by member, and the new value is checked. Names with an
underscore in front are for the host: they can be assigned anything and are not part of the model.
What a model derives from its members cannot be assigned.
-/

namespace VisualNovel.Schema

/-- What a name stands for when something is assigned to it. -/
inductive Target where
  /-- A member of the model. -/
  | member
  /-- Something derived from the members. -/
  | derived
  /-- Something that is not part of the model. -/
  | hidden
  /-- Nothing. -/
  | unknown
  deriving DecidableEq, Repr, Inhabited

/-- What every model derives from its members: those that have been set, and what else it holds. -/
def derivedNames : List String := ["model_fields_set", "model_extra"]

/-- What a name stands for in a model with certain members and derived names. -/
def target (members derived : List String) (name : String) : Target :=
  if name.toList.head? = some '_' then .hidden
  else if members.contains name then .member
  else if (derived ++ derivedNames).contains name then .derived
  else .unknown

/-- Assigns to a name of a model; `set` checks the value of a member. -/
def assign {α : Type} (model : String) (members derived : List String) (name : String) (a : α)
    (set : Checked α) : Except Failure α :=
  match target members derived name with
  | .member => Files.ofChecked set
  | .hidden => .ok a
  | .derived => .error (.readOnly model name)
  | .unknown => .error (.data [⟨.unknownField, [name]⟩])

end VisualNovel.Schema
