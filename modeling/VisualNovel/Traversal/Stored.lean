import VisualNovel.Traversal.Basic
import VisualNovel.Json.Printer

/-!
# Stored traversals

A traversal is stored as one object. The open blocks of a frame are members of the frame with names
of their own.
-/

namespace VisualNovel

/-- A variable as stored data. -/
def Variables.entryToJson (e : String × Value) : Json :=
  .obj [("name", .str e.1), ("value", e.2.toJson)]

/-- A frame as stored data. -/
def Frame.toJson (f : Frame) : Json :=
  .obj [("node_name", .str f.node), ("source_context", .str f.context),
    ("resume_line", .int f.suspended.line),
    ("suspended_decisions", .ints f.suspended.decisions),
    ("suspended_choices", .ints f.suspended.choices),
    ("suspended_conditionals", .ints f.suspended.conditionals),
    ("suspended_branches", .ints f.suspended.branches)]

/-- The members of a stored traversal. -/
def Traversal.members (t : Traversal) : List (String × Json) :=
  [("node_stack", .arr (t.frames.map Frame.toJson)),
    ("current_line", .int t.cursor.line),
    ("active_decisions", .ints t.cursor.decisions),
    ("made_choices", .ints t.cursor.choices),
    ("active_conditionals", .ints t.cursor.conditionals),
    ("resolved_branches", .ints t.cursor.branches),
    ("command_history", .strs t.history),
    ("completed_nodes", .strs t.completed),
    ("variables", .arr (t.vars.map Variables.entryToJson)),
    ("transcript", .arr (t.transcript.map Spoken.toJson))]

/-- A traversal as stored data. -/
def Traversal.toJson (t : Traversal) : Json := .obj t.members

/-- The text of a stored traversal. -/
def Traversal.toText (t : Traversal) : String := t.toJson.render .stored

namespace Schema

/-- The check of a value that is a flag, an integer or a text and is not converted. -/
def value (v : Json) : Checked Value :=
  match Value.ofJson? v with
  | some x => .valid x
  | none =>
    .invalid [⟨.notBool, ["bool"]⟩, ⟨.notInt, ["int"]⟩, ⟨.notString, ["str"]⟩]

/-- The check of a variable. -/
def variable_ : Json → Checked (String × Value) := model ["name", "value"] fun ms =>
  Prod.mk <$> required "name" str ms <*> required "value" value ms

/-- The check of a frame. -/
def frame : Json → Checked Frame :=
  model ["node_name", "source_context", "resume_line", "suspended_decisions", "suspended_choices",
    "suspended_conditionals", "suspended_branches"] fun ms =>
    Frame.mk <$> required "node_name" str ms <*> optional "source_context" "" str ms <*>
      (Cursor.mk <$> optional "resume_line" 0 int ms <*>
        optional "suspended_decisions" [] ints ms <*> optional "suspended_choices" [] ints ms <*>
        optional "suspended_conditionals" [] ints ms <*>
        optional "suspended_branches" [] ints ms)

/-- The names of the members of a stored traversal. -/
def traversalNames : List String :=
  ["node_stack", "current_line", "active_decisions", "made_choices", "active_conditionals",
    "resolved_branches", "command_history", "completed_nodes", "variables", "transcript"]

/-- The check of a traversal. -/
def traversal : Json → Checked Traversal := model traversalNames fun ms =>
  Traversal.mk <$> optional "node_stack" [] (list frame) ms <*>
    (Cursor.mk <$> optional "current_line" 0 int ms <*> optional "active_decisions" [] ints ms <*>
      optional "made_choices" [] ints ms <*> optional "active_conditionals" [] ints ms <*>
      optional "resolved_branches" [] ints ms) <*>
    optional "command_history" [] strs ms <*> optional "completed_nodes" [] strs ms <*>
    optional "variables" [] (list variable_) ms <*>
    optional "transcript" [] (list spoken) ms

end Schema

/-- Reads the text of a stored traversal. -/
def Traversal.ofText (s : String) : Checked Traversal := Schema.text Schema.traversal s

end VisualNovel
