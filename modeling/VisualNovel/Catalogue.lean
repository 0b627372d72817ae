import VisualNovel.Save.Folder

/-!
# The models by name

Every model that can be stored, by its name. The values of all models are given as stored data, so
a host can check, load and save a model of which it knows only the name.
-/

namespace VisualNovel.Catalogue

/-- A model whose values are given as stored data. -/
def entry {α : Type} (name : String) (check : Json → Checked α) (toJson : α → Json) :
    Files.Model Json :=
  ⟨name, fun v => (check v).map toJson, id⟩

/-- All models. -/
def models : List (Files.Model Json) :=
  [entry "Decision" Schema.choice Choice.toJson,
    entry "DecisionBlock" Schema.decision Decision.toJson,
    entry "Conditional" Schema.branch Branch.toJson,
    entry "ConditionalBlock" Schema.conditional Conditional.toJson,
    entry "NodeData" Schema.node Node.toJson,
    entry "DialogueLine" Schema.spoken Spoken.toJson,
    entry "TranscriptEntry" Schema.spoken Spoken.toJson,
    entry "NodeFrame" Schema.frame Frame.toJson,
    entry "TraversalState" Schema.traversal Traversal.toJson,
    entry "Variable" Schema.variable_ Variables.entryToJson,
    entry "ConfigData" Schema.settings Settings.toJson,
    entry "PersistentData" Rotation.check Rotation.toJson,
    entry "SaveData" Schema.save fun s => .obj s.members]

/-- The model of a name. -/
def find? (name : String) : Option (Files.Model Json) := models.find? fun m => m.name = name

end VisualNovel.Catalogue
