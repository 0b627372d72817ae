import VisualNovel.Text.Split
import VisualNovel.Text.Blank
import VisualNovel.Text.Tag
import VisualNovel.Schema.Scalar

/-!
# Lines of dialogue

A content line is spoken by someone if it has a bar: the speaker stands before the first one and
the text after it. Other lines are narration.
-/

namespace VisualNovel

/-- A content line split into speaker and text. -/
structure Spoken where
  /-- Who speaks; narration has no speaker. -/
  speaker : String := ""
  /-- What is said. -/
  text : String := ""
  deriving DecidableEq, Repr, Inhabited

namespace Spoken

/-- Splits a content line at its first bar. -/
def ofLine (line : String) : Spoken :=
  match Text.breakAt '|' line.toList with
  | some (speaker, text) => ⟨String.ofList (Text.trim speaker), String.ofList (Text.trim text)⟩
  | none => ⟨"", line⟩

/-- The text without its tags. -/
def rawText (s : Spoken) : String := String.ofList (Text.dropTags .square s.text.toList)

/-- The line as stored data. -/
def toJson (s : Spoken) : Json := .obj [("speaker", .str s.speaker), ("text", .str s.text)]

end Spoken

/-- The check of a line of dialogue. -/
def Schema.spoken : Json → Checked Spoken := model ["speaker", "text"] fun ms =>
  Spoken.mk <$> optional "speaker" "" str ms <*> optional "text" "" str ms

end VisualNovel
