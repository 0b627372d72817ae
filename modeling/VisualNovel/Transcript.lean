import VisualNovel.Script.Spoken

/-!
# The transcript of a session

The transcript shows the lines presented so far. The newest line is still on screen and is left
out.
-/

namespace VisualNovel.Transcript

/-- What an empty transcript shows. -/
def nothing : String := "No Transcript Found."

/-- One line of the transcript. -/
def formatLine (s : Spoken) : String :=
  if s.speaker.isEmpty then s.text else s!"{s.speaker}: {s.text}"

/-- The last elements of a list, at most so many. -/
def takeLast {α : Type} (n : Nat) (l : List α) : List α := l.drop (l.length - n)

/-- The lines to show, with a limit or without. -/
def shown (lines : List Spoken) (limit : Option Int) : List Spoken :=
  match limit with
  | none => lines.dropLast
  | some n => takeLast n.toNat lines.dropLast

/-- The transcript as a text. -/
def format (lines : List Spoken) (limit : Option Int) : String :=
  match shown lines limit with
  | [] => nothing
  | ls => String.intercalate "\n\n" (ls.map formatLine)

end VisualNovel.Transcript
