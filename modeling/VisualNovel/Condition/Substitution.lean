import VisualNovel.Variable.Store
import VisualNovel.Text.Word

/-!
# Variables in a text

A condition names variables by bare words; the text of a line names them between braces. Either
way, a word that is no variable stays as it is.
-/

namespace VisualNovel.Condition

open Text

/-- A word of a condition: the literal of the variable it names, or the word itself. -/
def substituteWord (vs : Variables) (word : List Char) : List Char :=
  match vs.get? (String.ofList word) with
  | some v => v.literal
  | none => word

/-- Substitutes after a part of a word, given in reverse, has been passed over. -/
def substituteFrom (vs : Variables) : List Char → List Char → List Char
  | word, [] => if word.isEmpty then [] else substituteWord vs word.reverse
  | word, c :: s =>
    if isWord c then substituteFrom vs (c :: word) s
    else
      (if word.isEmpty then [] else substituteWord vs word.reverse) ++ c :: substituteFrom vs [] s

/-- Replaces each word that names a variable by the literal of its value. -/
def substitute (vs : Variables) (s : List Char) : List Char := substituteFrom vs [] s

end VisualNovel.Condition
