import VisualNovel.Session.Basic
import VisualNovel.Text.Word

/-!
# The wording of a line on screen

A line of a script names variables in braces and marks emphasis and italics with tags in square
brackets. On screen the variables are replaced by their values and the tags by those of rich text.
-/

namespace VisualNovel

namespace Wording

open Text

/-- The word in braces at the start of a text, and what follows it. -/
def variableAt? : List Char → Option (List Char × List Char)
  | '{' :: s => match spanWord s with
    | ([], _) => none
    | (name, '}' :: rest) => some (name, rest)
    | _ => none
  | _ => none

/-- The text after a passed number of characters, with the names of variables in braces replaced
by their values. Other names stay as they are. -/
def fillFrom (vs : Variables) : Nat → List Char → List Char
  | _, [] => []
  | k + 1, _ :: s => fillFrom vs k s
  | 0, c :: s =>
    match variableAt? (c :: s) with
    | none => c :: fillFrom vs 0 s
    | some (name, rest) =>
      let filled := match vs.get? (String.ofList name) with
        | some v => v.display.toList
        | none => '{' :: name ++ ['}']
      filled ++ fillFrom vs (s.length - rest.length) s

/-- The text with the names of variables in braces replaced by their values. -/
def fill (vs : Variables) (s : List Char) : List Char := fillFrom vs 0 s

/-- Replaces every occurrence of a text. -/
def replace (old new s : List Char) : List Char := join new (splitOn old s)

/-- The tags of scripts and those of rich text in their place. -/
def tags (emphasisColor : String) : List (String × String) :=
  [("[emp]", s!"<color=#{emphasisColor}>"), ("[/emp]", "</color>"), ("[it]", "<i>"),
    ("[/it]", "</i>")]

/-- Replaces the tags of scripts, one after the other. -/
def replaceTags (emphasisColor : String) (s : List Char) : List Char :=
  (tags emphasisColor).foldl (fun s tag => replace tag.1.toList tag.2.toList s) s

end Wording

/-- The text of a line as it is shown. -/
def Session.wording (s : Session) (text : String) : String :=
  String.ofList (Wording.replaceTags s.settings.emphasisColor (Wording.fill s.vars text.toList))

end VisualNovel
