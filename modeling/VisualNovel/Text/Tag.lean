/-!
# Tags in texts

A tag starts with one bracket and ends with the other one, unless a character in between may not
stand in a tag. Lines of dialogue have tags in square brackets; texts on screen have tags in angle
brackets.
-/

namespace VisualNovel.Text

/-- How tags are written. -/
structure TagStyle where
  /-- The bracket that opens a tag. -/
  opening : Char
  /-- The bracket that closes a tag. -/
  closing : Char
  /-- The character that may not stand in a tag. -/
  barred : Char
  deriving DecidableEq, Repr

namespace TagStyle

/-- Tags in square brackets, on one line. -/
def square : TagStyle := ⟨'[', ']', '\n'⟩

/-- Tags in angle brackets, with no further bracket inside. -/
def angle : TagStyle := ⟨'<', '>', '<'⟩

end TagStyle

/-- What follows the bracket that closes a tag. -/
def afterTag? (st : TagStyle) : List Char → Option (List Char)
  | [] => none
  | c :: s =>
    if c = st.closing then some s else if c = st.barred then none else afterTag? st s

/-- The text after a passed number of characters, without its tags. -/
def dropTagsFrom (st : TagStyle) : Nat → List Char → List Char
  | _, [] => []
  | k + 1, _ :: s => dropTagsFrom st k s
  | 0, c :: s =>
    if c = st.opening then match afterTag? st s with
      | some rest => dropTagsFrom st (s.length - rest.length) s
      | none => c :: dropTagsFrom st 0 s
    else c :: dropTagsFrom st 0 s

/-- The text without its tags. -/
def dropTags (st : TagStyle) (s : List Char) : List Char := dropTagsFrom st 0 s

end VisualNovel.Text
