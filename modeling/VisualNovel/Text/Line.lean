/-!
# Lines of text

Files may end a line with a line feed, a carriage return or both. Reading a file as text turns each
of them into one line feed.
-/

namespace VisualNovel.Text

/-- Every line ending becomes a line feed. -/
def unifyNewlines : List Char → List Char
  | [] => []
  | '\r' :: '\n' :: s => '\n' :: unifyNewlines s
  | c :: s => (if c = '\r' then '\n' else c) :: unifyNewlines s

/-- The lines of a text; a text that ends with a line feed has an empty last line. -/
def lines : List Char → List (List Char)
  | [] => [[]]
  | c :: s =>
    if c = '\n' then [] :: lines s
    else match lines s with
      | [] => [[c]]
      | l :: ls => (c :: l) :: ls

/-- The text of a file: its bytes must be UTF-8. -/
def decode? (bytes : ByteArray) : Option String :=
  (String.fromUTF8? bytes).map fun s => String.ofList (unifyNewlines s.toList)

end VisualNovel.Text
