/-!
# Blank characters and trimming

Two classes of blanks are in use. Scripts, conditions and literals are trimmed by `isBlank`, which
counts the four information separators as blanks; the texts of stored numbers are trimmed by
`isSpace`, which does not.
-/

namespace VisualNovel.Text

/-- The characters with the Unicode property `White_Space`. -/
def isSpace (c : Char) : Bool :=
  let n := c.toNat
  (9 ≤ n && n ≤ 13) || n == 32 || n == 0x85 || n == 0xA0 || n == 0x1680 ||
    (0x2000 ≤ n && n ≤ 0x200A) || n == 0x2028 || n == 0x2029 || n == 0x202F || n == 0x205F ||
    n == 0x3000

/-- The spaces and the four information separators. -/
def isBlank (c : Char) : Bool :=
  isSpace c || (28 ≤ c.toNat && c.toNat ≤ 31)

/-- A text without the leading characters of a class. -/
def trimLeft (p : Char → Bool) (s : List Char) : List Char := s.dropWhile p

/-- A text without the trailing characters of a class. -/
def trimRight (p : Char → Bool) (s : List Char) : List Char := (s.reverse.dropWhile p).reverse

/-- A text without the leading and the trailing characters of a class. -/
def trimBy (p : Char → Bool) (s : List Char) : List Char := trimRight p (trimLeft p s)

/-- A text without the blanks at its ends. -/
def trim (s : List Char) : List Char := trimBy isBlank s

/-- A text without the double quotes at its ends. -/
def unquote (s : List Char) : List Char := trimBy (· == '"') s

end VisualNovel.Text
