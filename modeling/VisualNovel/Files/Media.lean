import VisualNovel.Files.Tree

/-!
# Media files

Sounds and images are not interpreted here. A media file is good unless it starts with a certain
word.
-/

namespace VisualNovel.Files.Media

/-- What a file that cannot be decoded starts with. -/
def mark : List UInt8 := "corrupt".toUTF8.toList

/-- The file at a path can be decoded. What is not a file counts as decodable. -/
def isGood (tree : Tree) (path : Path) : Bool :=
  match tree.readBytes path with
  | .ok bytes => !mark.isPrefixOf bytes.toList
  | .error _ => true

/-- What is said about a file that cannot be decoded. -/
def badMessage : String := "corrupt file"

end VisualNovel.Files.Media
