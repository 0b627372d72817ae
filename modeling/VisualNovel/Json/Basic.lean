/-!
# JSON values

A value as it is stored in a file or handed over by a host. Integers and real numbers are told
apart by how they are written; an object keeps its members in order.
-/

namespace VisualNovel

/-- A JSON value. -/
inductive Json where
  | null
  | bool (b : Bool)
  | int (n : Int)
  /-- An integer that is too long for a number of another kind. -/
  | wide (n : Int)
  | real (x : Float)
  | str (s : String)
  /-- A string that holds half of a surrogate pair, as code points: it is no text. -/
  | broken (points : List Nat)
  | arr (items : List Json)
  | obj (members : List (String × Json))
  deriving Repr, Inhabited

namespace Json

/-- The first half of a surrogate pair. -/
def isHigh (n : Nat) : Bool := 0xD800 ≤ n && n < 0xDC00

/-- The second half of a surrogate pair. -/
def isLow (n : Nat) : Bool := 0xDC00 ≤ n && n < 0xE000

/-- Half of a surrogate pair without the other half. -/
def isHalf (n : Nat) : Bool := isHigh n || isLow n

/-- The character of a code point; half of a pair is replaced. -/
def charOf (n : Nat) : Char := if isHalf n then '\uFFFD' else Char.ofNat n

/-- The text of code points, where halves of pairs are replaced. -/
def textOf (points : List Nat) : String := String.ofList (points.map charOf)

/-- Members with distinct names: a later member takes the place of an earlier one. -/
def setMember (name : String) (v : Json) : List (String × Json) → List (String × Json)
  | [] => [(name, v)]
  | m :: ms => if m.1 = name then (name, v) :: ms else m :: setMember name v ms

/-- The value of a member. Of two members with one name the later one counts. -/
def member? (name : String) : List (String × Json) → Option Json
  | [] => none
  | m :: ms => member? name ms <|> if m.1 = name then some m.2 else none

/-- The members but those of one name. -/
def dropMember (name : String) (ms : List (String × Json)) : List (String × Json) :=
  ms.filter fun m => m.1 ≠ name

/-- A list of integers. -/
def ints (ns : List Int) : Json := .arr (ns.map .int)

/-- A list of texts. -/
def strs (ss : List String) : Json := .arr (ss.map .str)

mutual
/-- How deep lists and objects with something in them are nested. -/
def depth : Json → Nat
  | .arr (v :: vs) => max v.depth (depthItems vs) + 1
  | .obj ((_, v) :: ms) => max v.depth (depthMembers ms) + 1
  | _ => 0
/-- The depth of the deepest item. -/
def depthItems : List Json → Nat
  | [] => 0
  | v :: vs => max v.depth (depthItems vs)
/-- The depth of the deepest member. -/
def depthMembers : List (String × Json) → Nat
  | [] => 0
  | (_, v) :: ms => max v.depth (depthMembers ms)
end

mutual
/-- The first string in the value that is no text. -/
def broken? : Json → Option (List Nat)
  | .broken points => some points
  | .arr items => brokenItem? items
  | .obj members => brokenMember? members
  | _ => none
/-- The first string in the items that is no text. -/
def brokenItem? : List Json → Option (List Nat)
  | [] => none
  | v :: vs => v.broken? <|> brokenItem? vs
/-- The first string in the members that is no text. -/
def brokenMember? : List (String × Json) → Option (List Nat)
  | [] => none
  | (_, v) :: ms => v.broken? <|> brokenMember? ms
end

mutual
/-- The integers in a value. -/
def numbers : Json → List Int
  | .int n | .wide n => [n]
  | .arr items => numbersOfItems items
  | .obj members => numbersOfMembers members
  | _ => []
/-- The integers in items. -/
def numbersOfItems : List Json → List Int
  | [] => []
  | v :: vs => v.numbers ++ numbersOfItems vs
/-- The integers in members. -/
def numbersOfMembers : List (String × Json) → List Int
  | [] => []
  | (_, v) :: ms => v.numbers ++ numbersOfMembers ms
end

/-- Inserts a member into members that are sorted by name. -/
def insertSorted (m : String × Json) : List (String × Json) → List (String × Json)
  | [] => [m]
  | n :: ms => if m.1 < n.1 then m :: n :: ms else n :: insertSorted m ms

mutual
/-- The same value with the members of every object sorted by name. -/
def sorted : Json → Json
  | .arr items => .arr (sortedItems items)
  | .obj members => .obj (sortedMembers members)
  | v => v
/-- Sorts inside every item. -/
def sortedItems : List Json → List Json
  | [] => []
  | v :: vs => v.sorted :: sortedItems vs
/-- Sorts inside every member, and the members. -/
def sortedMembers : List (String × Json) → List (String × Json)
  | [] => []
  | (k, v) :: ms => insertSorted (k, v.sorted) (sortedMembers ms)
end

/-- The values that count as nothing: null, false, zero and the empty ones. -/
def isEmptyValue : Json → Bool
  | .null => true
  | .bool b => !b
  | .int n | .wide n => n == 0
  | .real x => x == 0
  | .str s => s.isEmpty
  | .broken _ => false
  | .arr items => items.isEmpty
  | .obj members => members.isEmpty

end Json

end VisualNovel
