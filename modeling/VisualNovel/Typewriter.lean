import VisualNovel.Failure
import VisualNovel.Number.Quantity

/-!
# Revealing a line character by character

A typewriter reveals a text at a steady pace. Tags in angle brackets are revealed as a whole and
take no time. What is not yet revealed is shown in a transparent colour, so that the layout of the
line stays the same while it is typed.
-/

namespace VisualNovel

/-- A text that is being revealed. -/
structure Typewriter where
  /-- The whole text, with its tags. -/
  text : String
  /-- The seconds that a character takes; never negative. -/
  pace : Float
  /-- How many characters have been revealed. -/
  revealed : Nat := 0
  /-- The time until the next character. -/
  timer : Float := 0
  /-- All is revealed. -/
  complete : Bool := false
  deriving DecidableEq, Repr, Inhabited

namespace Typewriter

/-- A typewriter at the start of a text. -/
def start (text : String) (secondsPerCharacter : Float) : Typewriter :=
  { text, pace := if 0 < secondsPerCharacter then secondsPerCharacter else 0 }

/-- The number of characters up to the bracket that closes a tag, that bracket included. -/
def tagLength? : List Char → Option Nat
  | [] => none
  | c :: s => if c = '>' then some 1 else (tagLength? s).map (· + 1)

/-- What a reveal has done: the characters it passed, the time left, and whether it came to the
end of the text. -/
structure Progress where
  /-- The characters passed. -/
  passed : Nat
  /-- The time until the next character. -/
  timer : Float
  /-- The end of the text has been reached. -/
  ended : Bool
  deriving DecidableEq, Repr

/-- One more character has been passed. -/
def Progress.next (p : Progress) : Progress := { p with passed := p.passed + 1 }

/-- Reveals characters while there is time. The first argument counts the characters of a tag that
are still to be passed. -/
def reveal (pace : Float) : Nat → List Char → Float → Progress
  | _, [], timer => ⟨0, timer, true⟩
  | k + 1, _ :: s, timer => (reveal pace k s timer).next
  | 0, c :: s, timer =>
    if timer ≤ 0 then
      if c = '<' then (reveal pace ((tagLength? s).getD 0) s timer).next
      else (reveal pace 0 s (timer + pace)).next
    else ⟨0, timer, false⟩

/-- Lets time pass. -/
def tick (w : Typewriter) (dt : Float) : Typewriter :=
  if w.complete then w
  else
    let timer := w.timer - dt
    if timer ≤ 0 then
      let p := reveal w.pace 0 (w.text.toList.drop w.revealed) timer
      { w with revealed := w.revealed + p.passed, timer := p.timer, complete := p.ended }
    else { w with timer := timer }

/-- Lets a time pass that a host gives; a complete typewriter does not look at it. -/
def tickBy (w : Typewriter) (dt : Quantity) : Except Failure Typewriter :=
  if w.complete then .ok w
  else match dt.toReal? with
    | some x => .ok (w.tick x)
    | none => .error .tooLarge

/-- Reveals the whole text at once. -/
def writeAll (w : Typewriter) : Typewriter :=
  if w.complete then w else { w with revealed := w.text.length, complete := true }

/-- The text has been completed on the way from one state to another. -/
def completes (before after : Typewriter) : Bool := after.complete && !before.complete

/-- Opens a transparent span. -/
def hiddenOpen : List Char := "<color=#00000000>".toList

/-- Closes a transparent span. -/
def hiddenClose : List Char := "</color>".toList

/-- A character in a transparent span. -/
def hide (c : Char) : List Char := hiddenOpen ++ c :: hiddenClose

/-- A text with every character outside tags in a transparent span. The first argument counts the
characters of a tag that are still to be copied. -/
def hidden : Nat → List Char → List Char
  | _, [] => []
  | k + 1, c :: s => c :: hidden k s
  | 0, c :: s =>
    if c = '<' then match tagLength? s with
      | some n => c :: hidden n s
      | none => hide c ++ hidden 0 s
    else hide c ++ hidden 0 s

/-- A text of which a number of characters is revealed. -/
def visible (text : List Char) (revealed : Nat) : List Char :=
  text.take revealed ++ hidden 0 (text.drop revealed)

/-- The text as it is shown. -/
def visibleText (w : Typewriter) : String :=
  if w.complete then w.text else String.ofList (visible w.text.toList w.revealed)

/-- Hides a text from a position counted from its end, then once more from its start. A tag that is
met on the way leads straight to what follows it. -/
def hiddenFromEnd (text : List Char) : Nat → Except Failure (List Char)
  | 0 => .ok (hidden 0 text)
  | k + 1 =>
    if text.length < k + 1 then .error .noCharacter
    else match text.drop (text.length - (k + 1)) with
      | [] => .error .noCharacter
      | c :: s =>
        match if c = '<' then tagLength? s else none with
        | some n => .ok (c :: s.take n ++ hidden 0 (s.drop n))
        | none => do return hide c ++ (← hiddenFromEnd text k)

/-- A text of which some characters are revealed; a negative number is counted from the end. -/
def visibleAt (text : List Char) (revealed : Int) : Except Failure (List Char) :=
  match revealed with
  | .ofNat n => .ok (visible text n)
  | .negSucc n => do
    if !Number.isWord revealed then throw .wideIndex
    return text.take (text.length - (n + 1)) ++ (← hiddenFromEnd text (n + 1))

end Typewriter

end VisualNovel
