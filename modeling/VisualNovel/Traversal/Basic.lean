import VisualNovel.Variable.Store
import VisualNovel.Script.Spoken

/-!
# Traversals

A traversal says where a session is in its scripts: the nodes that have been entered, a cursor into
the innermost one with the decisions and conditionals that are open there, and what has happened so
far. Open blocks are given by their numbers, never by lines.
-/

namespace VisualNovel

/-- A place in a node: a line and the blocks that are open there, outermost first. -/
structure Cursor where
  /-- The line to look at next. -/
  line : Int := 0
  /-- The decisions that have been entered. -/
  decisions : List Int := []
  /-- The option chosen in each of them; the innermost may still wait. -/
  choices : List Int := []
  /-- The conditionals that have been entered. -/
  conditionals : List Int := []
  /-- The branch taken in each of them. -/
  branches : List Int := []
  deriving DecidableEq, Repr, Inhabited

/-- A node on the stack of a traversal. While another node runs on top of it, its cursor is kept
here. -/
structure Frame where
  /-- The name of the node. -/
  node : String
  /-- The scene for which the node was loaded. -/
  context : String := ""
  /-- Where to go on. -/
  suspended : Cursor := {}
  deriving DecidableEq, Repr, Inhabited

/-- The state of a session that can be stored. -/
structure Traversal where
  /-- The nodes that have been entered, innermost last. -/
  frames : List Frame := []
  /-- The place in the innermost node. -/
  cursor : Cursor := {}
  /-- Every command of the session so far, in order. -/
  history : List String := []
  /-- The names of the nodes that ran to their end. -/
  completed : List String := []
  /-- The variables at the time of storing. -/
  vars : List (String × Value) := []
  /-- The lines presented so far, oldest first. -/
  transcript : List Spoken := []
  deriving DecidableEq, Repr, Inhabited

namespace Cursor

/-- The cursor without its open blocks. -/
def withoutBlocks (c : Cursor) : Cursor := { line := c.line }

end Cursor

namespace Traversal

/-- The innermost frame. -/
def top (t : Traversal) : Option Frame := t.frames.getLast?

/-- Moves the cursor into the innermost frame and enters another node at its first line. The first
node takes over the open blocks, of which there are none unless a node has just been completed. -/
def enter (t : Traversal) (node context : String) : Traversal :=
  match t.frames.getLast? with
  | none => { t with frames := [{ node, context }], cursor := { t.cursor with line := 0 } }
  | some f =>
    { t with
      frames := t.frames.dropLast ++ [{ f with suspended := t.cursor }, { node, context }]
      cursor := {} }

/-- Removes the innermost frame and notes that its node is complete. -/
def complete (t : Traversal) (node : String) : Traversal :=
  { t with
    frames := t.frames.dropLast
    completed := if t.completed.contains node then t.completed else t.completed ++ [node] }

/-- Goes on where the innermost frame was left; without a frame the traversal is at its end. -/
def comeBack (t : Traversal) : Traversal :=
  match t.frames.getLast? with
  | none => { t with cursor := {} }
  | some f =>
    { t with
      frames := t.frames.dropLast ++ [{ f with suspended := f.suspended.withoutBlocks }]
      cursor := f.suspended }

end Traversal

end VisualNovel
