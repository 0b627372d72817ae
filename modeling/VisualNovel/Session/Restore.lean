import VisualNovel.Session.Input
import VisualNovel.Traversal.Stored

/-!
# Storing and restoring sessions

A session is stored as its traversal with the variables of the moment. To restore it, the nodes of
its frames are loaded and the traversal is checked against them; only then does it replace the
present one. The scene is rebuilt from the history of commands, and the session runs on from the
stored cursor.
-/

namespace VisualNovel

/-- The traversal of a session with the variables of the moment. -/
def Session.snapshot (s : Session) : Traversal :=
  { s.traversal with vars := s.vars.toList }

/-- The session as stored text. -/
def Session.stored (s : Session) : String := s.snapshot.toText

/-- The nodes of frames with the lines at which they were left. -/
def Traversal.nodesAt (t : Traversal) (nodes : List Node) : List Node :=
  modifyLast (fun n => { n with line := t.cursor.line })
    (List.zipWith (fun f n => { n with line := f.suspended.line }) t.frames nodes)

/-- The session at another traversal, before it runs on. -/
def Session.resumed (s : Session) (t : Traversal) (nodes : List Node) : Session :=
  { s.cleared.replaceNodes (t.nodesAt nodes) with
    vars := .ofList t.vars
    traversal := t
    retired := s.retired ++ [s.traversal]
    halted := false
    speaker := ""
    pausedFrom := none }

namespace Act

variable {σ : Type} (hear : Listener σ)

/-- Loads the nodes of frames one after the other. -/
def loadNodes : List Frame → Act σ (List Node)
  | [] => return []
  | f :: fs => do
    let n ← findScript f.node f.context
    return n :: (← loadNodes fs)

/-- Loads the nodes of a traversal and checks that it fits them. -/
def loadFitting (t : Traversal) : Act σ (List Node) := do
  let nodes ← loadNodes t.frames
  match t.misfit? nodes with
  | some m => throw (.misfit m)
  | none => return nodes

/-- Loads the nodes of a traversal. If the scripts fail or do not fit, the declarations that were
read on the way are undone. -/
def loadOrUndo (t : Traversal) : Act σ (List Node) := do
  let before := (← session).vars
  match ← attempt Failure.isDialogue (loadFitting t) with
  | .ok nodes => return nodes
  | .error f =>
    -- other failures pass through the attempt, and then nothing is undone
    edit fun s => { s with vars := before }
    throw (if f.isRestore then f else .unresumable f)

/-- Goes on in a traversal whose nodes have been loaded. If nothing of its stack is left when the
session comes to a rest, there is no place at which it has been resumed. -/
def resumeAt (t : Traversal) (nodes : List Node) : Act σ Unit := do
  edit fun s => s.resumed t nodes
  let era := (← session).nodesEra
  -- the commands so far rebuild the scene, and none of them goes to a node
  replay hear (goTo hear) t.history
  -- the line at the cursor is in the transcript already
  edit fun s => { s with unrecorded := some (nodes.length, t.cursor.line) }
  run hear []
  edit fun s => { s with unrecorded := none }
  if ((← session).nodesOf era).isEmpty then throw .noElement

/-- Goes on in a stored session. -/
def restore (stored : String) : Act σ Unit := do
  match Traversal.ofText stored with
  | .invalid ps => throw (.storedTraversal ps)
  | .valid t =>
    if t.frames.isEmpty then throw .nothingToResume
    let nodes ← loadOrUndo t
    resumeAt hear t nodes

end Act

end VisualNovel
