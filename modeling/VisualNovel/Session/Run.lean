import VisualNovel.Session.Dispatch
import VisualNovel.Session.Presentation

/-!
# Running a session

A run goes from line to line until the session needs the reader, has come to its end, or has been
halted. On the way it leaves and enters blocks, carries out commands and follows them into other
nodes. Main definition: `Act.run`.

The number of lines that a run passes has no bound that its scripts would tell, because nodes can
lead to each other for ever. A run therefore has the patience of its stage and fails when that is
exhausted.
-/

namespace VisualNovel

namespace Act

variable {σ : Type} (hear : Listener σ)

/-- The session is over. -/
def endSession : Act σ Unit := do
  edit Session.cleared
  hear .sessionEnded

/-- Looks for a node in the scripts. Declarations that are read on the way are carried out. -/
def findScript (name context : String) : Act σ Node := do
  let st ← get
  let found := Script.search st.files st.setup.scripts st.session.vars name context
  edit fun s => { s with vars := found.vars }
  remarkAll found.remarks
  ofExcept found.result

/-- Puts a node on the stack. If it is on top already, it is only replaced. -/
def enter (n : Node) : Act σ Unit := do
  let s ← session
  let line := s.traversal.cursor.line
  if s.traversal.top.any fun f => f.node = n.name then
    edit fun s => s.modifyNode fun _ => { n with line }
  else
    -- the node that waits below remembers the line at which it goes on
    edit fun s => { s.modifyNode (fun m => { m with line }) with
      traversal := s.traversal.enter n.name n.context }
    edit fun s => { s with nodes := s.nodes ++ [n] }
    hear (.nodeEntered n.name)

/-- The node cannot be loaded: nothing goes on. -/
def abandonNode (name : String) (f : Failure) : Act σ Unit := do
  remark .error Session.remarkSource s!"Failed to load node '{name}': {f.message}"
  edit Session.halt
  hear (.loadFailed name f.message)

/-- Loads a node and enters it; false if it is complete or has no lines. -/
def openNode (name context : String) : Act σ Bool := do
  if (← session).traversal.completed.contains name then return false
  match ← attempt Failure.isDialogue (findScript name context) with
  | .error f =>
    abandonNode hear name f
    throw f
  | .ok n =>
    if n.lines.isEmpty then
      remark .warning Session.remarkSource s!"Node '{name}' has no lines"
      return false
    enter hear n
    return true

/-- Follows a command into another node, which belongs to the same scene. A node that cannot be
loaded has halted the session. -/
def goTo (name : String) : Act σ Unit := do
  let context := match (← session).traversal.top with
    | some f => f.context
    | none => ""
  let _ ← attempt Failure.isDialogue (openNode hear name context)

/-- Takes the finished node off the stack and goes on in the node below; false if there is none. -/
def finishNode : Act σ Bool := do
  let s ← session
  match s.traversal.top with
  | none => throw .nothingToRemove
  | some f =>
    let era := s.era
    edit fun s => { s with traversal := s.traversal.complete f.node, nodes := s.nodes.dropLast }
    hear (.nodeCompleted f.node)
    let ended := ((← session).traversalOf era).top.isNone
    -- the node below goes on only now that the completion has been heard of
    edit fun s => s.modifyTraversalOf era Traversal.comeBack
    if ended then endSession hear
    return !ended

/-- Leaves and enters conditionals at the cursor. -/
def passConditionals (n : Node) : Act σ Unit := do
  let s ← session
  let m := n.passConditionals s.vars s.nodes.length s.seen s.traversal.cursor
  edit fun s => { s.withCursor m.cursor with seen := m.seen }
  remarkAll (m.faults.map fun e => e.2.remark e.1)
  if m.stuck then throw .noElement

/-- Asks the reader to choose. -/
def awaitChoice (d : Decision) : Act σ Unit := do
  edit fun s => { s with phase := .choosing, typewriter := none }
  ask (.showDecisions d.labels)
  hear (.decisionRequested d.labels)

/-- Leaves and opens decisions at the cursor; true if the reader has to choose. -/
def passDecisions (n : Node) : Act σ Bool := do
  let s ← session
  let (cursor, turn) := n.passDecisions s.nodes.length s.seen s.traversal.cursor
  edit fun s => s.withCursor cursor
  match turn with
  | .onward => return false
  | .stuck => throw .noElement
  | .ask d =>
    awaitChoice hear d
    return true

/-- Goes to the next line. -/
def nextLine (era : Nat) : Act σ Unit :=
  edit fun s => s.modifyTraversalOf era fun t =>
    { t with cursor := { t.cursor with line := t.cursor.line + 1 } }

/-- Takes up a line of a node; true if the run goes on. -/
def takeLine (era : Nat) (n : Node) (text : String) : Act σ Bool := do
  if Command.isCommandLine text.toList then
    edit fun s => s.modifyTraversalOf era fun t => { t with history := t.history ++ [text] }
    -- the cursor goes on first, as the command may lead to another node
    nextLine era
    let _ ← dispatch hear (goTo hear) text false
    return true
  let line := Spoken.ofLine text
  if line.text.isEmpty then
    nextLine era
    return true
  present hear n line
  return false

/-- One step of a run in the traversal of an era; true if the run goes on. -/
def step (era : Nat) : Act σ Bool := do
  let s ← session
  if s.halted then return false
  match s.node with
  | none => return false
  | some n =>
    let line := (s.traversalOf era).cursor.line
    if n.lines.length ≤ line then finishNode hear
    else
      passConditionals n
      if ← passDecisions hear n then return false
      -- another traversal may have been restored meanwhile, so this one is looked up by its era
      if ((← session).traversalOf era).cursor.line ≠ line then return true
      match at? n.lines line with
      | none => throw .noElement
      | some text => takeLine hear era n text

/-- Takes steps until the run comes to a rest. -/
def steps (era : Nat) : Nat → Act σ Unit
  | 0 => throw .endless
  | k + 1 => do
    if ← step hear era then steps era k

/-- Runs on until the session needs the reader. Blocks that have been entered already are not
entered once more. -/
def run (seen : List Visit) : Act σ Unit := do
  edit fun s => { s with seen }
  steps hear (← session).era (← get).setup.patience

end Act

end VisualNovel
