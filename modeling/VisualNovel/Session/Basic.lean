import VisualNovel.Calendar
import VisualNovel.Command
import VisualNovel.Files.Model
import VisualNovel.Script.Folder
import VisualNovel.Settings
import VisualNovel.Traversal.Motion
import VisualNovel.Typewriter

/-!
# Sessions

A session walks through the nodes of its scripts until it needs the reader: at a line to present or
at a decision. This module holds the state of a session and the stage on which it plays: its
surroundings that do not change, the files, what has been asked of the helpers, what has been
remarked, and a part that belongs to the host.

Whatever acts on the stage is an `Act`. An act that fails leaves the stage as it is at that point.
A `Listener` is what the host does with the events that a session tells; every act of a session
that tells events takes one.
-/

namespace VisualNovel

/-- What a session is waiting for. -/
inductive Phase where
  /-- Nothing: no session is under way. -/
  | idle
  /-- The reader to go on from the line on screen. -/
  | presenting
  /-- The reader to choose. -/
  | choosing
  /-- The host to resume it. -/
  | paused
  deriving DecidableEq, Repr, Inhabited

/-- The name of a phase in logs. -/
def Phase.label : Phase → String
  | idle => "IDLE"
  | presenting => "PRESENTING"
  | choosing => "AWAITING_DECISION"
  | paused => "PAUSED"

/-- The state of a session. -/
structure Session where
  /-- The settings of the reader. -/
  settings : Settings := {}
  /-- The variables of the scripts. -/
  vars : Variables := .empty
  /-- How presented lines advance. -/
  mode : PlaybackMode := .normal
  /-- What the session is waiting for. -/
  phase : Phase := .idle
  /-- Where the session is. -/
  traversal : Traversal := {}
  /-- Traversals that have been replaced by restored ones, oldest first. A run that was under way
  goes on in its own one. -/
  retired : List Traversal := []
  /-- The nodes that have been entered, innermost last. -/
  nodes : List Node := []
  /-- Stacks of nodes that have been replaced by those of a new start or of a restored session,
  oldest first. -/
  retiredNodes : List (List Node) := []
  /-- The line on screen. -/
  line : Option Spoken := none
  /-- Who spoke last. -/
  speaker : String := ""
  /-- What a paused session was waiting for. -/
  pausedFrom : Option Phase := none
  /-- A node could not be loaded, so nothing goes on before the next start. -/
  halted : Bool := false
  /-- The text on screen while it is revealed. -/
  typewriter : Option Typewriter := none
  /-- The time since the text was complete, while lines advance on their own. -/
  autoTimer : Float := 0
  /-- The time since the text was presented, while lines are skipped. -/
  skipTimer : Float := 0
  /-- The blocks that have been entered since the session last went on. -/
  seen : List Visit := []
  /-- The place of a restored line that is in the transcript already: how many nodes are on the
  stack, and the line. -/
  unrecorded : Option (Nat × Int) := none
  deriving DecidableEq, Repr, Inhabited

namespace Session

/-- The innermost node. -/
def node (s : Session) : Option Node := s.nodes.getLast?

/-- A session is under way. -/
def isActive (s : Session) : Bool := s.phase ≠ .idle

/-- How many traversals have been replaced so far. -/
def era (s : Session) : Nat := s.retired.length

/-- The traversal of an era. -/
def traversalOf (s : Session) (era : Nat) : Traversal := s.retired[era]?.getD s.traversal

/-- Changes the traversal of an era. -/
def modifyTraversalOf (s : Session) (era : Nat) (f : Traversal → Traversal) : Session :=
  if era < s.retired.length then { s with retired := s.retired.modify era f }
  else { s with traversal := f s.traversal }

/-- How many stacks of nodes have been replaced so far. -/
def nodesEra (s : Session) : Nat := s.retiredNodes.length

/-- The stack of nodes of an era. -/
def nodesOf (s : Session) (era : Nat) : List Node := s.retiredNodes[era]?.getD s.nodes

/-- The session with another stack of nodes. -/
def replaceNodes (s : Session) (nodes : List Node) : Session :=
  { s with nodes, retiredNodes := s.retiredNodes ++ [s.nodes] }

/-- Changes the cursor. -/
def withCursor (s : Session) (c : Cursor) : Session :=
  { s with traversal := { s.traversal with cursor := c } }

/-- Nothing is on screen and nothing is awaited. -/
def cleared (s : Session) : Session := { s with phase := .idle, typewriter := none, line := none }

/-- Nothing goes on before the next start. -/
def halt (s : Session) : Session := { s.cleared with halted := true }

/-- Changes the innermost node. -/
def modifyNode (s : Session) (f : Node → Node) : Session :=
  { s with nodes := modifyLast f s.nodes }

/-- The line on screen; an idle session has none. -/
def lineOnScreen (s : Session) : Option Spoken :=
  if s.phase = .idle then none else s.line

/-- The decision that has been opened last. -/
def openDecision? (s : Session) : Option Decision := do
  at? (← s.node).decisions (← s.traversal.cursor.decisions.getLast?)

/-- The session waits for a choice, or did so when it was paused. -/
def isChoosing (s : Session) : Bool :=
  s.phase = .choosing || (s.phase = .paused && s.pausedFrom = some .choosing)

/-- The labels of the options among which the reader has to choose. -/
def labels (s : Session) : List String :=
  if s.isChoosing then (s.openDecision?.map Decision.labels).getD [] else []

end Session

/-- What happens on a stage for others to see. -/
inductive Notice where
  /-- A helper is asked to do something. -/
  | call (c : Call)
  /-- An event is delivered. -/
  | event (e : Event)
  /-- The host reacts to an event. -/
  | reaction (name : String)
  /-- A command leads to another node. -/
  | goTo (node : String)
  deriving DecidableEq, Repr, Inhabited

/-- The surroundings of a session. -/
structure Setup where
  /-- The folder of the scripts. -/
  scripts : Files.Path
  /-- The helpers that are there. -/
  helpers : List Helper
  /-- The time of day. -/
  now : Moment
  /-- How many steps a run may take, and how many deliveries a publication. -/
  patience : Nat
  deriving DecidableEq, Repr, Inhabited

/-- The stage on which a session plays. The host's part has the type `σ`. -/
structure Stage (σ : Type) where
  /-- The surroundings. -/
  setup : Setup
  /-- The files below the working folder. -/
  files : Files.Tree
  /-- The session. -/
  session : Session
  /-- What has happened, oldest first. -/
  notices : List Notice
  /-- What has been remarked, oldest first. -/
  remarks : List Remark
  /-- The host's part. -/
  host : σ
  deriving DecidableEq, Inhabited

/-- Something that acts on a stage. -/
abbrev Act (σ α : Type) := EStateM Failure (Stage σ) α

/-- What becomes of an event. -/
abbrev Listener (σ : Type) := Event → Act σ Unit

namespace Act

variable {σ : Type}

/-- The session as it is now. -/
def session : Act σ Session := do return (← get).session

/-- Changes the session. -/
def edit (f : Session → Session) : Act σ Unit :=
  modify fun st => { st with session := f st.session }

/-- Changes the traversal of the session. -/
def editTraversal (f : Traversal → Traversal) : Act σ Unit :=
  edit fun s => { s with traversal := f s.traversal }

/-- Lets others see something. -/
def notice (n : Notice) : Act σ Unit := modify fun st => { st with notices := st.notices ++ [n] }

/-- Adds remarks. -/
def remarkAll (rs : List Remark) : Act σ Unit :=
  modify fun st => { st with remarks := st.remarks ++ rs }

/-- Adds a remark. -/
def remark (severity : Severity) (source message : String) : Act σ Unit :=
  remarkAll [⟨severity, source, message⟩]

/-- Asks a helper to do something, if the helper is there. -/
def ask (c : Call) : Act σ Unit := do
  if (← get).setup.helpers.contains c.helper then notice (.call c)

/-- Changes the files. -/
def setFiles (t : Files.Tree) : Act σ Unit := modify fun st => { st with files := t }

/-- A value, or the failure to get it. -/
def ofExcept {α : Type} : Except Failure α → Act σ α
  | .ok a => pure a
  | .error f => throw f

/-- Does something that may fail, and catches the failures of a class. -/
def attempt {α : Type} (caught : Failure → Bool) (x : Act σ α) : Act σ (Except Failure α) :=
  tryCatch (do return .ok (← x)) fun f => if caught f then return .error f else throw f

/-- The value of an operation on files, whose effects last even if it fails. -/
def ofOutcome {α : Type} (o : Files.Outcome α) : Act σ α := do
  setFiles o.tree
  remarkAll o.remarks
  ofExcept o.result

end Act

end VisualNovel
