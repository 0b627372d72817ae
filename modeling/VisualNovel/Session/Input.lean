import VisualNovel.Session.Run

/-!
# What hosts and readers do with a session

A host starts a session and lets time pass; the reader goes on, chooses, and changes how lines
advance.
-/

namespace VisualNovel

/-- The session before its first node. The transcript and the completed nodes are kept. -/
def Session.fresh (s : Session) : Session :=
  { s.cleared.replaceNodes [] with
    halted := false
    pausedFrom := none
    speaker := ""
    traversal := { s.traversal with frames := [], cursor := {}, history := [] } }

/-- The session takes account of the time that passes: a text is being typed, or lines advance on
their own. -/
def Session.isTimed (s : Session) : Bool :=
  match s.phase, s.typewriter with
  | .presenting, some w => !w.complete || s.mode ≠ .normal
  | _, _ => false

namespace Act

variable {σ : Type} (hear : Listener σ)

/-- Enters a node and runs until the session needs the reader; false if the node is complete or
has no lines. -/
def findNode (name context : String) : Act σ Bool := do
  if ← openNode hear name context then
    run hear []
    return true
  else return false

/-- Starts anew at a node; false if the session is over at once. -/
def start (name context : String) : Act σ Bool := do
  edit Session.fresh
  if ← findNode hear name context then
    hear (.autoSaveRequested name)
    return true
  else
    endSession hear
    return false

/-- The innermost node, which has to exist. -/
def currentNode : Act σ Node := do
  match (← session).node with
  | some n => return n
  | none => throw .nowhere

/-- Chooses an option of the decision that is waiting; false if none is. -/
def makeDecision (index : Int) : Act σ Bool := do
  let s ← session
  if s.phase ≠ .choosing then
    remark .warning Session.remarkSource
      s!"make_decision({index}) called with no decision active"
    return false
  match s.openDecision? with
  | none => throw .noElement
  | some d => match at? d.options index with
    | none => throw (.noOption index d.options.length)
    | some o =>
      editTraversal fun t =>
        { t with cursor := { t.cursor with
            choices := t.cursor.choices ++ [index], line := o.start } }
      ask .hideDecisions
      hear (.decisionMade index o.label)
      let s ← session
      if s.mode = .fastForward && !s.settings.skipAfterChoices then setMode hear .normal
      let n ← currentNode
      run hear [n.visit (← session).nodes.length .decision d.index]
      return true

/-- Goes on from the line on screen. -/
def advance : Act σ Unit := do
  edit fun s => { s with autoTimer := 0, skipTimer := 0 }
  edit fun s =>
    s.withCursor { s.traversal.cursor with line := s.traversal.cursor.line + 1 }
  run hear []

/-- Lets the typewriter work for a time. -/
def type (w : Typewriter) (dt : Float) : Act σ Unit := do
  let w := w.tick dt
  edit fun s => { s with typewriter := some w }
  if w.complete then tellCompletion hear
  refresh

/-- Lets time pass for a line that is complete. -/
def wait (dt : Float) : Act σ Unit := do
  match (← session).mode with
  | .normal => pure ()
  | .auto =>
    edit fun s => { s with autoTimer := s.autoTimer + dt }
    let s ← session
    if s.readingTime ≤ s.autoTimer then advance hear
  | .fastForward =>
    edit fun s => { s with skipTimer := s.skipTimer + dt }
    let s ← session
    if s.settings.fastForwardTime ≤ s.skipTimer then advance hear

/-- Lets time pass. -/
def update (dt : Float) : Act σ Unit := do
  let s ← session
  match s.phase, s.typewriter with
  | .presenting, some w => if w.complete then wait hear dt else type hear w dt
  | _, _ => pure ()

/-- The reader wants to go on. The first time this ends an automatic advance, then it completes the
text, and then it leads to the next line. -/
def advanceInput : Act σ Unit := do
  let s ← session
  match s.phase, s.typewriter with
  | .presenting, some w =>
    if s.mode ≠ .normal then setMode hear .normal
    else if w.complete then advance hear
    else showWhole hear
  | _, _ => pure ()

/-- Lines start or stop to advance on their own. -/
def toggleAuto : Act σ Unit := do
  setMode hear (if (← session).mode = .auto then .normal else .auto)

/-- Lines start or stop to be skipped. -/
def toggleFastForward : Act σ Unit := do
  if (← session).mode = .fastForward then setMode hear .normal
  else
    setMode hear .fastForward
    showWhole hear

/-- Pauses a session that waits for the reader. -/
def pause : Act σ Unit :=
  edit fun s =>
    if s.phase = .presenting || s.phase = .choosing then
      { s with pausedFrom := some s.phase, phase := .paused }
    else s

/-- Goes on with a paused session. -/
def resume : Act σ Unit :=
  edit fun s =>
    match s.phase, s.pausedFrom with
    | .paused, some phase => { s with phase, pausedFrom := none }
    | _, _ => s

end Act

end VisualNovel
