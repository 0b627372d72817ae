import VisualNovel.Session.Wording

/-!
# Presenting lines

A line that needs the reader is put on screen and revealed by a typewriter. The reader may let it
type, complete it at once, or skip ahead, in which case it is complete from the start.
-/

namespace VisualNovel

/-- What remarks about a session are filed under. -/
def Session.remarkSource : String := "dialogue.runtime"

/-- The speaker whom the camera does not look for. -/
def Session.player : String := "Player"

/-- The seconds for which a line stays on screen when lines advance on their own: so many for each
character that is shown. -/
def Session.readingTime (s : Session) : Float :=
  match s.typewriter with
  | none => 0
  | some w =>
    let shown := (Text.dropTags .angle w.text.toList).length
    s.settings.timePerCharacter * Number.ofInt shown * s.settings.autoForwardTime

namespace Act

variable {σ : Type} (hear : Listener σ)

/-- Shows how much of the line has been revealed. -/
def refresh : Act σ Unit := do
  match (← session).typewriter with
  | some w => ask (.updateText w.visibleText)
  | none => pure ()

/-- The line on screen has just been completed. -/
def tellCompletion : Act σ Unit := do
  edit fun s => { s with autoTimer := 0 }
  hear .textCompleted

/-- Reveals the whole line on screen at once. -/
def completeText : Act σ Unit := do
  match (← session).typewriter with
  | none => pure ()
  | some w =>
    if !w.complete then
      edit fun s => { s with typewriter := some w.writeAll }
      tellCompletion hear

/-- Reveals the whole line on screen, and shows it, unless it is complete. -/
def showWhole : Act σ Unit := do
  match (← session).typewriter with
  | none => pure ()
  | some w =>
    if !w.complete then
      completeText hear
      refresh

/-- Notes who speaks. The camera looks for a new speaker other than the player. -/
def turnTo (speaker : String) : Act σ Unit := do
  if speaker ≠ "" && speaker ≠ (← session).speaker then
    edit fun s => { s with speaker }
    if speaker ≠ Session.player then ask (.moveCamera speaker)

/-- Adds a line to the transcript, unless it is the restored one that is there already. -/
def record (line : Spoken) : Act σ Unit := do
  let s ← session
  if s.unrecorded ≠ some (s.nodes.length, s.traversal.cursor.line) then
    editTraversal fun t => { t with transcript := t.transcript ++ [line] }
  edit fun s => { s with unrecorded := none }

/-- Puts a line of a node on screen. -/
def present (n : Node) (line : Spoken) : Act σ Unit := do
  let text := (← session).wording line.text
  let at_ := (← session).traversal.cursor.line
  turnTo line.speaker
  record ⟨line.speaker, text⟩
  edit fun s =>
    { s.modifyNode (fun n => { n with line := at_ }) with
      line := some line, autoTimer := 0, skipTimer := 0, phase := .presenting }
  let settings := (← session).settings
  let pace ← ofExcept settings.secondsPerCharacter
  edit fun s => { s with typewriter := some (.start text pace) }
  let named := line.speaker ≠ ""
  ask (.present line.speaker text
    (if named then settings.dialogueColor else settings.internalColor) named)
  hear (.linePresented n.name at_ line.speaker text)
  if (← session).mode = .fastForward then completeText hear
  refresh

/-- Changes how lines advance. -/
def setMode (mode : PlaybackMode) : Act σ Unit := do
  edit fun s => { s with autoTimer := 0, skipTimer := 0 }
  if (← session).mode ≠ mode then
    edit fun s => { s with mode }
    hear (.playbackChanged mode)

end Act

end VisualNovel
