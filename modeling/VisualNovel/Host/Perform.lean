import VisualNovel.Host.Basic
import VisualNovel.Transcript

/-!
# What hosts do

A host performs actions. The events that come of an action are delivered one after the other to the
recorder, to the folder of save slots and to the hooks. An action that is taken while an event is
delivered may tell further events, which wait until that delivery is over. It acts on the latest
production; only then does the one that told the event go on.
-/

namespace VisualNovel.Host

variable (hear : Listener Host)

/-- Completes the text on screen and goes on. -/
def advance : Act Host Unit := do
  Act.completeText hear
  Act.advanceInput hear

/-- Advances while lines are presented, from a count on; less than zero if the limit is reached. -/
def play : Nat → Int → Act Host Int
  | 0, _ => return -1
  | k + 1, count => do
    if (← Act.session).phase ≠ .presenting then return count
    advance hear
    play k (count + 1)

/-- Lets a time pass that a host gives. A session that takes no account of time does not look at
it. -/
def passTime (dt : Quantity) : Act Host Unit := do
  match dt.toReal? with
  | some x => Act.update hear x
  | none => if (← Act.session).isTimed then throw .tooLarge

/-- The traversal that data holds. -/
def givenTraversal : Option Json → Act Host (Option Traversal)
  | none => return none
  | some v => do return some (← Act.ofExcept (Files.ofChecked (Schema.traversal v)))

/-- Does something with files. -/
def onFiles (a : Files.Action) : Act Host Files.Answer := do
  let (result, tree) := a.run (← get).files
  Act.setFiles tree
  Act.ofExcept result

/-- Does something with a folder of save slots. -/
def onSlots (k : SaveFolder) : SlotAction → Act Host Answer
  | .setThumbnail data => do
    edit fun h => { h with folder := some { k with thumbnail := data } }
    return .nothing
  | .autoSave thumbnail => return .save (← Act.autoSave hear k thumbnail)
  | .list type => return .saves (← Act.listSaves k type)
  | .capacity type => return .count type.capacity
  | .path type slot => return .text (← ofExcept (k.slotPath type slot)).toString
  | .save type slot thumbnail given => do
    let t ← givenTraversal given
    return .save (← Act.save hear k type slot thumbnail t)
  | .load type slot checked => return .save (← Act.load hear k type slot checked)
  | .read type slot checked => return .save (← Act.readSave k type slot checked)
  | .delete type slot => return .flag (← Act.deleteSave k type slot)
  | .validate type slot => return .flag (k.isValid (← get).files type slot)

/-- Performs an action. -/
def perform : Action → Act Host Answer
  | .start node context => return .flag (← Act.start hear node context)
  | .findNode node context => return .flag (← Act.findNode hear node context)
  | .advance => do
    advance hear
    return .nothing
  | .play limit => return .count (← play hear limit 0)
  | .update dt => do
    passTime hear dt
    return .nothing
  | .decide index => return .flag (← Act.makeDecision hear index)
  | .advanceInput => do
    Act.advanceInput hear
    return .nothing
  | .toggleAuto => do
    Act.toggleAuto hear
    return .nothing
  | .toggleFastForward => do
    Act.toggleFastForward hear
    return .nothing
  | .pause => do
    Act.pause
    return .nothing
  | .resume => do
    Act.resume
    return .nothing
  | .serialize name => do
    let stored := (← Act.session).stored
    edit fun h => { h with kept := (name, stored) :: h.kept }
    return .text stored
  | .restore stored => do
    Act.restore hear stored
    return .nothing
  | .restoreKept name => do
    match (← get).host.kept.lookup name with
    | some stored =>
      Act.restore hear stored
      return .nothing
    | none => throw (.unknownKey name)
  | .setVariable name value => do
    match (← Act.session).vars.setHost name value with
    | .ok vs =>
      Act.edit fun s => { s with vars := vs }
      return .nothing
    | .error f => throw (.value f)
  | .assignSetting name value => do
    let settings ← Act.ofExcept ((← Act.session).settings.assign name value)
    Act.edit fun s => { s with settings }
    return .nothing
  | .wording text => return .text ((← Act.session).wording text)
  | .transcript limit => return .text (Transcript.format (← Act.session).traversal.transcript limit)
  | .renew => do
    renew
    return .nothing
  | .fail message => throw (.raised message)
  | .onFiles a => return .files (← onFiles a)
  | .takeFolder k => do
    takeFolder k
    return .nothing
  | .onSlots a => do onSlots hear (← theFolder a.label) a

/-- One time less to act. -/
def Hook.spend (h : Hook) : Hook := { h with times := h.times - 1 }

/-- What a handler does with an event. -/
def react : Handler → Event → Act Host Unit
  | .recorder, e => Act.notice (.event e)
  | .folder _, _ => do
    let _ ← Act.autoSave hear (← theFolder "auto_save") none
  | .hook i, _ => do
    match (← get).host.hooks[i]? with
    | none => pure ()
    | some hook =>
      if 0 < hook.times then
        edit fun h => { h with hooks := h.hooks.modify i Hook.spend }
        Act.notice (.reaction hook.name)
        modify bringLatest
        let _ ← perform hear hook.action

/-- Calls a handler of the production on stage, which is there again afterwards. A failure is
remarked. -/
def call (handler : Handler) (e : Event) (st : Stage Host) : Stage Host :=
  let number := st.host.number
  match react hear handler e st with
  | .ok _ st => bringOn number st
  | .error _ st => bringOn number { st with remarks := st.remarks ++ [e.topic.handlerFailed] }

/-- The bus of a host on its stage. -/
def hall : Hall (Stage Host) Topic Event Handler where
  bus st := st.host.bus
  setBus b st := { st with host := { st.host with bus := b } }
  topic := Event.topic
  call := call hear

/-- Publishes an event on the bus on stage, and delivers all that wait unless a delivery is under
way there. Handlers that act on a newer production publish on its bus, in deliveries within this
one; how many there may be within each other is limited. -/
def publish : Nat → Listener Host
  | 0 => fun _ => throw .endless
  | depth + 1 => fun e => do
    let st ← get
    match (hall (publish depth)).publish st.setup.patience e st with
    | some st => set st
    | none => throw .endless

/-- Performs an action whose events are delivered at once. -/
def act (a : Action) : Act Host Answer := fun st =>
  match perform (publish st.setup.patience) a st with
  | .ok answer st => .ok answer (settle st)
  | .error f st => .error f (settle st)

/-- A stage with a new session. -/
def raise (setup : Setup) (files : Files.Tree) (blueprint : Blueprint) :
    Except Failure (Stage Host) :=
  match renew ⟨setup, files, {}, [], [], { blueprint }⟩ with
  | .ok _ st => .ok (settle st)
  | .error f _ => .error f

end VisualNovel.Host
