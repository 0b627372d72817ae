import VisualNovel.Event.Bus
import VisualNovel.Event.Kinds
import VisualNovel.Failure

/-!
# Scenarios on an event bus

Named handlers with scripted reactions try out a bus. A handler notes every message it gets; the
first few times it also acts, and an action that fails ends its reaction.
-/

namespace VisualNovel.Scenario

/-- A message: a topic with any data. -/
structure Message where
  /-- What it is about. -/
  topic : Topic
  /-- What it carries. -/
  data : List (String × Json)
  deriving Inhabited

/-- What can be done with a bus. -/
inductive Action where
  | subscribe (topic : Topic) (handler : String) (weak : Bool)
  | unsubscribe (topic : Topic) (handler : String)
  /-- The owner of a handler lets go of it. -/
  | drop (handler : String)
  /-- Removes the registrations for one topic or for all. -/
  | clear (topic : Option Topic)
  | has (topic : Topic)
  | publish (m : Message)
  /-- Publishes a message and looks up a member in it. -/
  | publishAndGet (m : Message) (key : String)
  | fail (message : String)
  deriving Inhabited

/-- What an action answers. -/
inductive Answer where
  | nothing
  | flag (b : Bool)
  | message (m : Message)
  | value (v : Json)
  deriving Inhabited

/-- How a handler reacts. -/
structure Role where
  /-- How many more times the handler acts. -/
  times : Nat := 1
  /-- What it does. -/
  actions : List Action := []
  deriving Inhabited

/-- A bus with its handlers and what has happened. -/
structure World where
  /-- The bus. -/
  bus : Bus Topic Message String := {}
  /-- The handlers by name. -/
  roles : List (String × Role) := []
  /-- Who has got which message, oldest first. -/
  notes : List (String × Message) := []
  /-- What has been remarked, oldest first. -/
  remarks : List Remark := []
  deriving Inhabited

/-- Something done in such a world. -/
abbrev Doing (α : Type) := EStateM Failure World α

/-- Changes the bus. -/
def editBus (f : Bus Topic Message String → Bus Topic Message String) : Doing Unit :=
  modify fun w => { w with bus := f w.bus }

/-- The name of a handler whose owner still holds it. -/
def owned (handler : String) : Doing String := do
  if (← get).bus.owned.contains handler then return handler
  else throw (.unknownKey handler)

/-- The names that a message cannot carry anything under. -/
def reservedNames : List String := ["self", "event_type"]

/-- Sends a message, unless it carries something under a reserved name. -/
def send (publish : Message → Doing Unit) (m : Message) : Doing Unit :=
  match m.data.find? fun e => reservedNames.contains e.1 with
  | some e => throw (.reservedName e.1)
  | none => publish m

/-- Does what an action says; `publish` says what becomes of a message. -/
def Action.run (publish : Message → Doing Unit) : Action → Doing Answer
  | .subscribe topic handler weak => do
    let handler ← owned handler
    editBus fun b => b.subscribe topic handler weak
    return .nothing
  | .unsubscribe topic handler => do
    let handler ← owned handler
    editBus fun b => b.unsubscribe topic handler
    return .nothing
  | .drop handler => do
    let handler ← owned handler
    editBus fun b => b.drop handler
    return .nothing
  | .clear (some topic) => do
    editBus fun b => b.clear topic
    return .nothing
  | .clear none => do
    editBus Bus.clearAll
    return .nothing
  | .has topic => do return .flag ((← get).bus.hasSubscribers topic)
  | .publish m => do
    send publish m
    return .message m
  | .publishAndGet m key => do
    send publish m
    match Json.member? key m.data with
    | some v => return .value v
    | none => throw (.unknownKey key)
  | .fail message => throw (.raised message)

/-- Does what actions say, one after the other. -/
def runAll (publish : Message → Doing Unit) : List Action → Doing Unit
  | [] => pure ()
  | a :: rest => do
    let _ ← a.run publish
    runAll publish rest

/-- Lets a message wait for its turn. -/
def enqueue (m : Message) : Doing Unit := editBus fun b => b.enqueue m

/-- One time less to act. -/
def Role.spend (r : Role) : Role := { r with times := r.times - 1 }

/-- What the named handler does with a message. -/
def react (name : String) (m : Message) : Doing Unit := do
  modify fun w => { w with notes := w.notes ++ [(name, m)] }
  match (← get).roles.lookup name with
  | none => pure ()
  | some role =>
    if 0 < role.times then
      modify fun w => { w with
        roles := w.roles.map fun e => if e.1 = name then (e.1, e.2.spend) else e }
      runAll enqueue role.actions

/-- Calls a handler; a failure is remarked. -/
def call (name : String) (m : Message) (w : World) : World :=
  match react name m w with
  | .ok _ w => w
  | .error _ w => { w with remarks := w.remarks ++ [m.topic.handlerFailed] }

/-- The bus in its world. -/
def hall : Hall World Topic Message String where
  bus := World.bus
  setBus b w := { w with bus := b }
  topic := Message.topic
  call := call

/-- Publishes a message and delivers all that wait, unless a delivery is under way. -/
def publish (patience : Nat) (m : Message) : Doing Unit := do
  match hall.publish patience m (← get) with
  | some w => set w
  | none => throw .endless

/-- A world whose handlers are held by their owners. -/
def World.ofRoles (roles : List (String × Role)) : World :=
  { bus := { owned := roles.map Prod.fst }, roles }

end VisualNovel.Scenario
