import VisualNovel.Event.Bus
import VisualNovel.Files.Action
import VisualNovel.Save.Folder

/-!
# Hosts

A host owns a session, the bus on which the session tells its events, a folder of save slots, and
hooks: actions that the host takes while an event is delivered. All that a host can do is an
`Action`. Together they are a `Production`. A host that begins with a new production in the middle
of an event lets the old one finish what it was doing.
-/

namespace VisualNovel

namespace Host

/-- What a host can do with a folder of save slots. -/
inductive SlotAction where
  | setThumbnail (data : String)
  | autoSave (thumbnail : Option String)
  | list (type : SaveType)
  | capacity (type : SaveType)
  | path (type : SaveType) (slot : Int)
  /-- Saves a traversal given as data, or that of the session. -/
  | save (type : SaveType) (slot : Int) (thumbnail : Option String) (given : Option Json)
  | load (type : SaveType) (slot : Int) (checked : Bool)
  | read (type : SaveType) (slot : Int) (checked : Bool)
  | delete (type : SaveType) (slot : Int)
  | validate (type : SaveType) (slot : Int)
  deriving Inhabited

/-- What a folder is asked for, as failures name it. -/
def SlotAction.label : SlotAction → String
  | setThumbnail _ => "current_screenshot"
  | autoSave _ => "auto_save"
  | list _ => "list_slots"
  | capacity _ => "slot_count"
  | path _ _ => "slot_path"
  | save _ _ _ _ => "save"
  | load _ _ _ => "load"
  | read _ _ _ => "read"
  | delete _ _ => "delete"
  | validate _ _ => "validate_save"

/-- What a host can do. -/
inductive Action where
  | start (node context : String)
  | findNode (node context : String)
  /-- Completes the text on screen and goes on. -/
  | advance
  /-- Advances while lines are presented, a number of times at most. -/
  | play (limit : Nat)
  | update (dt : Quantity)
  | decide (index : Int)
  | advanceInput
  | toggleAuto
  | toggleFastForward
  | pause
  | resume
  /-- Stores the session as text, which is kept under a name. -/
  | serialize (name : String)
  | restore (stored : String)
  /-- Restores the session from a text that was kept under a name. -/
  | restoreKept (name : String)
  | setVariable (name : String) (value : Json)
  | assignSetting (name : String) (value : Json)
  /-- Gives a text as it is shown. -/
  | wording (text : String)
  | transcript (limit : Option Int)
  /-- Begins with a new session, a new bus, a new folder of slots and unused hooks. -/
  | renew
  | fail (message : String)
  | onFiles (a : Files.Action)
  /-- Takes another folder of save slots. -/
  | takeFolder (k : SaveFolder)
  | onSlots (a : SlotAction)
  deriving Inhabited

/-- What an action answers. -/
inductive Answer where
  | nothing
  | flag (b : Bool)
  | count (n : Int)
  | text (s : String)
  | save (s : Option Save)
  | saves (ss : List (Option Save))
  | files (a : Files.Answer)
  deriving Inhabited

/-- An action that a host takes while an event is delivered. -/
structure Hook where
  /-- The events that it reacts to. -/
  topic : Topic
  /-- The name of the action for the log. -/
  name : String
  /-- What it does. -/
  action : Action
  /-- How many more times it does so. -/
  times : Nat
  deriving Inhabited

/-- Who listens on the bus of a host. -/
inductive Handler where
  /-- Notes every event of the session and of save slots. -/
  | recorder
  /-- The folder of save slots with a number. -/
  | folder (number : Nat)
  /-- The hook with a number. -/
  | hook (number : Nat)
  deriving DecidableEq, Repr, Inhabited

/-- What a session with its surroundings is made of. -/
structure Blueprint where
  /-- The settings of a new session. -/
  settings : Settings
  /-- The variables of a new session. -/
  vars : Variables
  /-- The folder of save slots, if there is one. -/
  folder : Option SaveFolder
  /-- The hooks, unused. -/
  hooks : List Hook
  deriving Inhabited

end Host

open Host in
/-- A session with its bus, its hooks and its folder of save slots. -/
structure Host.Production where
  /-- The session. -/
  session : Session
  /-- The bus. -/
  bus : Bus Topic Event Handler
  /-- The hooks. -/
  hooks : List Hook
  /-- The folder of save slots. -/
  folder : Option SaveFolder
  /-- The number of that folder. -/
  folderNumber : Nat
  deriving Inhabited

open Host in
/-- A host, without the session on stage. -/
structure Host where
  /-- What new sessions are made of. -/
  blueprint : Blueprint
  /-- The bus. -/
  bus : Bus Topic Event Handler := {}
  /-- The hooks. -/
  hooks : List Hook := []
  /-- The folder of save slots. -/
  folder : Option SaveFolder := none
  /-- The number of that folder. -/
  folderNumber : Nat := 0
  /-- Texts of stored sessions by name, latest first. -/
  kept : List (String × String) := []
  /-- The number of the production on stage. -/
  number : Nat := 0
  /-- The number of the latest production, which is the one that the host acts on. -/
  latest : Nat := 0
  /-- The productions that are off the stage for the moment, by number. -/
  offstage : List (Nat × Production) := []
  deriving Inhabited

namespace Host

/-- Changes the host. -/
def edit (f : Host → Host) : Act Host Unit := modify fun st => { st with host := f st.host }

/-- Changes the bus of the host. -/
def editBus (f : Bus Topic Event Handler → Bus Topic Event Handler) : Act Host Unit :=
  edit fun h => { h with bus := f h.bus }

/-- The production on stage. -/
def onStage (st : Stage Host) : Production :=
  ⟨st.session, st.host.bus, st.host.hooks, st.host.folder, st.host.folderNumber⟩

/-- Brings the production with a number on stage; the one that is there leaves it. -/
def bringOn (number : Nat) (st : Stage Host) : Stage Host :=
  if number = st.host.number then st
  else match st.host.offstage.lookup number with
    | none => st
    | some p =>
      let others := st.host.offstage.filter fun q => q.1 ≠ number
      { st with
        session := p.session
        host := { st.host with
          bus := p.bus
          hooks := p.hooks
          folder := p.folder
          folderNumber := p.folderNumber
          number
          offstage := (st.host.number, onStage st) :: others } }

/-- Brings the latest production on stage. -/
def bringLatest (st : Stage Host) : Stage Host := bringOn st.host.latest st

/-- Forgets all productions but the latest one, when nothing is under way. -/
def settle (st : Stage Host) : Stage Host :=
  let st := bringLatest st
  { st with host := { st.host with offstage := [] } }

/-- Takes a folder of save slots in place of the present one. A folder that tells events also saves
automatically when a session asks for it. -/
def takeFolder (k : SaveFolder) : Act Host Unit := do
  let c := (← get).files.makeFolders k.path
  Act.setFiles c.tree
  Act.ofExcept c.result
  edit fun h =>
    let number := h.folderNumber + 1
    let bus := (h.bus.drop (.folder h.folderNumber)).adopt (.folder number)
    { h with
      folder := some k
      folderNumber := number
      bus := if k.announces then bus.subscribe .autoSaveRequested (.folder number) true else bus }

/-- A bus with its recorder. -/
def recorded : Bus Topic Event Handler :=
  (Topic.ofSession ++ Topic.ofSaves).foldl (fun b t => b.subscribe t .recorder false) {}

/-- Registers hooks, numbered from `i`. -/
def hookUp (b : Bus Topic Event Handler) : Nat → List Hook → Bus Topic Event Handler
  | _, [] => b
  | i, h :: hs => hookUp (b.subscribe h.topic (.hook i) false) (i + 1) hs

/-- Puts a new production on stage, without a folder and with its hooks not yet registered. The
folder of the old one is let go of. -/
def replaceProduction (st : Stage Host) : Stage Host :=
  let h := st.host
  let old := { onStage st with bus := h.bus.drop (.folder h.folderNumber) }
  { st with
    session := { settings := h.blueprint.settings, vars := h.blueprint.vars }
    host := { h with
      bus := recorded
      hooks := h.blueprint.hooks
      folder := none
      number := h.latest + 1
      latest := h.latest + 1
      offstage := (h.number, old) :: h.offstage } }

/-- Begins with a production as in the blueprint. -/
def renew : Act Host Unit := do
  modify replaceProduction
  let blueprint := (← get).host.blueprint
  match blueprint.folder with
  | some k => takeFolder k
  | none => pure ()
  editBus fun b => hookUp b 0 blueprint.hooks

/-- The folder of save slots, which has to be there if something is asked of it. -/
def theFolder (asked : String) : Act Host SaveFolder := do
  match (← get).host.folder with
  | some k => return k
  | none => throw (.noFolder asked)

end Host

end VisualNovel
