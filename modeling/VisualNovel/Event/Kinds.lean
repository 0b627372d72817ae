import VisualNovel.Json.Basic
import VisualNovel.Remark

/-!
# Events

What a session, its sound and its save slots tell the rest of the program.
-/

namespace VisualNovel

/-- How presented lines advance. -/
inductive PlaybackMode where
  | normal
  | auto
  | fastForward
  deriving DecidableEq, Repr, Inhabited

/-- The kinds of save slots. -/
inductive SaveType where
  | auto
  | quick
  | manual
  deriving DecidableEq, Repr, Inhabited

/-- An event. -/
inductive Event where
  | nodeEntered (node : String)
  | nodeCompleted (node : String)
  | linePresented (node : String) (line : Int) (speaker text : String)
  | textCompleted
  | decisionRequested (labels : List String)
  | decisionMade (index : Int) (label : String)
  | commandExecuted (name argument : String)
  | playbackChanged (mode : PlaybackMode)
  | autoSaveRequested (node : String)
  | sessionEnded
  | loadFailed (node error : String)
  | saveCompleted (type : SaveType) (slot : Int)
  | saveFailed (type : SaveType) (slot : Int) (error : String)
  | slotLoaded (type : SaveType) (slot : Int)
  | slotLoadFailed (type : SaveType) (slot : Int) (error : String)
  | musicStarted (name file : String)
  | musicStopped
  | effectPlayed (name file : String)
  deriving DecidableEq, Repr, Inhabited

/-- What handlers can listen to. -/
inductive Topic where
  | nodeEntered
  | nodeCompleted
  | linePresented
  | textCompleted
  | decisionRequested
  | decisionMade
  | commandExecuted
  | playbackChanged
  | autoSaveRequested
  | sessionEnded
  | loadFailed
  | saveCompleted
  | saveFailed
  | slotLoaded
  | slotLoadFailed
  | musicStarted
  | musicStopped
  | effectPlayed
  deriving DecidableEq, Repr, Inhabited

/-- The topic of an event. -/
def Event.topic : Event → Topic
  | nodeEntered _ => .nodeEntered
  | nodeCompleted _ => .nodeCompleted
  | linePresented _ _ _ _ => .linePresented
  | textCompleted => .textCompleted
  | decisionRequested _ => .decisionRequested
  | decisionMade _ _ => .decisionMade
  | commandExecuted _ _ => .commandExecuted
  | playbackChanged _ => .playbackChanged
  | autoSaveRequested _ => .autoSaveRequested
  | sessionEnded => .sessionEnded
  | loadFailed _ _ => .loadFailed
  | saveCompleted _ _ => .saveCompleted
  | saveFailed _ _ _ => .saveFailed
  | slotLoaded _ _ => .slotLoaded
  | slotLoadFailed _ _ _ => .slotLoadFailed
  | musicStarted _ _ => .musicStarted
  | musicStopped => .musicStopped
  | effectPlayed _ _ => .effectPlayed

namespace Topic

/-- The topics of a session. -/
def ofSession : List Topic :=
  [nodeEntered, nodeCompleted, linePresented, textCompleted, decisionRequested, decisionMade,
    commandExecuted, playbackChanged, autoSaveRequested, sessionEnded, loadFailed]

/-- The topics of save slots. -/
def ofSaves : List Topic := [saveCompleted, saveFailed, slotLoaded, slotLoadFailed]

/-- The topics of sound. -/
def ofSound : List Topic := [musicStarted, musicStopped, effectPlayed]

/-- The name of a topic in logs. -/
def label : Topic → String
  | nodeEntered => "DialogueEvent.NODE_ENTERED"
  | nodeCompleted => "DialogueEvent.NODE_COMPLETED"
  | linePresented => "DialogueEvent.LINE_PRESENTED"
  | textCompleted => "DialogueEvent.TEXT_COMPLETED"
  | decisionRequested => "DialogueEvent.DECISION_REQUESTED"
  | decisionMade => "DialogueEvent.DECISION_MADE"
  | commandExecuted => "DialogueEvent.COMMAND_EXECUTED"
  | playbackChanged => "DialogueEvent.PLAYBACK_CHANGED"
  | autoSaveRequested => "DialogueEvent.AUTO_SAVE_REQUESTED"
  | sessionEnded => "DialogueEvent.SESSION_ENDED"
  | loadFailed => "DialogueEvent.LOAD_FAILED"
  | saveCompleted => "SaveEvent.SAVE_COMPLETED"
  | saveFailed => "SaveEvent.SAVE_FAILED"
  | slotLoaded => "SaveEvent.LOAD_COMPLETED"
  | slotLoadFailed => "SaveEvent.LOAD_FAILED"
  | musicStarted => "AudioEvent.BGM_STARTED"
  | musicStopped => "AudioEvent.BGM_STOPPED"
  | effectPlayed => "AudioEvent.SFX_PLAYED"

/-- All topics. -/
def all : List Topic := ofSession ++ ofSaves ++ ofSound

/-- The topic of a name. -/
def ofLabel? (s : String) : Option Topic := all.find? fun t => t.label = s

/-- The remark that a handler of an event has failed. -/
def handlerFailed (t : Topic) : Remark :=
  ⟨.error, "engine.core.events", s!"Error in event handler for {t.label}"⟩

end Topic

/-- The name of a mode in logs. -/
def PlaybackMode.label : PlaybackMode → String
  | normal => "NORMAL"
  | auto => "AUTO"
  | fastForward => "FAST_FORWARD"

/-- The name of a kind of slots in logs. -/
def SaveType.label : SaveType → String
  | auto => "AUTO"
  | quick => "QUICK"
  | manual => "MANUAL"

/-- What an event carries besides its topic. -/
def Event.data : Event → List (String × Json)
  | nodeEntered node | nodeCompleted node | autoSaveRequested node => [("node", .str node)]
  | linePresented node line speaker text =>
    [("node", .str node), ("line", .int line), ("speaker", .str speaker), ("text", .str text)]
  | textCompleted | sessionEnded | musicStopped => []
  | decisionRequested labels => [("labels", .strs labels)]
  | decisionMade index label => [("index", .int index), ("label", .str label)]
  | commandExecuted name argument => [("name", .str name), ("argument", .str argument)]
  | playbackChanged mode => [("mode", .str s!"PlaybackMode.{mode.label}")]
  | loadFailed node error => [("node", .str node), ("error", .str error)]
  | saveCompleted type slot | slotLoaded type slot =>
    [("save_type", .str s!"SaveType.{type.label}"), ("slot", .int slot)]
  | saveFailed type slot error | slotLoadFailed type slot error =>
    [("save_type", .str s!"SaveType.{type.label}"), ("slot", .int slot), ("error", .str error)]
  | musicStarted name file | effectPlayed name file => [("name", .str name), ("file", .str file)]

end VisualNovel
