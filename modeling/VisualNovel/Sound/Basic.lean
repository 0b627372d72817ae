import VisualNovel.Sound.Device

/-!
# The sound system

Music and sound effects are known by name and looked up in two folders. Volumes are set for all
sound and for each of the two categories.
-/

namespace VisualNovel

/-- The player of background music. Only one track plays at a time. -/
structure MusicPlayer where
  /-- The name by which the track was asked for, or the empty text. -/
  track : String := ""
  /-- The file of the track, or the empty text. -/
  file : String := ""
  /-- The volume. -/
  volume : Float := 1
  /-- The track is paused. -/
  paused : Bool := false
  deriving DecidableEq, Repr, Inhabited

/-- A sound system with its device and its files. -/
structure SoundSystem where
  /-- The device. -/
  device : Device := {}
  /-- The player of background music. -/
  player : MusicPlayer := {}
  /-- The folder of music. -/
  musicFolder : Files.Path
  /-- The folder of sound effects. -/
  effectFolder : Files.Path
  /-- Events are told. -/
  announces : Bool := true
  /-- The volume of all sound. -/
  master : Float := 1
  /-- The volume of music. -/
  musicVolume : Float := 1
  /-- The volume of sound effects. -/
  effectVolume : Float := 1
  /-- There is no sound. -/
  muted : Bool := false
  /-- The files of the sounds that have been loaded. -/
  loaded : List String := []
  /-- The system has found the device in operation. -/
  initialized : Bool := false
  /-- The files below the working folder. -/
  files : Files.Tree := .empty
  /-- What has been done, oldest first. -/
  notices : List SoundNotice := []
  /-- What has been remarked, oldest first. -/
  remarks : List Remark := []
  deriving DecidableEq, Inhabited

/-- Something that a sound system does. -/
abbrev Sounding (α : Type) := EStateM Failure SoundSystem α

namespace SoundSystem

/-- The volume of a category. An unknown one has the full volume. -/
def categoryVolume (s : SoundSystem) (category : String) : Float :=
  if category = "bgm" then s.musicVolume
  else if category = "sfx" then s.effectVolume
  else 1

/-- The volume at which a category is heard. -/
def effectiveVolume (s : SoundSystem) (category : String) : Float :=
  if s.muted then 0 else s.master * s.categoryVolume category

/-- Music is heard. -/
def isPlaying (s : SoundSystem) : Bool := s.device.ready && s.device.playing

/-- The ends of the names of sound files, in the order in which they are tried. -/
def extensions : List String := [".ogg", ".wav", ".mp3"]

/-- The file of a name in a folder. A name with an extension of its own is tried as it is first. -/
def locate (s : SoundSystem) (folder : Files.Path) (name : String) :
    Except Files.Fault (Option Files.Path) :=
  let exact := folder.join name
  let others := extensions.map fun e => folder.join (name ++ e)
  s.files.first? (if exact.hasSuffix then exact :: others else others)

end SoundSystem

namespace Sounding

/-- The file of a name in a folder. -/
def find (folder : Files.Path) (name : String) : Sounding (Option Files.Path) := do
  match (← get).locate folder name with
  | .ok path => return path
  | .error f => throw (.file f)

/-- Asks the device to do something. -/
def request (c : DeviceCall) : Sounding Unit :=
  modify fun s => { s with notices := s.notices ++ [.device c] }

/-- Changes the device. -/
def editDevice (f : Device → Device) : Sounding Unit :=
  modify fun s => { s with device := f s.device }

/-- Changes the player. -/
def editPlayer (f : MusicPlayer → MusicPlayer) : Sounding Unit :=
  modify fun s => { s with player := f s.player }

/-- Tells an event, if the system does so. -/
def announce (e : Event) : Sounding Unit :=
  modify fun s => if s.announces then { s with notices := s.notices ++ [.event e] } else s

/-- Adds a remark. -/
def remark (severity : Severity) (source message : String) : Sounding Unit :=
  modify fun s => { s with remarks := s.remarks ++ [⟨severity, source, message⟩] }

end Sounding

end VisualNovel
