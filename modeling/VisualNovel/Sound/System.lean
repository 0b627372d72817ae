import VisualNovel.Settings
import VisualNovel.Sound.Music

/-!
# Using the sound system

The system is put into operation, told what to play by name, and told how loud.
-/

namespace VisualNovel.Sounding

/-- What remarks about the system are filed under. -/
def systemSource : String := "engine.audio.manager"

/-- The number of channels for sounds. -/
def channelCount : Int := 16

/-- Puts the system into operation. -/
def init (frequency size channels buffer : Quantity) : Sounding Unit := do
  let device := (← get).device
  if device.ready then modify fun s => { s with initialized := true }
  else
    request (.init frequency size channels buffer)
    if device.broken then
      remark .error systemSource s!"Failed to initialize audio system: {Device.brokenMessage}"
    else
      editDevice fun d => { d with ready := true }
      request (.setChannelCount channelCount)
      modify fun s => { s with initialized := true }

/-- Puts the system out of operation. -/
def quit : Sounding Unit := do
  request .quit
  editDevice fun d => { d with ready := false }
  modify fun s => { s with initialized := false }

/-- Gives the player the volume at which music is to be heard. -/
def updateMusicVolume : Sounding Unit := do setPlayerVolume ((← get).effectiveVolume "bgm")

/-- Sets the volume of all sound. -/
def setMaster (volume : Quantity) : Sounding Unit := do
  modify fun s => { s with master := volume.clamped }
  updateMusicVolume

/-- Sets the volume of a category. Other categories than the two are ignored. -/
def setCategory (category : String) (volume : Quantity) : Sounding Unit := do
  if category = "bgm" then
    modify fun s => { s with musicVolume := volume.clamped }
    updateMusicVolume
  else if category = "sfx" then
    modify fun s => { s with effectVolume := volume.clamped }

/-- Turns all sound off or on. -/
def setMuted (muted : Bool) : Sounding Unit := do
  modify fun s => { s with muted }
  updateMusicVolume

/-- Takes over the volumes of settings. -/
def applySettings (s : Settings) : Sounding Unit := do
  setCategory "bgm" (.real s.musicVolume)
  setCategory "sfx" (.real s.soundVolume)
  setMuted s.muteAll

/-- Plays music by name; true if it is playing afterwards. Unknown music is ignored. -/
def playMusic (name : String) (loop : Bool) (fade : Quantity) : Sounding Bool := do
  let folder := (← get).musicFolder
  match ← find folder name with
  | none =>
    remark .warning systemSource s!"Music '{name}' could not be found in {folder}"
    return false
  | some path =>
    if ← play name path.toString (.whole (if loop then -1 else 0)) fade then
      announce (.musicStarted name path.toString)
      return true
    else return false

/-- Stops the music. -/
def stopMusic (fade : Quantity) : Sounding Unit := do
  stop fade
  announce .musicStopped

/-- Pauses music and sounds. -/
def pauseAll : Sounding Unit := do
  pauseMusic
  if (← get).initialized then request .pauseChannels

/-- Goes on with music and sounds. -/
def resumeAll : Sounding Unit := do
  resumeMusic
  if (← get).initialized then request .resumeChannels

/-- Loads the sound of a file, unless it has been loaded before; false if that is not possible. -/
def loadSound (file : String) : Sounding Bool := do
  let s ← get
  if !s.initialized then return false
  if s.loaded.contains file then return true
  request (.loadSound file)
  if Files.Media.isGood s.files (.ofString file) then
    modify fun s => { s with loaded := s.loaded ++ [file] }
    return true
  else
    remark .error systemSource s!"Failed to load sound {file}: {Files.Media.badMessage}"
    return false

/-- Plays a sound effect by name; true if there is a channel for it. Unknown ones are ignored. -/
def playEffect (name : String) (volume : Quantity) : Sounding Bool := do
  let folder := (← get).effectFolder
  match ← find folder name with
  | none =>
    remark .warning systemSource s!"Sound '{name}' could not be found in {folder}"
    return false
  | some path =>
    let file := path.toString
    if !(← loadSound file) then return false
    request (.findChannel true)
    if !(← get).device.free then return false
    let some x := volume.toReal? | throw .tooLarge
    request (.setChannelVolume ((← get).effectiveVolume "sfx" * x))
    request (.startSound file)
    announce (.effectPlayed name file)
    return true

end VisualNovel.Sounding
