import VisualNovel.Sound.Basic

/-!
# Playing music

A track that is playing already goes on when it is asked for once more, so a scene can be rebuilt
without a break in its music.
-/

namespace VisualNovel.Sounding

/-- What remarks about the player are filed under. -/
def playerSource : String := "engine.audio.music"

/-- Sets the volume of the player. -/
def setPlayerVolume (volume : Float) : Sounding Unit := do
  let volume := (Quantity.real volume).clamped
  editPlayer fun p => { p with volume }
  if (← get).device.ready then request (.setMusicVolume volume)

/-- Loads a file into the device and starts it; false if the file cannot be played. -/
def startFile (file : String) (loops fade : Quantity) : Sounding Bool := do
  request (.loadMusic file)
  if !Files.Media.isGood (← get).files (.ofString file) then return false
  editDevice fun d => { d with playing := false }
  request (.setMusicVolume (← get).player.volume)
  request (.startMusic loops fade)
  editDevice fun d => { d with playing := true }
  return true

/-- Plays a track from a file; true if the track is playing afterwards. -/
def play (track file : String) (loops fade : Quantity) : Sounding Bool := do
  let s ← get
  if !s.device.ready then
    remark .warning playerSource s!"Mixer not initialized, cannot play '{track}'"
    return false
  if track = s.player.track && !s.player.paused && s.isPlaying then return true
  if ← startFile file loops fade then
    editPlayer fun p => { p with track, file, paused := false }
    return true
  else
    remark .error playerSource
      s!"Failed to play BGM '{track}' from {file}: {Files.Media.badMessage}"
    return false

/-- Stops the track, at once or by fading it out. -/
def stop (fade : Quantity) : Sounding Unit := do
  editPlayer fun p => { p with track := "", file := "", paused := false }
  if (← get).device.ready then
    request (if fade.isPositive then .fadeMusic fade else .stopMusic)
    editDevice fun d => { d with playing := false }

/-- Pauses the track. -/
def pauseMusic : Sounding Unit := do
  let s ← get
  if s.player.track ≠ "" && s.device.ready then
    request .pauseMusic
    editPlayer fun p => { p with paused := true }

/-- Goes on with a paused track. -/
def resumeMusic : Sounding Unit := do
  let s ← get
  if s.player.paused && s.device.ready then
    request .resumeMusic
    editPlayer fun p => { p with paused := false }

end VisualNovel.Sounding
