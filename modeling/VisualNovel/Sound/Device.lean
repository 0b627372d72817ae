import VisualNovel.Event.Kinds
import VisualNovel.Files.Media
import VisualNovel.Files.Model
import VisualNovel.Number.Quantity

/-!
# The sound device

The device plays one track of music and sounds on channels. It can be lost and come back at any
time. Everything that is asked of it is noted.
-/

namespace VisualNovel

/-- What is asked of the device. -/
inductive DeviceCall where
  | init (frequency size channels buffer : Quantity)
  | setChannelCount (n : Int)
  | quit
  | pauseChannels
  | resumeChannels
  | setMusicVolume (volume : Float)
  | loadMusic (file : String)
  | startMusic (loops fade : Quantity)
  | stopMusic
  | fadeMusic (duration : Quantity)
  | pauseMusic
  | resumeMusic
  | loadSound (file : String)
  | findChannel (force : Bool)
  | setChannelVolume (volume : Float)
  | startSound (file : String)
  deriving DecidableEq, Repr, Inhabited

/-- The state of the device. -/
structure Device where
  /-- The device is in operation. -/
  ready : Bool := true
  /-- The device is busy with music. -/
  playing : Bool := false
  /-- A channel is free for a sound. -/
  free : Bool := true
  /-- The device cannot be put into operation. -/
  broken : Bool := false
  deriving DecidableEq, Repr, Inhabited

namespace Device

/-- What the device says if it cannot be put into operation. -/
def brokenMessage : String := "no device"

end Device

/-- What a sound system does for others to see. -/
inductive SoundNotice where
  | device (c : DeviceCall)
  | event (e : Event)
  deriving DecidableEq, Repr, Inhabited

end VisualNovel
