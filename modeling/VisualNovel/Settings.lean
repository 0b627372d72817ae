import VisualNovel.Files.Model
import VisualNovel.Schema.Assign
import VisualNovel.Schema.Scalar
import VisualNovel.Json.Printer

/-!
# Settings of the reader

How fast text is shown, in which colours, and how loud the sound is.
-/

namespace VisualNovel

/-- The settings of the reader. -/
structure Settings where
  /-- Skip lines that have not been read before. -/
  skipUnseenText : Bool := false
  /-- Keep skipping after a decision. -/
  skipAfterChoices : Bool := false
  /-- Skip transitions. -/
  skipTransitions : Bool := false
  /-- Characters revealed in a second. -/
  textSpeed : Int := 40
  /-- Factor of the time a line stays when lines advance on their own. -/
  autoForwardTime : Float := 0.5
  /-- Reading time of a character when lines advance on their own. -/
  timePerCharacter : Float := 0.1
  /-- Seconds between lines while skipping. -/
  fastForwardTime : Float := 0.25
  /-- Colour of spoken lines. -/
  dialogueColor : String := "FFFFFFFF"
  /-- Colour of narration. -/
  internalColor : String := "A8C8FFFF"
  /-- Colour of emphasised text. -/
  emphasisColor : String := "FFD966FF"
  /-- Volume of music. -/
  musicVolume : Float := 0.5
  /-- Volume of sound effects. -/
  soundVolume : Float := 0.5
  /-- No sound at all. -/
  muteAll : Bool := false
  deriving DecidableEq, Repr, Inhabited

namespace Settings

/-- The seconds that a character takes to be revealed. -/
def secondsPerCharacter (s : Settings) : Except Failure Float :=
  let speed := Number.ofInt s.textSpeed
  if speed.isFinite then .ok (1.0 / speed) else .error .tooLarge

/-- The settings as members of stored data. -/
def members (s : Settings) : List (String × Json) :=
  [("skip_unseen_text", .bool s.skipUnseenText),
    ("skip_after_choices", .bool s.skipAfterChoices),
    ("skip_transitions", .bool s.skipTransitions),
    ("text_speed", .int s.textSpeed),
    ("auto_forward_time", .real s.autoForwardTime),
    ("time_per_character", .real s.timePerCharacter),
    ("fast_forward_time", .real s.fastForwardTime),
    ("dialogue_color", .str s.dialogueColor),
    ("internal_color", .str s.internalColor),
    ("emphasis_color", .str s.emphasisColor),
    ("music_volume", .real s.musicVolume),
    ("sound_volume", .real s.soundVolume),
    ("mute_all", .bool s.muteAll)]

/-- The settings as stored data. -/
def toJson (s : Settings) : Json := .obj s.members

end Settings

namespace Schema

/-- A real number from zero on. -/
def nonNegative (v : Json) : Checked Float := (real v).require .belowLeast fun x => 0 ≤ x

/-- A real number from zero to one; whether it is at most one is looked at first. -/
def volume (v : Json) : Checked Float :=
  ((real v).require .aboveGreatest fun x => x ≤ 1).require .belowLeast fun x => 0 ≤ x

/-- A positive integer. -/
def positive (v : Json) : Checked Int := (int v).require .notAbove fun n => 0 < n

/-- A hexadecimal digit. -/
def isHexDigit (c : Char) : Bool := (Json.hexValue? c).isSome

/-- A colour: eight hexadecimal digits. -/
def color (v : Json) : Checked String :=
  (str v).require .patternMismatch fun s => s.length = 8 && s.toList.all isHexDigit

/-- The names of the settings. -/
def settingNames : List String :=
  ["skip_unseen_text", "skip_after_choices", "skip_transitions", "text_speed",
    "auto_forward_time", "time_per_character", "fast_forward_time", "dialogue_color",
    "internal_color", "emphasis_color", "music_volume", "sound_volume", "mute_all"]

/-- The check of settings. -/
def settings : Json → Checked Settings := model settingNames fun ms =>
  Settings.mk <$> optional "skip_unseen_text" false bool ms <*>
    optional "skip_after_choices" false bool ms <*> optional "skip_transitions" false bool ms <*>
    optional "text_speed" 40 positive ms <*> optional "auto_forward_time" 0.5 nonNegative ms <*>
    optional "time_per_character" 0.1 nonNegative ms <*>
    optional "fast_forward_time" 0.25 nonNegative ms <*>
    optional "dialogue_color" "FFFFFFFF" color ms <*>
    optional "internal_color" "A8C8FFFF" color ms <*>
    optional "emphasis_color" "FFD966FF" color ms <*> optional "music_volume" 0.5 volume ms <*>
    optional "sound_volume" 0.5 volume ms <*> optional "mute_all" false bool ms

end Schema

/-- How settings are kept in a file. -/
def Settings.model : Files.Model Settings := ⟨"ConfigData", Schema.settings, Settings.toJson⟩

/-- The file of the settings in a folder. -/
def Settings.path (folder : Files.Path) : Files.Path := folder.child "config.json"

/-- What settings derive from their members. -/
def Settings.derivedNames : List String := ["seconds_per_character"]

/-- Assigns a setting. -/
def Settings.assign (s : Settings) (name : String) (v : Json) : Except Failure Settings :=
  Schema.assign Settings.model.name Schema.settingNames Settings.derivedNames name s
    (Schema.settings (.obj (Json.setMember name v s.members)))

end VisualNovel
