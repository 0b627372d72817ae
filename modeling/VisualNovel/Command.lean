import VisualNovel.Event.Kinds
import VisualNovel.Text.Split
import VisualNovel.Text.Blank

/-!
# Commands

A content line in square brackets is a command: a name and perhaps an argument after an equals
sign. Eight names are known. A command is carried out by the camera, the illustrations, the sound
or by going to another node. When a history is replayed to rebuild a scene, going to a node and
sound effects are left out.
-/

namespace VisualNovel

/-- A command. -/
structure Command where
  /-- What to do. -/
  name : String
  /-- With what; most commands need none. -/
  argument : String := ""
  deriving DecidableEq, Repr, Inhabited

/-- What a session asks of those who show and play things. -/
inductive Call where
  | moveCamera (target : String)
  | showPlayer
  | hidePlayer
  | showIllustration (name : String)
  | hideIllustration
  | playMusic (name : String)
  | stopMusic
  | playEffect (name : String)
  | present (speaker text color : String) (showNameBox : Bool)
  | updateText (text : String)
  | showDecisions (labels : List String)
  | hideDecisions
  deriving DecidableEq, Repr, Inhabited

/-- Those who may be there to show and play things. -/
inductive Helper where
  | camera | illustrations | sound | textPresenter | decisionPresenter
  deriving DecidableEq, Repr, Inhabited

/-- Who does what is asked. -/
def Call.helper : Call → Helper
  | moveCamera _ | showPlayer | hidePlayer => .camera
  | showIllustration _ | hideIllustration => .illustrations
  | playMusic _ | stopMusic | playEffect _ => .sound
  | present _ _ _ _ | updateText _ => .textPresenter
  | showDecisions _ | hideDecisions => .decisionPresenter

namespace Command

/-- A line is a command if it is in square brackets. -/
def isCommandLine (s : List Char) : Bool :=
  2 ≤ s.length && s.head? = some '[' && s.getLast? = some ']'

/-- The command between the brackets. -/
def ofBody (body : List Char) : Command :=
  match Text.breakAt '=' body with
  | some (name, argument) =>
    ⟨String.ofList (Text.trim name), String.ofList (Text.trim argument)⟩
  | none => ⟨String.ofList body, ""⟩

/-- The command of a line. -/
def ofLine? (line : String) : Option Command :=
  if isCommandLine line.toList then some (ofBody (Text.trim line.toList.tail.dropLast)) else none

/-- The line of a command. -/
def source (c : Command) : String :=
  if c.argument.isEmpty then s!"[{c.name}]" else s!"[{c.name}={c.argument}]"

end Command

/-- What a known command means. -/
inductive Directive where
  | showPlayer | hidePlayer | showIllustration | hideIllustration | goTo | playMusic | stopMusic
  | playEffect
  deriving DecidableEq, Repr, Inhabited

/-- What comes of a directive. -/
inductive Effect where
  /-- Nothing happens. -/
  | none
  /-- The argument is missing. -/
  | incomplete (message : String)
  /-- A helper is asked to do something. -/
  | call (c : Call)
  /-- Another node is entered. -/
  | goTo (node : String)
  deriving DecidableEq, Repr, Inhabited

namespace Directive

/-- The directives in the order in which they are listed. -/
def all : List Directive :=
  [showPlayer, hidePlayer, showIllustration, hideIllustration, goTo, playMusic, stopMusic,
    playEffect]

/-- The name of a directive. -/
def name : Directive → String
  | showPlayer => "ShowPlayer"
  | hidePlayer => "HidePlayer"
  | showIllustration => "CG"
  | hideIllustration => "HideCG"
  | goTo => "GoTo"
  | playMusic => "Music"
  | stopMusic => "StopMusic"
  | playEffect => "Sfx"

/-- The directive of a name. -/
def ofName? (s : String) : Option Directive := all.find? fun d => d.name = s

/-- What comes of a directive with an argument, in play or in a replay. -/
def effect (d : Directive) (argument : String) (replay : Bool) : Effect :=
  match d with
  | showPlayer => .call .showPlayer
  | hidePlayer => .call .hidePlayer
  | showIllustration =>
    if argument.isEmpty then .incomplete "CG command without an image name"
    else .call (.showIllustration argument)
  | hideIllustration => .call .hideIllustration
  | goTo =>
    if replay then .none
    else if argument.isEmpty then .incomplete "GoTo command without a node name"
    else .goTo argument
  | playMusic =>
    if argument.isEmpty then .incomplete "Music command without a track name"
    else .call (.playMusic argument)
  | stopMusic => .call .stopMusic
  | playEffect =>
    if replay || argument.isEmpty then .none else .call (.playEffect argument)

end Directive

end VisualNovel
