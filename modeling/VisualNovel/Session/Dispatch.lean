import VisualNovel.Session.Basic

/-!
# Carrying out commands

A known command is carried out by a helper or leads to another node, and is told as an event. In a
replay, which rebuilds a scene from its history, nothing is told and no node is entered.
-/

namespace VisualNovel

/-- What remarks about commands are filed under. -/
def Command.remarkSource : String := "dialogue.commands"

namespace Act

variable {σ : Type} (hear : Listener σ) (goTo : String → Act σ Unit)

/-- A listener that notes every event. -/
def noting : Listener σ := fun e => notice (.event e)

/-- A listener that ignores every event. -/
def ignoring : Listener σ := fun _ => pure ()

/-- Brings about an effect. -/
def bringAbout : Effect → Act σ Unit
  | .none => pure ()
  | .incomplete message => remark .warning Command.remarkSource message
  | .call c => ask c
  | .goTo node => goTo node

/-- Carries out the command of a line; false if the line has no known command. -/
def dispatch (line : String) (replay : Bool) : Act σ Bool := do
  match Command.ofLine? line with
  | none => return false
  | some c => match Directive.ofName? c.name with
    | none => return false
    | some d =>
      bringAbout goTo (d.effect c.argument replay)
      if !replay then hear (.commandExecuted c.name c.argument)
      return true

/-- Carries out the commands of a history once more. -/
def replay : List String → Act σ Unit
  | [] => pure ()
  | line :: rest => do
    let _ ← dispatch hear goTo line true
    replay rest

end Act

end VisualNovel
