import VisualNovel.Script.Draft
import VisualNovel.Variable.Store
import VisualNovel.Text.Line

/-!
# Compiling a node from the text of a script

The text is searched for the node and the node is compiled up to its closing marker. Declarations
are carried out wherever they stand, up to there; what follows is not read.
-/

namespace VisualNovel.Script

/-- A fault and the number of the line at which it was found. -/
structure LocatedFault where
  /-- What is wrong. -/
  fault : ScriptFault
  /-- The number of the line, if the fault is in a line. -/
  line : Option Nat
  deriving DecidableEq, Repr

/-- The outcome of compiling: the node, nothing if the text does not define it, or a fault. -/
abbrev Outcome := Except LocatedFault (Option Node)

/-- Compiles from the line with the given number on, with the draft of the node if it is open. -/
def compileFrom (name context : String) : Nat → Option Draft → Variables → List (List Char) →
    Outcome × Variables
  | _, none, vs, [] => (.ok none, vs)
  | _, some _, vs, [] => (.error ⟨.unclosedNode name, none⟩, vs)
  | n, draft?, vs, raw :: rest =>
    match Line.read? raw with
    | none => compileFrom name context (n + 1) draft? vs rest
    | some (.declaration x v) => compileFrom name context (n + 1) draft? (vs.set x v) rest
    | some line =>
      match draft? with
      | none =>
        let opened := match line with
          | .node header _ =>
            if header = name.toList then some ⟨name, context, [], [], none, [], []⟩ else none
          | _ => none
        compileFrom name context (n + 1) opened vs rest
      | some draft =>
        if line = .endNode then
          match draft.close with
          | .ok node => (.ok (some node), vs)
          | .error f => (.error ⟨f, some n⟩, vs)
        else match draft.take line with
          | .ok draft => compileFrom name context (n + 1) (some draft) vs rest
          | .error f => (.error ⟨f, some n⟩, vs)

/-- Compiles the node of a name from the text of a script. -/
def compile (source name context : String) (vs : Variables) : Outcome × Variables :=
  compileFrom name context 1 none vs (Text.lines source.toList)

end VisualNovel.Script
