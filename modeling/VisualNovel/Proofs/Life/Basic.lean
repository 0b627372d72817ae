import VisualNovel.Proofs.Life.Input
import VisualNovel.Proofs.Tour.Basic
import VisualNovel.Proofs.Variable.Distinct

/-!
# Lives of sessions

The life of a session begins with settings and variables and nothing else, and goes on with one
input after the other. A session that rests takes inputs; a session that runs takes steps until it
rests. What happens in each node on the stack is remembered from the moment the node is entered to
the moment it is taken off the stack.

## Main definitions

* `Stay`: a node on the stack, with what has happened in it;
* `Session.deeds`: the deeds of the step that a session takes next;
* `Life`: the sessions that there can be, running or at rest, and the stays of their nodes.

That sessions which perform inputs live in this way is shown later.
-/

namespace VisualNovel

/-- The node as it has been compiled. -/
def Node.rewound (n : Node) : Node := { n with line := 0 }

/-- A node on the stack, from the moment it is entered. -/
structure Stay where
  /-- The node as it has been compiled. -/
  node : Node
  /-- What has happened in it so far. -/
  deeds : List Deed
  deriving DecidableEq, Repr

namespace Stay

/-- A node has been entered. -/
def begin (n : Node) : Stay := ⟨n.rewound, []⟩

/-- Something happens in the node. -/
def note (deeds : List Deed) (y : Stay) : Stay := { y with deeds := y.deeds ++ deeds }

/-- The stays after a step: the deeds of the step belong to the innermost one; nodes that have been
taken off the stack are forgotten, and further nodes have been entered. -/
def follow (s s' : Session) (deeds : List Deed) (ys : List Stay) : List Stay :=
  (modifyLast (note deeds) ys).take s'.nodes.length ++ (s'.nodes.drop s.nodes.length).map begin

end Stay

namespace Session

/-- The deeds of the step that the session takes next. -/
def deeds (s : Session) : List Deed :=
  match s.node with
  | none => []
  | some n =>
    if s.halted || n.lines.length ≤ s.traversal.cursor.line then []
    else n.deeds s.vars s.nodes.length s.seen s.traversal.cursor

/-- The deed of choosing an option, if there is such an option. -/
def choice? (s : Session) (index : Int) : Option Deed := do
  let d ← s.openDecision?
  return .chose d (← at? d.options index)

end Session

/-- The stays when the run after an input begins. -/
def Input.stays (s s' : Session) (ys : List Stay) : Input → List Stay
  | start _ _ => s'.nodes.map Stay.begin
  | decide index => modifyLast (Stay.note (s.choice? index).toList) ys
  | _ => ys

/-- The sessions that there can be over a shelf of scripts, whether they run, and the stays of the
nodes on their stacks, innermost last. -/
inductive Life {σ : Type} (o : Observer σ) (w : Shelf) : Bool → Session → List Stay → Prop where
  /-- A session begins with settings and variables. -/
  | fresh (settings : Settings) {vars : Variables} (hvars : vars.Distinct) :
      Life o w false { settings, vars } []
  /-- An input that is not followed by a run. -/
  | rests {s : Session} {ys : List Stay} (h : Life o w false s ys) {st st' : Stage σ}
      (hw : st.shelf = w) (hs : st.session = s) {i : Input}
      (hi : i.prepare o.hear st = .ok none st') :
      Life o w false st'.session (ys.take st'.session.nodes.length)
  /-- An input that fails at once. -/
  | fails {s : Session} {ys : List Stay} (h : Life o w false s ys) {st st' : Stage σ}
      (hw : st.shelf = w) (hs : st.session = s) {i : Input} {f : Failure}
      (hi : i.prepare o.hear st = .error f st') :
      Life o w false st'.session (ys.take st'.session.nodes.length)
  /-- An input after which the session runs on. -/
  | begins {s : Session} {ys : List Stay} (h : Life o w false s ys) {st st' : Stage σ}
      (hw : st.shelf = w) (hs : st.session = s) {i : Input} {seen : List Visit}
      (hi : i.prepare o.hear st = .ok (some seen) st') :
      Life o w true { st'.session with seen } (i.stays s st'.session ys)
  /-- A step of a run. -/
  | steps {s : Session} {ys : List Stay} (h : Life o w true s ys) {st st' : Stage σ}
      (hw : st.shelf = w) (hs : st.session = s) {goesOn : Bool}
      (hstep : Act.step o.hear s.era st = .ok goesOn st') :
      Life o w goesOn st'.session (Stay.follow s st'.session s.deeds ys)

end VisualNovel
