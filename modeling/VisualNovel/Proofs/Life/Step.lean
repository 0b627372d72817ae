import VisualNovel.Proofs.Life.Observer
import VisualNovel.Proofs.Motion.Passing

/-!
# The steps of a session

A step of a run is described once and for all by what it makes of a session. Everything else that
happens on the stage while a step is taken, such as calls of helpers, remarks and what observers do,
has no bearing on where the session goes.

## Main definitions

* `Command.target?`: the node to which a line leads;
* `Session.Step`: the sessions to which a step may lead;
* `Session.Breaks`: the failures with which a step may end, and what is left of the session;
* `Act.AtLine`: what is required of a step at the line of the cursor.

## Main results

* `Act.step_rule`: how a step ends, by its parts;
* `Act.step_ends`: a step on a stage is a step of its session, or it fails in one of these ways.
-/

namespace VisualNovel

/-- The node to which the command of a line leads, if it leads to one. -/
def Command.target? (text : String) : Option String := do
  let c ← ofLine? text
  let d ← Directive.ofName? c.name
  match d.effect c.argument false with
  | .goTo name => some name
  | _ => none

namespace Session

variable (s : Session)

/-- The session after declarations have been read. -/
def withVars (vars : Variables) : Session := { s with vars }

/-- The session after a node has been put on the stack, or replaced if it is on top already. -/
def entered (n : Node) : Session :=
  if s.traversal.top.any fun f => f.node = n.name then
    s.modifyNode fun _ => { n with line := s.traversal.cursor.line }
  else
    { s with
      traversal := s.traversal.enter n.name n.context
      nodes := modifyLast (fun m => { m with line := s.traversal.cursor.line }) s.nodes ++ [n] }

/-- The session after the innermost node has been taken off the stack. -/
def finished (f : Frame) : Session :=
  { s with
    traversal := (s.traversal.complete f.node).comeBack
    nodes := s.nodes.dropLast }

/-- The session after the blocks of a node have been passed over. -/
def passed (m : Motion) (c : Cursor) : Session := { s.withCursor c with seen := m.seen }

/-- The session when the reader is asked to choose. -/
def choosing : Session := { s with phase := .choosing }

/-- The session at the next line. -/
def atNextLine : Session := s.withCursor (s.traversal.cursor.moveTo (s.traversal.cursor.line + 1))

/-- The session with a further command in its history. -/
def noted (text : String) : Session :=
  { s with traversal := { s.traversal with history := s.traversal.history ++ [text] } }

/-- The session with a further line in its transcript, unless the line is there already. -/
def recorded (line : Spoken) : Session :=
  { s with
    traversal :=
      if s.unrecorded ≠ some (s.nodes.length, s.traversal.cursor.line) then
        { s.traversal with transcript := s.traversal.transcript ++ [line] }
      else s.traversal
    unrecorded := none }

/-- The session with a line of a node on screen. -/
def presented (line : Spoken) : Session :=
  { (s.recorded ⟨line.speaker, s.wording line.text⟩).modifyNode
      (fun n => { n with line := s.traversal.cursor.line }) with
    line := some line
    phase := .presenting }

/-- The traversal of the latest era is the present one. -/
@[simp]
theorem traversalOf_era : s.traversalOf s.retired.length = s.traversal := by
  simp [traversalOf]

/-- Changing the traversal of the latest era changes the present one. -/
@[simp]
theorem modifyTraversalOf_era (f : Traversal → Traversal) :
    s.modifyTraversalOf s.retired.length f = { s with traversal := f s.traversal } := by
  simp [modifyTraversalOf]

namespace Alike

variable {s s' : Session} (h : s.Alike s')

include h

/-- What is on show does not matter for entering a node. -/
theorem entered (n : Node) : (s.entered n).Alike (s'.entered n) := by
  obtain ⟨_, _, _, _, _, rfl⟩ := h
  by_cases htop : s.traversal.top.any fun f => f.node = n.name <;>
    simp only [Session.entered, htop, if_true, if_false, Bool.false_eq_true] <;>
    exact ⟨_, _, _, _, _, rfl⟩

/-- What is on show does not matter for what is remembered of blocks. -/
theorem remembering (seen : List Visit) : Alike { s with seen } { s' with seen } := by
  obtain ⟨_, _, _, _, _, rfl⟩ := h
  exact ⟨_, _, _, _, _, rfl⟩

/-- What is on show does not matter for the nodes. -/
theorem nodes : s'.nodes = s.nodes := by
  obtain ⟨_, _, _, _, _, rfl⟩ := h
  rfl

/-- What is on show does not matter for recording a line. -/
theorem recorded (line : Spoken) : (s.recorded line).Alike (s'.recorded line) := by
  obtain ⟨_, _, _, _, _, rfl⟩ := h
  exact ⟨_, _, _, _, _, rfl⟩

end Alike

end Session

/-- Where a session looks for nodes, and what it finds there. -/
structure Shelf where
  /-- The files. -/
  files : Files.Tree
  /-- The folder of the scripts. -/
  scripts : Files.Path

/-- The files and the folder of scripts of a stage. -/
def Stage.shelf {σ : Type} (st : Stage σ) : Shelf := ⟨st.files, st.setup.scripts⟩

/-- What is found when a node is looked for. -/
def Shelf.find (w : Shelf) (vs : Variables) (name context : String) : Script.Search :=
  Script.search w.files w.scripts vs name context

namespace Session

/-- The sessions to which following a command into another node may lead. -/
inductive GoesTo (w : Shelf) (s : Session) (name : String) : Session → Prop where
  /-- The node is complete. -/
  | completed (h : s.traversal.completed.contains name) : GoesTo w s name s
  /-- The node has no lines. -/
  | empty {context : String} {n : Node} (h : ¬s.traversal.completed.contains name)
      (hn : (w.find s.vars name context).result = .ok n) (hlines : n.lines = []) :
      GoesTo w s name (s.withVars (w.find s.vars name context).vars)
  /-- The node cannot be loaded. -/
  | lost {context : String} {f : Failure} (h : ¬s.traversal.completed.contains name)
      (hf : (w.find s.vars name context).result = .error f) (hdialogue : f.isDialogue) :
      GoesTo w s name (s.withVars (w.find s.vars name context).vars).halt
  /-- The node is entered. -/
  | entered {context : String} {n : Node} (h : ¬s.traversal.completed.contains name)
      (hcontext : ∀ f ∈ s.traversal.top, context = f.context)
      (hn : (w.find s.vars name context).result = .ok n) (hlines : n.lines ≠ []) :
      GoesTo w s name ((s.withVars (w.find s.vars name context).vars).entered n)

/-- What is on show does not matter for following a command. -/
theorem GoesTo.of_alike {w : Shelf} {s s₁ s' : Session} {name : String}
    (h : GoesTo w s₁ name s') (hs : s.Alike s₁) : ∃ s'', GoesTo w s name s'' ∧ s''.Alike s' := by
  obtain ⟨_, _, _, _, _, rfl⟩ := hs
  cases h with
  | completed hc => exact ⟨s, .completed hc, _, _, _, _, _, rfl⟩
  | empty hc hn hlines => exact ⟨_, .empty hc hn hlines, _, _, _, _, _, rfl⟩
  | lost hc hf hdialogue => exact ⟨_, .lost hc hf hdialogue, _, _, _, _, _, rfl⟩
  | entered hc hcontext hn hlines =>
    exact ⟨_, .entered hc hcontext hn hlines, Alike.entered ⟨_, _, _, _, _, rfl⟩ _⟩

/-- The passes over the blocks of the innermost node come to a turn. -/
structure Passes (s : Session) (n : Node) (m : Motion) (c : Cursor) (turn : Turn) : Prop where
  /-- The session has not been halted. -/
  halted : s.halted = false
  /-- The node is the innermost one. -/
  node : s.node = some n
  /-- It is not complete. -/
  line : s.traversal.cursor.line < n.lines.length
  /-- The conditionals have been passed over first. -/
  conditionals :
    n.passConditionals s.vars s.nodes.length s.seen s.traversal.cursor = m
  /-- The decisions have been passed over then. -/
  decisions : n.passDecisions s.nodes.length m.seen m.cursor = (c, turn)

/-- The sessions to which a step of a run may lead, and whether the run goes on. -/
inductive Step (w : Shelf) (s : Session) : Bool → Session → Prop where
  /-- The session has been halted. -/
  | halted (h : s.halted) : Step w s false s
  /-- There is no node. -/
  | nowhere (h : s.node = none) : Step w s false s
  /-- The innermost node is complete, and the session goes on in the node below. -/
  | finish {n : Node} {f : Frame} (hhalted : s.halted = false) (hn : s.node = some n)
      (hline : n.lines.length ≤ s.traversal.cursor.line) (hf : s.traversal.top = some f)
      (hbelow : s.traversal.frames.dropLast ≠ []) : Step w s true (s.finished f)
  /-- The outermost node is complete, and the session is over. -/
  | finishLast {n : Node} {f : Frame} (hhalted : s.halted = false) (hn : s.node = some n)
      (hline : n.lines.length ≤ s.traversal.cursor.line) (hf : s.traversal.top = some f)
      (hbelow : s.traversal.frames.dropLast = []) : Step w s false (s.finished f).cleared
  /-- A decision is opened. -/
  | ask {n : Node} {m : Motion} {c : Cursor} {d : Decision} (h : s.Passes n m c (.ask d)) :
      Step w s false (s.passed m c).choosing
  /-- Blocks carry the cursor to another line. -/
  | move {n : Node} {m : Motion} {c : Cursor} (h : s.Passes n m c .onward)
      (hmoved : c.line ≠ s.traversal.cursor.line) : Step w s true (s.passed m c)
  /-- A command is carried out. -/
  | command {n : Node} {m : Motion} {c : Cursor} {text : String} {s' : Session}
      (h : s.Passes n m c .onward) (hsame : c.line = s.traversal.cursor.line)
      (htext : at? n.lines c.line = some text) (hcommand : Command.isCommandLine text.toList)
      (hs' : s' = ((s.passed m c).noted text).atNextLine ∨
        ∃ name, Command.target? text = some name ∧
          GoesTo w ((s.passed m c).noted text).atNextLine name s') : Step w s true s'
  /-- A line in which nothing is said is passed over. -/
  | skip {n : Node} {m : Motion} {c : Cursor} {text : String} (h : s.Passes n m c .onward)
      (hsame : c.line = s.traversal.cursor.line) (htext : at? n.lines c.line = some text)
      (hcommand : Command.isCommandLine text.toList = false)
      (hblank : (Spoken.ofLine text).text.isEmpty) : Step w s true (s.passed m c).atNextLine
  /-- A line is presented at a pace. -/
  | present {n : Node} {m : Motion} {c : Cursor} {text : String} {pace : Float}
      (h : s.Passes n m c .onward) (hsame : c.line = s.traversal.cursor.line)
      (htext : at? n.lines c.line = some text)
      (hcommand : Command.isCommandLine text.toList = false)
      (hblank : (Spoken.ofLine text).text.isEmpty = false)
      (hpace : s.settings.secondsPerCharacter = .ok pace) :
      Step w s false ((s.passed m c).presented (Spoken.ofLine text))

/-- The failures with which a step may end, and what is left of the session then. Where the session
itself is not in order, nothing is said of what is left. -/
inductive Breaks (w : Shelf) (s : Session) : Failure → Session → Prop where
  /-- There is a node but no frame. -/
  | noFrame {n : Node} (hn : s.node = some n) (h : s.traversal.top = none) (s' : Session) :
      Breaks w s .nothingToRemove s'
  /-- An open conditional does not exist. -/
  | noConditional {n : Node} (hn : s.node = some n)
      (hline : s.traversal.cursor.line < n.lines.length)
      (h : (n.passConditionals s.vars s.nodes.length s.seen s.traversal.cursor).stuck)
      (s' : Session) : Breaks w s .noElement s'
  /-- An open decision does not exist. -/
  | noDecision {n : Node} {m : Motion} {c : Cursor} (h : s.Passes n m c .stuck) (s' : Session) :
      Breaks w s .noElement s'
  /-- The line does not exist. -/
  | noLine {n : Node} (hn : s.node = some n)
      (hline : s.traversal.cursor.line < n.lines.length)
      (h : at? n.lines s.traversal.cursor.line = none) (s' : Session) : Breaks w s .noElement s'
  /-- The line leads to another node, and a script cannot be read, in a way that is no matter of
  dialogue. -/
  | unreadable {n : Node} {m : Motion} {c : Cursor} {text : String} (h : s.Passes n m c .onward)
      (hsame : c.line = s.traversal.cursor.line) (htext : at? n.lines c.line = some text)
      (hcommand : Command.isCommandLine text.toList) {name : String}
      (htarget : Command.target? text = some name) {context : String} {f : Failure}
      (hf : (w.find s.vars name context).result = .error f) (hdialogue : f.isDialogue = false) :
      Breaks w s f
        (((s.passed m c).noted text).atNextLine.withVars (w.find s.vars name context).vars)
  /-- The line is put on screen, but its text would take a time that is no number. -/
  | noPace {n : Node} {m : Motion} {c : Cursor} {text : String} (h : s.Passes n m c .onward)
      (hsame : c.line = s.traversal.cursor.line) (htext : at? n.lines c.line = some text)
      (hcommand : Command.isCommandLine text.toList = false)
      (hblank : (Spoken.ofLine text).text.isEmpty = false) {f : Failure}
      (hf : s.settings.secondsPerCharacter = .error f) :
      Breaks w s f ((s.passed m c).presented (Spoken.ofLine text))

end Session

namespace Stage.Follows

variable {σ : Type} {st st₁ st₂ : Stage σ} {s s₁ s₂ : Session}

/-- What follows on a stage that follows on another one follows on the latter. -/
theorem trans (h₁ : st.Follows st₁ s₁) (h₂ : st₁.Follows st₂ s₂) (hs : s.Alike s₂) :
    st.Follows st₂ s :=
  ⟨h₂.setup.trans h₁.setup, h₂.files.trans h₁.files, hs.trans h₂.session⟩

/-- A stage that follows looks for nodes in the same place. -/
theorem shelf (h : st.Follows st₁ s) : st₁.shelf = st.shelf := by
  simp [Stage.shelf, h.setup, h.files]

end Stage.Follows

/-- Declarations have been read on a stage, and remarks have been made on the way. Nothing else has
happened. -/
def Stage.Declared {σ : Type} (st st' : Stage σ) (vs : Variables) : Prop :=
  ∃ remarks, st' = { st with
    session := st.session.withVars vs
    remarks := st.remarks ++ remarks }

namespace Stage.Declared

variable {σ : Type} {st st₁ st₂ : Stage σ} {vs vs' : Variables}

/-- The stage follows with other variables. -/
theorem follows (h : st.Declared st₁ vs) : st.Follows st₁ (st.session.withVars vs) := by
  obtain ⟨remarks, rfl⟩ := h
  exact ⟨rfl, rfl, .refl _⟩

/-- What is declared later counts. -/
theorem trans (h : st.Declared st₁ vs) (h' : st₁.Declared st₂ vs') : st.Declared st₂ vs' := by
  obtain ⟨remarks, rfl⟩ := h
  obtain ⟨later, rfl⟩ := h'
  exact ⟨remarks ++ later, by simp [Session.withVars]⟩

end Stage.Declared

namespace Act

variable {σ : Type} {st : Stage σ} (o : Observer σ)

section Specs

variable {Q : Unit → Stage σ → Prop} {E : Failure → Stage σ → Prop}

/-- How a session ends. -/
theorem endSession_ends (h : ∀ st', st.Follows st' st.session.cleared → Q () st') :
    Ends (endSession o.hear) st Q E := by
  simp only [endSession, ends_bind, ends_edit, ends_hear]
  exact h _ ⟨by simp, by simp, by simp [Session.Alike.refl]⟩

/-- What is found when a node is looked for. -/
theorem findScript_ends {name context : String} {Q : Node → Stage σ → Prop}
    (hok : ∀ n st', (st.shelf.find st.session.vars name context).result = .ok n →
      st.Declared st' (st.shelf.find st.session.vars name context).vars → Q n st')
    (herror : ∀ f st', (st.shelf.find st.session.vars name context).result = .error f →
      st.Declared st' (st.shelf.find st.session.vars name context).vars → E f st') :
    Ends (findScript name context) st Q E := by
  simp only [findScript, ends_bind, ends_get, ends_edit, ends_remarkAll, ends_ofExcept]
  -- the variables are taken over whether or not the node has been found
  split
  · next n hn => exact hok n _ hn ⟨_, rfl⟩
  · next f hf => exact herror f _ hf ⟨_, rfl⟩

/-- How a node is entered. -/
theorem enter_ends {n : Node} (h : ∀ st', st.Follows st' (st.session.entered n) → Q () st') :
    Ends (enter o.hear n) st Q E := by
  simp only [enter, ends_bind, ends_session, ends_ite, ends_edit, ends_hear]
  -- a node of the name that is on top of the stack is replaced, and no frame is added
  split
  · next htop =>
    refine h _ ⟨rfl, rfl, ?_⟩
    simp only [Session.entered, htop, if_true]
    exact .refl _
  · next htop =>
    refine h _ ⟨by simp, by simp, ?_⟩
    simp only [Session.entered, htop, Observer.session_react, Session.modifyNode,
      Bool.false_eq_true, if_false]
    exact .refl _

/-- How a node is given up that cannot be loaded. -/
theorem abandonNode_ends {name : String} {f : Failure}
    (h : ∀ st', st.Follows st' st.session.halt → Q () st') :
    Ends (abandonNode o.hear name f) st Q E := by
  simp only [abandonNode, ends_bind, ends_remark, ends_edit, ends_hear]
  exact h _ ⟨by simp, by simp, by simp [Session.Alike.refl]⟩

/-- How a node is opened. -/
theorem openNode_ends {name context : String} {Q : Bool → Stage σ → Prop}
    (hcompleted : st.session.traversal.completed.contains name → Q false st)
    (hempty : ∀ n st', ¬st.session.traversal.completed.contains name →
      (st.shelf.find st.session.vars name context).result = .ok n → n.lines = [] →
      st.Follows st' (st.session.withVars (st.shelf.find st.session.vars name context).vars) →
      Q false st')
    (hok : ∀ n st', ¬st.session.traversal.completed.contains name →
      (st.shelf.find st.session.vars name context).result = .ok n → n.lines ≠ [] →
      st.Follows st'
        ((st.session.withVars (st.shelf.find st.session.vars name context).vars).entered n) →
      Q true st')
    (hlost : ∀ f st', ¬st.session.traversal.completed.contains name →
      (st.shelf.find st.session.vars name context).result = .error f → f.isDialogue →
      st.Follows st'
        (st.session.withVars (st.shelf.find st.session.vars name context).vars).halt → E f st')
    (hbroken : ∀ f st', ¬st.session.traversal.completed.contains name →
      (st.shelf.find st.session.vars name context).result = .error f → f.isDialogue = false →
      st.Follows st' (st.session.withVars (st.shelf.find st.session.vars name context).vars) →
      E f st') :
    Ends (openNode o.hear name context) st Q E := by
  unfold openNode
  simp only [ends_bind, ends_session, ends_ite, ends_pure]
  -- a node that is complete is not looked for; any other one is found, or the search fails
  split
  · next h => exact hcompleted h
  · next h =>
    rw [ends_attempt]
    refine findScript_ends ?_ ?_
    · intro n st₁ hn h₁
      have h₁ := h₁.follows
      simp only [ends_ite, ends_bind, ends_remark, ends_pure]
      -- a node without lines is not entered
      split
      · next hlines =>
        exact hempty n _ h hn (by simpa using hlines) ⟨h₁.setup, h₁.files, h₁.session⟩
      · next hlines =>
        refine enter_ends o fun st₂ h₂ => ?_
        refine hok n st₂ h hn (by simpa using hlines) (h₁.trans h₂ ?_)
        exact h₁.session.entered n
    · intro f st₁ hf h₁
      have h₁ := h₁.follows
      -- what the dialogue itself reports ends the session, anything else passes through
      split
      · next hdialogue =>
        simp only [ends_bind]
        refine abandonNode_ends o fun st₂ h₂ => ?_
        refine hlost f st₂ h hf hdialogue (h₁.trans h₂ ?_)
        obtain ⟨_, _, _, _, _, hs⟩ := h₁.session
        rw [hs]
        exact ⟨_, _, _, _, _, rfl⟩
      · next hdialogue => exact hbroken f st₁ h hf (by simpa using hdialogue) h₁

/-- How a command leads to another node. -/
theorem goTo_ends {name : String}
    (h : ∀ s' st', Session.GoesTo st.shelf st.session name s' → st.Follows st' s' → Q () st')
    (hunreadable : ∀ context f st', (st.shelf.find st.session.vars name context).result = .error f →
      f.isDialogue = false →
      st.Follows st' (st.session.withVars (st.shelf.find st.session.vars name context).vars) →
      E f st') :
    Ends (goTo o.hear name) st Q E := by
  simp only [goTo, ends_bind, ends_session, ends_attempt, ends_pure]
  refine openNode_ends o ?_ ?_ ?_ ?_ ?_
  · exact fun hc => h _ st (.completed hc) (.refl st)
  · exact fun n st' hc hn hlines hfollows => h _ st' (.empty hc hn hlines) hfollows
  · refine fun n st' hc hn hlines hfollows => h _ st' (.entered hc ?_ hn hlines) hfollows
    intro f hf
    simp [Option.mem_def.mp hf]
  · intro f st' hc hf hdialogue hfollows
    simp only [hdialogue, if_true]
    exact h _ st' (.lost hc hf hdialogue) hfollows
  · intro f st' hc hf hdialogue hfollows
    simp only [hdialogue, Bool.false_eq_true, if_false]
    exact hunreadable _ f st' hf hdialogue hfollows

/-- How a finished node is taken off the stack. -/
theorem finishNode_ends {Q : Bool → Stage σ → Prop}
    (hgo : ∀ f st', st.session.traversal.top = some f → st.session.traversal.frames.dropLast ≠ [] →
      st.Follows st' (st.session.finished f) → Q true st')
    (hstop : ∀ f st', st.session.traversal.top = some f →
      st.session.traversal.frames.dropLast = [] →
      st.Follows st' (st.session.finished f).cleared → Q false st')
    (hnone : st.session.traversal.top = none → E .nothingToRemove st) :
    Ends (finishNode o.hear) st Q E := by
  unfold finishNode
  simp only [ends_bind, ends_session]
  cases htop : st.session.traversal.top with
  | none => exact hnone htop
  | some f =>
    simp only [ends_bind, ends_edit, ends_hear, ends_session, Observer.session_react,
      Session.era, Session.traversalOf_era, Session.modifyTraversalOf_era, ends_ite, ends_pure]
    -- the session ends with the last node of the stack
    split
    · next hended =>
      have hbelow : st.session.traversal.frames.dropLast = [] := by
        simpa [Traversal.top, Traversal.complete] using hended
      refine endSession_ends o fun st' h' => ?_
      rw [hended]
      refine hstop f st' htop hbelow ⟨by simpa using h'.setup, by simpa using h'.files, ?_⟩
      exact h'.session
    · next hended =>
      have hbelow : st.session.traversal.frames.dropLast ≠ [] := by
        simpa [Traversal.top, Traversal.complete] using hended
      rw [Bool.eq_false_iff.mpr hended]
      exact hgo f _ htop hbelow ⟨by simp, by simp, .refl _⟩

/-- How the conditionals are passed over. -/
theorem passConditionals_ends {n : Node} {m : Motion}
    (hm : n.passConditionals st.session.vars st.session.nodes.length st.session.seen
      st.session.traversal.cursor = m)
    (h : ∀ st', m.stuck = false → st.Follows st' (st.session.passed m m.cursor) → Q () st')
    (hstuck : ∀ st', m.stuck → E .noElement st') :
    Ends (passConditionals n) st Q E := by
  simp only [passConditionals, ends_bind, ends_session, hm, ends_edit, ends_remarkAll, ends_ite,
    ends_throw, ends_pure]
  split
  · next hs => exact hstuck _ hs
  · next hs => exact h _ (by simpa using hs) ⟨rfl, rfl, .refl _⟩

/-- How the decisions are passed over. -/
theorem passDecisions_ends {n : Node} {c : Cursor} {turn : Turn} {Q : Bool → Stage σ → Prop}
    (hd : n.passDecisions st.session.nodes.length st.session.seen st.session.traversal.cursor =
      (c, turn))
    (hask : ∀ d st', turn = .ask d → st.Follows st' (st.session.withCursor c).choosing → Q true st')
    (honward : ∀ st', turn = .onward → st.Follows st' (st.session.withCursor c) → Q false st')
    (hstuck : ∀ st', turn = .stuck → E .noElement st') :
    Ends (passDecisions o.hear n) st Q E := by
  simp only [passDecisions, ends_bind, ends_session, hd, ends_edit]
  -- only a decision that is opened makes the session wait
  cases turn with
  | onward => exact honward _ rfl ⟨rfl, rfl, .refl _⟩
  | stuck => exact hstuck _ rfl
  | ask d =>
    simp only [awaitChoice, ends_bind, ends_edit, ends_ask, ends_hear, ends_pure]
    refine hask d _ rfl ⟨by simp, by simp, ?_⟩
    simp [Session.choosing, Session.Alike, Session.withCursor]

/-- How a line is recorded. -/
theorem record_ends {line : Spoken}
    (h : ∀ st', st.Follows st' (st.session.recorded line) → Q () st') :
    Ends (record line) st Q E := by
  simp only [record, ends_bind, ends_session, ends_ite, ends_editTraversal, ends_edit]
  split
  · next hnew =>
    refine h _ ⟨rfl, rfl, ?_⟩
    simp only [Session.recorded, if_pos hnew]
    exact .refl _
  · next hnew =>
    refine h _ ⟨rfl, rfl, ?_⟩
    simp only [Session.recorded, if_neg hnew]
    exact .refl _

/-- How a line is put on screen. -/
theorem present_ends {n : Node} {line : Spoken}
    (h : ∀ pace st', st.session.settings.secondsPerCharacter = .ok pace →
      st.Follows st' (st.session.presented line) → Q () st')
    (hpace : ∀ f st', st.session.settings.secondsPerCharacter = .error f →
      st.Follows st' (st.session.presented line) → E f st') :
    Ends (present o.hear n line) st Q E := by
  unfold present
  simp only [ends_bind, ends_session]
  refine turnTo_ends fun st₁ h₁ => ?_
  refine record_ends fun st₂ h₂ => ?_
  have h₂ := h₁.trans h₂ (h₁.session.recorded ⟨line.speaker, st.session.wording line.text⟩)
  obtain ⟨speaker, typewriter, autoTimer, skipTimer, mode, hs⟩ := h₂.session
  simp only [ends_edit, ends_ofExcept]
  -- whatever is on show, the session is the one that presents the line
  have hsettings : st₂.session.settings = st.session.settings := by rw [hs]; rfl
  have hlike (w : Option Typewriter) : (st.session.presented line).Alike
      { st₂.session.modifyNode (fun n => { n with line := st.session.traversal.cursor.line }) with
        settings := st.session.settings, line := some line, autoTimer := 0, skipTimer := 0,
        phase := .presenting, typewriter := w } := by
    rw [hs]
    exact ⟨_, _, _, _, _, rfl⟩
  -- the pace is looked up when the line is on screen already, so a bad one leaves it there
  rw [show (st₂.session.modifyNode _).settings = st.session.settings from hsettings]
  cases hp : st.session.settings.secondsPerCharacter with
  | error f => exact hpace f _ hp ⟨h₂.setup, h₂.files, hlike st₂.session.typewriter⟩
  | ok pace =>
    simp only [ends_ask, ends_hear]
    generalize hst₃ : o.react (.linePresented n.name _ _ _) _ = st₃
    have h₃ : st.Follows st₃ (st.session.presented line) := by
      rw [← hst₃]
      exact ⟨by simpa using h₂.setup, by simpa using h₂.files, by
        simpa using hlike (some (.start (st.session.wording line.text) pace))⟩
    simp only [ends_ite]
    -- in fast forward the text is completed at once
    split
    · rw [ends_bind]
      refine completeText_ends o fun st₄ h₄ => refresh_ends fun st₅ h₅ => h pace st₅ hp ?_
      exact h₃.trans (h₄.trans h₅ h₄.session) h₃.session
    · exact refresh_ends fun st₄ h₄ => h pace st₄ hp (h₃.trans h₄ h₃.session)

/-- How a command is carried out in a step. -/
theorem dispatch_ends {goTo : String → Act σ Unit} {text : String} {replay : Bool}
    {Q : Bool → Stage σ → Prop} (hstay : ∀ b st', st.Follows st' st.session → Q b st')
    (hgo : replay = false → ∀ name, Command.target? text = some name → Ends (goTo name) st
      (fun _ st' => ∀ b st'', st'.Follows st'' st'.session → Q b st'') E) :
    Ends (dispatch o.hear goTo text replay) st Q E := by
  unfold dispatch
  cases hc : Command.ofLine? text with
  | none => exact hstay _ st (.refl st)
  | some c =>
    cases hd : Directive.ofName? c.name with
    | none => simpa [hd] using hstay _ st (.refl st)
    | some d =>
      simp only [hd, ends_bind, ends_ite, ends_hear, ends_pure]
      -- whatever the command has done, it is announced unless it is replayed
      have hrest (st₁ : Stage σ) (h₁ : ∀ b st', st₁.Follows st' st₁.session → Q b st') :
          if (!replay) = true then Q true (o.react (.commandExecuted c.name c.argument) st₁)
          else Q true st₁ := by
        split
        · exact h₁ _ _ ⟨by simp, by simp, by simp [Session.Alike.refl]⟩
        · exact h₁ _ _ (.refl st₁)
      -- only a command that goes to a node changes more than what is on show
      cases heffect : d.effect c.argument replay with
      | none => exact hrest st hstay
      | incomplete message =>
        exact hrest _ fun b st' h' => hstay b st' ⟨h'.setup, h'.files, h'.session⟩
      | call e =>
        simp only [bringAbout, ends_ask]
        exact hrest _ fun b st' h' =>
          hstay b st' ⟨by simpa using h'.setup, by simpa using h'.files, by simpa using h'.session⟩
      | goTo name =>
        have hreplay : replay = false := by
          cases replay with
          | false => rfl
          | true =>
            -- what is replayed goes nowhere
            cases d <;> simp [Directive.effect] at heffect <;> split at heffect <;> cases heffect
        have htarget : Command.target? text = some name := by
          simp [Command.target?, hc, hd, hreplay ▸ heffect]
        exact (hgo hreplay name htarget).imp (fun _ st' h' => hrest st' h') fun _ _ hf => hf

/-- How a line is taken up. -/
theorem takeLine_ends {n : Node} {text : String} {Q : Bool → Stage σ → Prop}
    (hcommand : ∀ s' st', Command.isCommandLine text.toList →
      (s' = (st.session.noted text).atNextLine ∨
        ∃ name, Command.target? text = some name ∧
          Session.GoesTo st.shelf (st.session.noted text).atNextLine name s') →
      st.Follows st' s' → Q true st')
    (hskip : ∀ st', Command.isCommandLine text.toList = false →
      (Spoken.ofLine text).text.isEmpty → st.Follows st' st.session.atNextLine → Q true st')
    (hpresent : ∀ pace st', Command.isCommandLine text.toList = false →
      (Spoken.ofLine text).text.isEmpty = false →
      st.session.settings.secondsPerCharacter = .ok pace →
      st.Follows st' (st.session.presented (Spoken.ofLine text)) → Q false st')
    (hunreadable : ∀ name context f st', Command.isCommandLine text.toList →
      Command.target? text = some name →
      (st.shelf.find st.session.vars name context).result = .error f → f.isDialogue = false →
      st.Follows st' ((st.session.noted text).atNextLine.withVars
        (st.shelf.find st.session.vars name context).vars) → E f st')
    (hpace : ∀ f st', Command.isCommandLine text.toList = false →
      (Spoken.ofLine text).text.isEmpty = false →
      st.session.settings.secondsPerCharacter = .error f →
      st.Follows st' (st.session.presented (Spoken.ofLine text)) → E f st') :
    Ends (takeLine o.hear st.session.era n text) st Q E := by
  unfold takeLine
  simp only [ends_ite]
  -- a command is taken behind, so it is carried out at the line that follows it
  split
  · next hc =>
    simp only [nextLine, ends_bind, ends_edit, Session.era, Session.modifyTraversalOf_era,
      ends_pure]
    refine dispatch_ends o (fun _ st' h' => ?_) fun _ name htarget => goTo_ends o ?_ ?_
    · exact hcommand _ st' hc (.inl rfl) ⟨h'.setup, h'.files, h'.session⟩
    · intro s' st' hgoes h' _ st'' h''
      have h'' := h'.trans h'' h'.session
      exact hcommand s' st'' hc (.inr ⟨name, htarget, hgoes⟩) ⟨h''.setup, h''.files, h''.session⟩
    · exact fun context f st' hf hdialogue h' => hunreadable name context f st' hc htarget hf
        hdialogue ⟨h'.setup, h'.files, h'.session⟩
  · next hc =>
    have hc : Command.isCommandLine text.toList = false := by simpa using hc
    -- what is said is put on screen, unless nothing is left of it
    split
    · next hblank =>
      simp only [nextLine, ends_bind, ends_edit, Session.era, Session.modifyTraversalOf_era,
        ends_pure]
      exact hskip _ hc hblank ⟨rfl, rfl, .refl _⟩
    · next hblank =>
      rw [ends_bind]
      have hblank : (Spoken.ofLine text).text.isEmpty = false := by simpa using hblank
      exact present_ends o (fun pace st' hp h' => hpresent pace st' hc hblank hp h')
        fun f st' hf h' => hpace f st' hc hblank hf h'

/-- When the passes over the blocks leave the cursor at its line, what becomes of the line is a step
of the session, or the session breaks. -/
theorem takeLine_step_ends {n : Node} {m : Motion} {c : Cursor} {text : String} {st₁ : Stage σ}
    (hpass : st.session.Passes n m c .onward) (hsame : c.line = st.session.traversal.cursor.line)
    (htext : at? n.lines c.line = some text) (h₁ : st.Follows st₁ (st.session.passed m c)) :
    Ends (takeLine o.hear st₁.session.era n text) st₁
      (fun b st' => ∃ s', Session.Step st.shelf st.session b s' ∧ st.Follows st' s')
      (fun f st' => ∃ s', Session.Breaks st.shelf st.session f s' ∧ s'.Alike st'.session) := by
  obtain ⟨_, _, _, _, _, hs₁⟩ := h₁.session
  refine takeLine_ends o ?_ ?_ ?_ ?_ ?_
  · intro s' st₂ hc hs' h₂
    have hnext : ((st.session.passed m c).noted text).atNextLine.Alike
        (st₁.session.noted text).atNextLine := by
      rw [hs₁]
      exact ⟨_, _, _, _, _, rfl⟩
    rcases hs' with rfl | ⟨name, htarget, hgoes⟩
    · exact ⟨_, .command hpass hsame htext hc (.inl rfl), h₁.trans h₂ hnext⟩
    · -- the session on stage goes to the node, and so does the one that is like it
      rw [h₁.shelf] at hgoes
      obtain ⟨s'', hgoes, hlike⟩ := hgoes.of_alike hnext
      exact ⟨s'', .command hpass hsame htext hc (.inr ⟨name, htarget, hgoes⟩),
        h₁.trans h₂ hlike⟩
  · intro st₂ hc hblank h₂
    refine ⟨_, .skip hpass hsame htext hc hblank, h₁.trans h₂ ?_⟩
    rw [hs₁]
    exact ⟨_, _, _, _, _, rfl⟩
  · intro pace st₂ hc hblank hpace h₂
    have hpace : st.session.settings.secondsPerCharacter = .ok pace := by
      rw [hs₁] at hpace
      exact hpace
    refine ⟨_, .present hpass hsame htext hc hblank hpace, h₁.trans h₂ ?_⟩
    rw [hs₁]
    exact ⟨_, _, _, _, _, rfl⟩
  · intro name context f st₂ hc htarget hf hdialogue h₂
    have hvars : st₁.session.vars = st.session.vars := by rw [hs₁]; rfl
    rw [h₁.shelf, hvars] at hf h₂
    refine ⟨_, .unreadable hpass hsame htext hc htarget hf hdialogue, .trans ?_ h₂.session⟩
    rw [hs₁]
    exact ⟨_, _, _, _, _, rfl⟩
  · intro f st₂ hc hblank hpace h₂
    have hpace : st.session.settings.secondsPerCharacter = .error f := by
      rw [hs₁] at hpace
      exact hpace
    refine ⟨_, .noPace hpass hsame htext hc hblank hpace, .trans ?_ h₂.session⟩
    rw [hs₁]
    exact ⟨_, _, _, _, _, rfl⟩

/-- What is required where no decision is asked: if the blocks have carried the cursor away from its
line, if there is no such line, and of the line when it is taken up. -/
structure AtLine (hear : Listener σ) (era : Nat) (n : Node) (line : Int)
    (Q : Bool → Stage σ → Prop) (E : Failure → Stage σ → Prop) (st : Stage σ) : Prop where
  moved : (st.session.traversalOf era).cursor.line ≠ line → Q true st
  missing : (st.session.traversalOf era).cursor.line = line → at? n.lines line = none →
    E .noElement st
  taken : ∀ text, (st.session.traversalOf era).cursor.line = line → at? n.lines line = some text →
    Ends (takeLine hear era n text) st Q E

/-- How a step ends: there is nothing to run, the node is behind its last line, or its blocks are
passed over. Then a decision is asked, or the line at the cursor comes to bear. -/
theorem step_rule {hear : Listener σ} {era : Nat} {Q : Bool → Stage σ → Prop}
    (hrest : st.session.halted ∨ st.session.node = none → Q false st)
    (hfinish : ∀ n, st.session.halted = false → st.session.node = some n →
      n.lines.length ≤ (st.session.traversalOf era).cursor.line → Ends (finishNode hear) st Q E)
    (hblocks : ∀ n, st.session.halted = false → st.session.node = some n →
      (st.session.traversalOf era).cursor.line < n.lines.length →
      Ends (passConditionals n) st (fun _ st₁ => Ends (passDecisions hear n) st₁
        (fun asked st₂ => match asked with
          | true => Q false st₂
          | false => AtLine hear era n (st.session.traversalOf era).cursor.line Q E st₂) E) E) :
    Ends (step hear era) st Q E := by
  unfold step
  simp only [ends_bind, ends_session, ends_ite, ends_pure]
  split
  · next hhalted => exact hrest (.inl hhalted)
  next hhalted =>
  have hhalted : st.session.halted = false := by simpa using hhalted
  cases hn : st.session.node with
  | none => exact hrest (.inr hn)
  | some n =>
    simp only [ends_ite]
    split
    · next hline => exact hfinish n hhalted hn hline
    next hline =>
    rw [ends_bind]
    refine (hblocks n hhalted hn (not_le.mp hline)).imp (fun _ st₁ h₁ => ?_) fun _ _ hf => hf
    rw [ends_bind]
    refine h₁.imp (fun asked st₂ h₂ => ?_) fun _ _ hf => hf
    cases asked with
    | true => exact h₂
    | false =>
      simp only [Bool.false_eq_true, if_false, ends_bind, ends_session, ends_ite, ends_pure]
      split
      · next hmoved => exact h₂.moved hmoved
      next hsame =>
      have hsame := not_ne_iff.mp hsame
      cases htext : at? n.lines (st.session.traversalOf era).cursor.line with
      | none => exact h₂.missing hsame htext
      | some text => exact h₂.taken text hsame htext

variable (st) in
/-- A step on a stage is a step of its session, or it breaks. -/
theorem step_ends : Ends (step o.hear st.session.era) st
    (fun b st' => ∃ s', Session.Step st.shelf st.session b s' ∧ st.Follows st' s')
    (fun f st' => ∃ s', Session.Breaks st.shelf st.session f s' ∧ s'.Alike st'.session) := by
  refine step_rule ?_ ?_ ?_
  · rintro (hhalted | hn)
    · exact ⟨_, .halted hhalted, .refl st⟩
    · exact ⟨_, .nowhere hn, .refl st⟩
  · -- behind its last line the node is finished
    intro n hhalted hn hline
    rw [Session.era, Session.traversalOf_era] at hline
    refine finishNode_ends o ?_ ?_ ?_
    · exact fun f st' hf hbelow h' => ⟨_, .finish hhalted hn hline hf hbelow, h'⟩
    · exact fun f st' hf hbelow h' => ⟨_, .finishLast hhalted hn hline hf hbelow, h'⟩
    · exact fun htop => ⟨_, .noFrame hn htop _, .refl _⟩
  intro n hhalted hn hline
  rw [Session.era, Session.traversalOf_era] at hline ⊢
  -- first the conditionals are passed over, which may be stuck
  obtain ⟨m, hm⟩ : ∃ m, n.passConditionals st.session.vars st.session.nodes.length
    st.session.seen st.session.traversal.cursor = m := ⟨_, rfl⟩
  refine passConditionals_ends hm ?_ fun _ hs =>
    ⟨_, .noConditional hn hline (by rw [hm]; exact hs) _, .refl _⟩
  intro st₁ _ h₁
  obtain ⟨⟨c, turn⟩, hd⟩ : ∃ r, n.passDecisions st.session.nodes.length m.seen m.cursor = r :=
    ⟨_, rfl⟩
  obtain ⟨_, _, _, _, _, hs₁⟩ := h₁.session
  have hd₁ : n.passDecisions st₁.session.nodes.length st₁.session.seen
      st₁.session.traversal.cursor = (c, turn) := by
    rw [hs₁]
    exact hd
  -- both passes together lead to the session of the second one
  have hlike : (st.session.passed m c).Alike (st₁.session.withCursor c) := by
    rw [hs₁]
    exact ⟨_, _, _, _, _, rfl⟩
  -- then a decision is asked, or the cursor has moved, or a line is taken up
  refine passDecisions_ends o hd₁ ?_ ?_ ?_
  · rintro d st₂ rfl h₂
    refine ⟨_, .ask ⟨hhalted, hn, hline, hm, hd⟩, h₁.trans h₂ ?_⟩
    obtain ⟨_, _, _, _, _, hs⟩ := hlike
    rw [hs]
    exact ⟨_, _, _, _, _, rfl⟩
  · rintro st₂ rfl h₂
    have hpass : st.session.Passes n m c .onward := ⟨hhalted, hn, hline, hm, hd⟩
    have h₂ := h₁.trans h₂ hlike
    have hera : st.session.retired.length = st₂.session.retired.length := by
      obtain ⟨_, _, _, _, _, hs₂⟩ := h₂.session
      rw [hs₂]
      rfl
    have hcursor : (st₂.session.traversalOf st.session.retired.length).cursor = c := by
      obtain ⟨_, _, _, _, _, hs₂⟩ := h₂.session
      rw [hera, Session.traversalOf_era, hs₂]
      rfl
    refine ⟨fun hmoved => ?_, fun _ htext => ⟨_, .noLine hn hline htext _, .refl _⟩,
      fun text hsame htext => ?_⟩
    · rw [hcursor] at hmoved
      exact ⟨_, .move hpass hmoved, h₂⟩
    · rw [hcursor] at hsame
      rw [hera]
      exact takeLine_step_ends o hpass hsame (hsame ▸ htext) h₂
  · rintro st₂ rfl
    exact ⟨_, .noDecision ⟨hhalted, hn, hline, hm, hd⟩ _, .refl _⟩

end Specs

end Act

end VisualNovel
