import VisualNovel.Proofs.Life.Keeping
import VisualNovel.Proofs.Life.Reached

/-!
# Noting what sessions do

Not all that a session does leaves a trace on its stage: a line in which nothing is said is passed
over without a sign. Inputs can therefore be performed such that something is noted of the session
before each step. This changes nothing else.

## Main definitions

* `Session.taken`: the line that the next step takes up;
* `Input.performNoting`, `Input.performAllNoting`: inputs are performed, and something is noted
  before each step.

## Main results

* `Session.Step.trace_of_mem_taken`, `Session.Step.trace_of_taken_eq_nil`: what becomes of a line
  that is taken up, and what is left alone if none is;
* `Input.performAll_eq_noting`: inputs do what they do without notes.
-/

namespace VisualNovel

namespace Session

/-- The line that the next step takes up, if it takes one up: blocks leave the cursor at the line,
and no decision stands in the way. -/
def taken (s : Session) : List Int :=
  match s.node with
  | none => []
  | some n =>
    if s.halted || n.lines.length ≤ s.traversal.cursor.line then []
    else
      let m := n.passConditionals s.vars s.nodes.length s.seen s.traversal.cursor
      match n.passDecisions s.nodes.length m.seen m.cursor with
      | (c, .onward) => if c.line = s.traversal.cursor.line then [c.line] else []
      | _ => []

variable {w : Shelf} {s s' : Session} {n : Node} {m : Motion} {c : Cursor}

/-- The line that is taken up when blocks have been passed. -/
theorem Passes.taken_eq {turn : Turn} (h : s.Passes n m c turn) :
    s.taken = if turn = .onward ∧ c.line = s.traversal.cursor.line then [c.line] else [] := by
  obtain ⟨hhalted, hn, hline, hm, hd⟩ := h
  have hgo : (s.halted || decide ((n.lines.length : Int) ≤ s.traversal.cursor.line)) = false := by
    simp [hhalted, hline]
  simp only [taken, hn, hgo, Bool.false_eq_true, if_false, hm, hd]
  cases turn <;> simp

/-- Behind the last line nothing is taken up. -/
theorem taken_of_le (hn : s.node = some n) (hline : n.lines.length ≤ s.traversal.cursor.line) :
    s.taken = [] := by
  simp [taken, hn, hline]

/-- Following a command into another node records nothing. -/
private theorem GoesTo.records_eq {name : String} (h : s.GoesTo w name s') :
    s'.traversal.history = s.traversal.history ∧
      s'.traversal.transcript = s.traversal.transcript := by
  have hentered (s : Session) (n : Node) : (s.entered n).traversal.history = s.traversal.history ∧
      (s.entered n).traversal.transcript = s.traversal.transcript := by
    unfold Session.entered Traversal.enter
    split
    · exact ⟨rfl, rfl⟩
    · dsimp only
      split <;> exact ⟨rfl, rfl⟩
  cases h with
  | entered _ _ _ _ => exact hentered _ _
  | _ => exact ⟨rfl, rfl⟩

/-- A line that is taken up is a command, which goes into the history, or nothing is said in it, or
it is put on screen. -/
theorem Step.trace_of_mem_taken {goesOn : Bool} (h : s.Step w goesOn s') {line : Int}
    (hline : line ∈ s.taken) : ∃ n text, s.node = some n ∧ at? n.lines line = some text ∧
      (Command.isCommandLine text.toList ∧
          s'.traversal.history = s.traversal.history ++ [text] ∨
        Command.isCommandLine text.toList = false ∧ (Spoken.ofLine text).text.isEmpty ∨
        s'.line = some (Spoken.ofLine text) ∧ s'.phase = .presenting) := by
  -- the line is the one at the cursor
  have hat {n : Node} {m : Motion} {c : Cursor} {turn : Turn} (hpass : s.Passes n m c turn) :
      turn = .onward ∧ c.line = s.traversal.cursor.line ∧ line = c.line := by
    rw [hpass.taken_eq] at hline
    split at hline
    · next hboth => exact ⟨hboth.1, hboth.2, List.mem_singleton.mp hline⟩
    · cases hline
  -- a step that takes up a line is one of the last three; the others take up none
  cases h with
  | halted hhalted =>
    unfold taken at hline
    split at hline <;> simp [hhalted] at hline
  | nowhere hn => simp [taken, hn] at hline
  | finish _ hn hle _ _ => simp [taken_of_le hn hle] at hline
  | finishLast _ hn hle _ _ => simp [taken_of_le hn hle] at hline
  | ask hpass => cases (hat hpass).1
  | move hpass hmoved => exact absurd (hat hpass).2.1 hmoved
  | @command n m c text s' hpass _ htext hcommand hs' =>
    obtain ⟨-, -, rfl⟩ := hat hpass
    refine ⟨n, text, hpass.node, htext, .inl ⟨hcommand, ?_⟩⟩
    rcases hs' with rfl | ⟨name, -, hgoes⟩
    · rfl
    · exact hgoes.records_eq.1
  | skip hpass _ htext hcommand hblank =>
    obtain ⟨-, -, rfl⟩ := hat hpass
    exact ⟨_, _, hpass.node, htext, .inr (.inl ⟨hcommand, hblank⟩)⟩
  | present hpass _ htext _ _ _ =>
    obtain ⟨-, -, rfl⟩ := hat hpass
    exact ⟨_, _, hpass.node, htext, .inr (.inr ⟨rfl, rfl⟩)⟩

/-- If no line is taken up, nothing goes into the history or into the transcript. -/
theorem Step.trace_of_taken_eq_nil {goesOn : Bool} (h : s.Step w goesOn s') (hnil : s.taken = []) :
    s'.traversal.history = s.traversal.history ∧
      s'.traversal.transcript = s.traversal.transcript := by
  -- a step that goes on at its line takes this line up
  have hat {n : Node} {m : Motion} {c : Cursor} (hpass : s.Passes n m c .onward)
      (hsame : c.line = s.traversal.cursor.line) : False := by
    rw [hpass.taken_eq, if_pos ⟨rfl, hsame⟩] at hnil
    cases hnil
  have hfinished (f : Frame) : (s.finished f).traversal.history = s.traversal.history ∧
      (s.finished f).traversal.transcript = s.traversal.transcript := by
    simp only [finished, Traversal.comeBack]
    split <;> exact ⟨rfl, rfl⟩
  cases h with
  | finish _ _ _ _ _ => exact hfinished _
  | finishLast _ _ _ _ _ => exact hfinished _
  | command hpass hsame _ _ _ => exact (hat hpass hsame).elim
  | skip hpass hsame _ _ _ => exact (hat hpass hsame).elim
  | present hpass hsame _ _ _ _ => exact (hat hpass hsame).elim
  | _ => exact ⟨rfl, rfl⟩

end Session

section Noting

variable {σ α : Type} (hear : Listener σ) (note : Session → List α)

namespace Act

/-- Takes steps until the run comes to a rest, and notes something before each of them. -/
def stepsNoting (era : Nat) : Nat → Act σ (List α)
  | 0 => throw .endless
  | k + 1 => do
    let s ← session
    if ← step hear era then return note s ++ (← stepsNoting era k) else return note s

/-- Runs on until the session needs the reader, and notes something before each step. -/
def runNoting (seen : List Visit) : Act σ (List α) := do
  edit fun s => { s with seen }
  stepsNoting hear note (← session).era (← get).setup.patience

/-- A run that is noted takes the same steps. -/
theorem steps_eq_noting (era k : Nat) :
    (do let _ ← stepsNoting hear note era k) = steps hear era k := by
  -- on the number of steps: the notes are dropped behind each of them
  induction k with
  | zero => rfl
  | succ k ih =>
    have hstep : (do let _ ← stepsNoting hear note era (k + 1)) =
        (do let _ ← session; if ← step hear era then steps hear era k : Act σ Unit) := by
      rw [stepsNoting, ← ih]
      simp only [bind_assoc]
      refine bind_congr fun s => bind_congr fun goesOn => ?_
      cases goesOn <;> simp
    rw [hstep]
    rfl

/-- A run that is noted does what it does without notes. -/
theorem run_eq_noting (seen : List Visit) :
    (do let _ ← runNoting hear note seen) = run hear seen := by
  simp only [runNoting, run, bind_assoc]
  exact bind_congr fun _ => bind_congr fun _ => bind_congr fun _ => steps_eq_noting ..

end Act

namespace Input

/-- Performs an input, and notes something before each step of the run that may follow. -/
def performNoting (i : Input) : Act σ (List α) := do
  match ← i.prepare hear with
  | none => return []
  | some seen =>
    let notes ← Act.runNoting hear note seen
    i.conclude hear
    return notes

/-- Performs inputs one after the other, and notes something before each step. -/
def performAllNoting : List Input → Act σ (List α)
  | [] => return []
  | i :: is => do
    let notes ← i.performNoting hear note
    return notes ++ (← performAllNoting is)

/-- An input that is noted does what it does without notes. -/
theorem perform_eq_noting (i : Input) :
    (do let _ ← i.performNoting hear note) = i.perform hear := by
  rw [perform_eq, performNoting, bind_assoc]
  refine bind_congr fun r => ?_
  cases r with
  | none => rfl
  | some seen =>
    simp only [runOn, ← Act.run_eq_noting hear note seen, bind_assoc, pure_bind, bind_pure_unit]

/-- Inputs that are noted do what they do without notes. -/
theorem performAll_eq_noting (is : List Input) :
    (do let _ ← performAllNoting hear note is) = performAll hear is := by
  induction is with
  | nil => rfl
  | cons i is ih =>
    rw [performAllNoting, performAll, ← ih, ← perform_eq_noting hear note i]
    simp only [bind_assoc, pure_bind]

variable {hear note} {st st₁ st₂ : Stage σ}

end Input

end Noting

end VisualNovel
