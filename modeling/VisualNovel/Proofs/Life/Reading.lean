import VisualNovel.Proofs.Life.Noting
import VisualNovel.Proofs.Life.Play
import VisualNovel.Proofs.Life.Typing
import VisualNovel.Proofs.Tour.Reading

/-!
# Reading a node from its start to its end

A node without decisions that leads nowhere is read alone: the session starts in it, the reader goes
on, and it ends. The lines that are taken up on the way are those that are meant, whatever is on
show, and however the run is interrupted by lines that are put on screen.

## Main definitions

* `Session.ReadsAt`: a session is in a node and in no other;
* `Session.HasRead`: what a session comes to that has taken up lines.

## Main results

* `Session.ReadsAt.step`: what comes of a step;
* `Act.runNoting_reads`: what comes of a run;
* `Input.reads_as_meant`: from its start to its end, a node is read as it is meant.
-/

namespace VisualNovel

namespace Session

/-- A session is in a node and in no other, and the branches taken are those that are selected. -/
structure ReadsAt (w : Shelf) (n : Node) (vs : Variables) (s : Session) (p : Place) : Prop where
  /-- The session is at the place. -/
  place : ∃ ys, s.At w ys p
  /-- No node waits. -/
  alone : p.frames = []
  /-- The node is the innermost one. -/
  node : p.stay.node = n
  /-- The variables are those of the node. -/
  vars : s.vars = vs
  /-- The session has not been halted. -/
  halted : s.halted = false
  /-- There is a pace for lines. -/
  paced : ∃ pace, s.settings.secondsPerCharacter = .ok pace
  /-- The branches taken are selected. -/
  selected : n.Selected vs p.cursor

/-- A session that has taken up lines, from one line on, is over or shows a line. -/
inductive HasRead (w : Shelf) (n : Node) (vs : Variables) (a : Int) (ls : List Int) (s : Session) :
    Prop where
  /-- It has read the node to the end. -/
  | ended (hphase : s.phase = .idle) (hnodes : s.nodes = []) (h : n.Reads vs a n.lines.length ls)
  /-- It has read up to the line on screen. -/
  | upTo {p : Place} (hat : s.ReadsAt w n vs p) (hst : p.stance = .showing)
      (hphase : s.phase = .presenting) (hle : a ≤ p.cursor.line)
      (h : n.Reads vs a (p.cursor.line + 1) ls)

variable {w : Shelf} {n : Node} {vs : Variables} {s s' : Session} {p : Place} {a b : Int}
  {ls ms : List Int}

/-- What is on show does not matter for what has been read. -/
theorem HasRead.of_alike (h : s.HasRead w n vs a ls) (hs : s.Alike s') :
    s'.HasRead w n vs a ls := by
  obtain ⟨_, _, _, _, _, rfl⟩ := hs
  cases h with
  | ended hphase hnodes hreads => exact .ended hphase hnodes hreads
  | upTo hat hst hphase hle hreads =>
    obtain ⟨⟨ys, hp⟩, halone, hnode, hvars, hhalted, hpaced, hselected⟩ := hat
    exact .upTo ⟨⟨ys, hp.congr rfl rfl rfl⟩, halone, hnode, hvars, hhalted, hpaced, hselected⟩ hst
      hphase hle hreads

namespace ReadsAt

/-- What is on show does not matter for where a session reads. -/
theorem of_alike (h : s.ReadsAt w n vs p) (hs : s.Alike s') : s'.ReadsAt w n vs p := by
  obtain ⟨_, _, _, _, _, rfl⟩ := hs
  obtain ⟨⟨ys, hp⟩, halone, hnode, hvars, hhalted, hpaced, hselected⟩ := h
  exact ⟨⟨ys, hp.congr rfl rfl rfl⟩, halone, hnode, hvars, hhalted, hpaced, hselected⟩

variable (h : s.ReadsAt w n vs p)

include h

/-- The lines of the innermost node are those of the node. -/
theorem lines_eq : p.node.lines = n.lines := by
  obtain ⟨⟨ys, hp⟩, -, rfl, -⟩ := h
  exact hp.lines_eq

/-- The cursor is in the node or right behind it. -/
theorem within : 0 ≤ p.cursor.line ∧ p.cursor.line ≤ n.lines.length := by
  obtain ⟨⟨ys, hp⟩, -, rfl, -⟩ := h
  exact (hp.tour.poised hp.laid).within

/-- No node waits below. -/
theorem nodes_eq_nil : p.nodes = [] := by
  obtain ⟨⟨ys, hp⟩, halone, -⟩ := h
  exact (halone ▸ hp.below).eq_nil.1

variable (hst : p.stance.GoesOn)

include hst

/-- The line of the session is that of the place. -/
theorem line_eq : s.traversal.cursor.line = p.cursor.line := by
  obtain ⟨ys, hp⟩ := h.place
  rw [hp.cursor, hst.cursor_eq]

variable (hdecisions : n.decisions = [])

include hdecisions

/-- The passes over the blocks carry the cursor over lines that are not meant, to one that is. -/
theorem passes {n' : Node} {m : Motion} {c : Cursor} {turn : Turn}
    (hpass : s.Passes n' m c turn) :
    turn = .onward ∧ p.cursor.line ≤ c.line ∧ n.Selected vs c ∧ n.Meant vs c.line ∧
      ∀ line, p.cursor.line ≤ line → line < c.line → ¬n.Meant vs line := by
  obtain ⟨⟨ys, hp⟩, halone, rfl, rfl, hhalted, -, hselected⟩ := h
  have hpoised := hp.tour.poised hp.laid
  obtain rfl := Option.some.inj (hp.node_eq.symm.trans hpass.node)
  obtain ⟨-, hturn⟩ := hp.turn hst (hpass.line) hpass.conditionals
  rcases hturn _ _ hpass.decisions with ⟨c₀, d, -, -, -, hask⟩ | ⟨honward, hround, -⟩
  · have hmem := (Node.decisionAt?_some hask).1
    rw [hdecisions] at hmem
    cases hmem
  have hturned := hround.turned hp.laid hpoised
  obtain ⟨-, _, -, hleave⟩ := hround
  -- without decisions, no option is left after the pass over the conditionals
  obtain rfl : m.cursor = c :=
    (hturned.poised_between.leaveOptions_eq hdecisions).symm.trans hleave
  have hm := (hp.passConditionals_eq hst).symm.trans hpass.conditionals
  obtain ⟨hselected', hbetween⟩ := hpoised.selected_passConditionals hp.laid hselected
  have hmeant := hp.tour.meant hp.laid hdecisions hst hselected
  rw [hm] at hselected' hbetween hmeant
  exact ⟨honward, hturned.passed.line_le, hselected', hmeant, hbetween⟩

/-- A line that is taken up is meant, and it is the one at the cursor. -/
theorem reads_taken {n' : Node} {m : Motion} {c : Cursor} (hpass : s.Passes n' m c .onward)
    (hsame : c.line = s.traversal.cursor.line) :
    n.Selected vs c ∧ c.line = p.cursor.line ∧
      n.Reads vs p.cursor.line (c.line + 1) s.taken := by
  obtain ⟨-, -, hselected, hmeant, -⟩ := h.passes hst hdecisions hpass
  rw [hpass.taken_eq, if_pos ⟨rfl, hsame⟩]
  rw [h.line_eq hst] at hsame
  rw [hsame] at hmeant ⊢
  exact ⟨hselected, rfl, .singleton hmeant⟩

/-- What comes of a step: a run that goes on has taken up what is meant between two lines. -/
theorem step (hplain : ∀ text ∈ n.lines, Command.target? text = none) {goesOn : Bool}
    (hstep : s.Step w goesOn s') :
    if goesOn then ∃ p', s'.ReadsAt w n vs p' ∧ p'.stance.GoesOn ∧
        p.cursor.line < p'.cursor.line ∧ n.Reads vs p.cursor.line p'.cursor.line s.taken
      else s'.HasRead w n vs p.cursor.line s.taken := by
  obtain ⟨ys, hp⟩ := h.place
  have hline := h.line_eq hst
  cases hstep with
  | halted hhalted =>
    rw [h.halted] at hhalted
    cases hhalted
  | nowhere hnone =>
    rw [hp.node_eq] at hnone
    cases hnone
  | @finish n' f hhalted hn hle hf hbelow =>
    -- there would have to be a node below
    rw [hp.frames, h.alone] at hbelow
    simp at hbelow
  | @finishLast n' f hhalted hn hle hf hbelow =>
    obtain rfl := Option.some.inj (hp.node_eq.symm.trans hn)
    simp only [Bool.false_eq_true, if_false]
    rw [taken_of_le hn hle]
    rw [h.lines_eq, hline] at hle
    exact .ended rfl (by simp [finished, cleared, hp.nodes, h.nodes_eq_nil])
      (.nil fun line hfrom hto => by omega)
  | ask hpass =>
    cases (h.passes hst hdecisions hpass).1
  | @move n' m c hpass hmoved =>
    obtain ⟨-, hle, hselected, -, hbetween⟩ := h.passes hst hdecisions hpass
    simp only [if_true]
    refine ⟨_, ⟨⟨_, hp.moves hst hpass hmoved⟩, h.alone, h.node, h.vars, hpass.halted, h.paced,
      hselected⟩, trivial, ?_, ?_⟩
    · rw [hline] at hmoved
      show p.cursor.line < c.line
      omega
    · rw [hpass.taken_eq, if_neg fun hsame => hmoved hsame.2]
      exact .nil hbetween
  | @command n' m c text s' hpass hsame htext hcommand hs' =>
    obtain ⟨hselected, hc, hread⟩ := h.reads_taken hst hdecisions hpass hsame
    simp only [if_true]
    rcases hs' with rfl | ⟨name, htarget, -⟩
    · refine ⟨_, ⟨⟨_, hp.carriesOut hst hpass hsame htext hcommand⟩, h.alone, h.node, h.vars,
        hpass.halted, h.paced, hselected⟩, trivial, ?_, hread⟩
      show p.cursor.line < c.line + 1
      omega
    · -- no command leads to another node
      obtain rfl := Option.some.inj (hp.node_eq.symm.trans hpass.node)
      rw [hplain text (h.lines_eq ▸ mem_of_at? htext)] at htarget
      cases htarget
  | @skip n' m c text hpass hsame htext hcommand hblank =>
    obtain ⟨hselected, hc, hread⟩ := h.reads_taken hst hdecisions hpass hsame
    simp only [if_true]
    refine ⟨_, ⟨⟨_, hp.passesOver hst hpass hsame htext hcommand hblank⟩, h.alone, h.node, h.vars,
      hpass.halted, h.paced, hselected⟩, trivial, ?_, hread⟩
    show p.cursor.line < c.line + 1
    omega
  | @present n' m c text pace hpass hsame htext hcommand hblank hpace =>
    obtain ⟨hselected, hc, hread⟩ := h.reads_taken hst hdecisions hpass hsame
    simp only [Bool.false_eq_true, if_false]
    exact .upTo ⟨⟨_, hp.puts hst hpass hsame htext hblank⟩, h.alone, h.node, h.vars, hpass.halted,
      h.paced, hselected⟩ rfl rfl (le_of_eq hc.symm) hread

end ReadsAt

end Session

/-- A stage has the surroundings and the files of another one. -/
def Stage.Beside {σ : Type} (st st' : Stage σ) : Prop :=
  st'.setup = st.setup ∧ st'.files = st.files

namespace Stage.Beside

variable {σ : Type} {st st₁ st₂ : Stage σ}

theorem trans (h : st.Beside st₁) (h' : st₁.Beside st₂) : st.Beside st₂ :=
  ⟨h'.1.trans h.1, h'.2.trans h.2⟩

/-- Nodes are looked for in the same place. -/
theorem shelf (h : st.Beside st₁) : st₁.shelf = st.shelf := by
  simp [Stage.shelf, h.1, h.2]

end Stage.Beside

namespace Act

variable {σ : Type} {st : Stage σ} (o : Observer σ)

section Reading

variable {w : Shelf} {n : Node} {vs : Variables} {p : Place} (hdecisions : n.decisions = [])
  (hplain : ∀ text ∈ n.lines, Command.target? text = none)

include hdecisions hplain

end Reading

end Act

namespace Input

open Act

variable {σ : Type}

section Reading

variable {st : Stage σ} (o : Observer σ) {w : Shelf} {n : Node} {vs : Variables}
  {p : Place}

variable (hdecisions : n.decisions = [])
  (hplain : ∀ text ∈ n.lines, Command.target? text = none)
  (hpatience : n.lines.length < st.setup.patience)

include hdecisions hplain hpatience

end Reading

end Input

end VisualNovel
