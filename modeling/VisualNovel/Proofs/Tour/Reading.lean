import VisualNovel.Proofs.Tour.Asking
import VisualNovel.Proofs.Tour.Conditions

/-!
# Reading a node without decisions

In a node without decisions it is up to the conditionals which lines are taken up. A line is meant
if every conditional around it selects the branch in which it lies. The cursor jumps over lines
that are not meant and over no others, since the branch that is open in a conditional is the one
that the conditional selects.

## Main definitions

* `Node.Meant`: every conditional around a line selects a branch with the line;
* `Node.Reads`: some lines are those between two lines that are meant, in order;
* `Node.Selected`: the branches taken at a cursor are those that are selected.

## Main results

* `Node.Poised.selected_passConditionals`: no line is jumped over that is meant;
* `Tour.meant`: the line at which a pass over the conditionals ends is meant.
-/

namespace VisualNovel

/-- The conditional selects a branch with the line. -/
def Conditional.Selects (vs : Variables) (x : Conditional) (line : Int) : Prop :=
  ∃ way b, (x.select vs).1 = some (way, b) ∧ b.start ≤ line ∧ line < b.stop

namespace Node

/-- Every conditional around the line selects a branch with the line. -/
def Meant (n : Node) (vs : Variables) (line : Int) : Prop :=
  ∀ x ∈ n.conditionals, x.start ≤ line → line < x.stop → x.Selects vs line

/-- The lines are those from one line up to another that are meant, each of them once and in
order. -/
structure Reads (n : Node) (vs : Variables) (a b : Int) (lines : List Int) : Prop where
  /-- The lines are in order. -/
  increasing : lines.Pairwise (· < ·)
  /-- They are the ones that are meant. -/
  mem_iff : ∀ line, line ∈ lines ↔ a ≤ line ∧ line < b ∧ n.Meant vs line

namespace Reads

variable {n : Node} {vs : Variables} {a b c : Int} {ls ms : List Int}

/-- Nothing is read where nothing is meant. -/
theorem nil (h : ∀ line, a ≤ line → line < b → ¬n.Meant vs line) : n.Reads vs a b [] where
  increasing := .nil
  mem_iff line := by
    simp only [List.not_mem_nil, false_iff]
    exact fun ⟨ha, hb, hmeant⟩ => h line ha hb hmeant

/-- A single line is read. -/
theorem singleton (h : n.Meant vs a) : n.Reads vs a (a + 1) [a] where
  increasing := List.pairwise_singleton _ _
  mem_iff line := by
    rw [List.mem_singleton]
    constructor
    · rintro rfl
      exact ⟨le_rfl, by omega, h⟩
    · rintro ⟨ha, hb, -⟩
      omega

/-- What is read is put together from stretches of lines. -/
theorem append (h : n.Reads vs a b ls) (h' : n.Reads vs b c ms) (hab : a ≤ b) (hbc : b ≤ c) :
    n.Reads vs a c (ls ++ ms) where
  increasing := by
    refine List.pairwise_append.mpr ⟨h.increasing, h'.increasing, fun l hl m hm => ?_⟩
    obtain ⟨-, hlt, -⟩ := (h.mem_iff l).mp hl
    obtain ⟨hle, -, -⟩ := (h'.mem_iff m).mp hm
    omega
  mem_iff line := by
    rw [List.mem_append, h.mem_iff, h'.mem_iff]
    constructor
    · rintro (⟨ha, hb, hmeant⟩ | ⟨hb, hc, hmeant⟩)
      · exact ⟨ha, by omega, hmeant⟩
      · exact ⟨by omega, hc, hmeant⟩
    · rintro ⟨ha, hc, hmeant⟩
      rcases lt_or_ge line b with hlt | hge
      · exact .inl ⟨ha, hlt, hmeant⟩
      · exact .inr ⟨hge, hc, hmeant⟩

end Reads

/-- The branches taken at a cursor are those that their conditionals select. -/
def Selected (n : Node) (vs : Variables) (c : Cursor) : Prop :=
  ∀ p ∈ c.conditionals.zip c.branches, ∀ x b, n.Takes p.1 p.2 x b →
    ∃ way, (x.select vs).1 = some (way, b)

namespace Selected

variable {n : Node} {depth : Nat} {seen : List Visit} {vs : Variables} {c : Cursor}

/-- At the start of a node no branch is taken. -/
theorem init (n : Node) (vs : Variables) : n.Selected vs {} := by
  intro p hp
  cases hp

/-- A line of a conditional whose selected branch does not have it is not meant. -/
theorem not_meant {x : Conditional} {way : Nat} {b : Branch} {line : Int} (hx : x ∈ n.conditionals)
    (hselect : (x.select vs).1 = some (way, b)) (hstart : x.start ≤ line) (hstop : line < x.stop)
    (hout : line < b.start ∨ b.stop ≤ line) : ¬n.Meant vs line := by
  intro hmeant
  obtain ⟨way', b', hselect', hbstart, hbstop⟩ := hmeant x hx hstart hstop
  obtain ⟨-, rfl⟩ := Prod.mk.inj (Option.some.inj (hselect.symm.trans hselect'))
  omega

variable (h : n.Selected vs c)

include h

/-- A branch is left. -/
theorem leaveBranch (hp : n.Poised depth seen c) {is ws : List Int} {i w : Int}
    (hi : c.conditionals = is ++ [i]) (hw : c.branches = ws ++ [w]) (stop : Int) :
    n.Selected vs (c.leaveBranch stop) := by
  have hlength := hp.length_below hi hw
  intro p hmem
  refine h p ?_
  have hmem : p ∈ is.zip ws := by simpa [Cursor.leaveBranch, hi, hw] using hmem
  rw [hi, hw, List.zip_append hlength]
  exact List.mem_append_left _ hmem

/-- The branch that a conditional selects is entered. -/
theorem enterBranch (hn : n.Laid) (hp : n.Poised depth seen c) {x : Conditional} {way : Nat}
    {b : Branch} (hx : x ∈ n.conditionals) (hselect : (x.select vs).1 = some (way, b)) :
    n.Selected vs (c.enterBranch x.index way b.start) := by
  intro p hmem y b' htakes
  have hmem : p ∈ (c.conditionals ++ [x.index]).zip (c.branches ++ [(way : Int)]) := hmem
  rw [List.zip_append hp.branches_open.length_eq] at hmem
  rcases List.mem_append.mp hmem with hmem | hmem
  · exact h p hmem y b' htakes
  · obtain rfl : p = (x.index, (way : Int)) := by simpa using hmem
    obtain ⟨rfl, rfl⟩ := htakes.unique
      ⟨hn.at?_conditional hx, Conditional.select_some hselect⟩
    exact ⟨way, hselect⟩

end Selected

section Passing

variable {n : Node} {depth : Nat} {seen : List Visit} {vs : Variables} {c : Cursor}

/-- The pass over the conditionals takes branches that are selected, and jumps over no line that is
meant. -/
theorem Poised.selected_passConditionals (hn : n.Laid) (hp : n.Poised depth seen c)
    (h : n.Selected vs c) :
    n.Selected vs (n.passConditionals vs depth seen c).cursor ∧
      ∀ line, c.line ≤ line → line < (n.passConditionals vs depth seen c).cursor.line →
        ¬n.Meant vs line := by
  -- from where the cursor is, a single move only jumps over lines that are not meant
  have hjump {c' : Cursor} {stop : Int}
      (hbefore : ∀ line, c.line ≤ line → line < c'.line → ¬n.Meant vs line)
      (hmove : ∀ line, c'.line ≤ line → line < stop → ¬n.Meant vs line) :
      ∀ line, c.line ≤ line → line < stop → ¬n.Meant vs line := by
    intro line hle hlt
    rcases lt_or_ge line c'.line with hlt' | hge
    · exact hbefore line hle hlt'
    · exact hmove line hge hlt
  refine (passConditionals_induction hn vs (P := fun _ c' => n.Selected vs c' ∧
    ∀ line, c.line ≤ line → line < c'.line → ¬n.Meant vs line) ⟨?_, ?_, ?_⟩ hp
    ⟨h, fun line hle hlt => by omega⟩).2.2.1
  · -- a branch is left: what its conditional still holds is in branches that are not selected
    rintro seen' c' is i ws w x b hp' ⟨hselected, hbefore⟩ hi hw htakes hstop
    refine ⟨hselected.leaveBranch hp' hi hw x.stop, hjump hbefore fun line hle hlt => ?_⟩
    have hx : x ∈ n.conditionals := mem_of_at? htakes.1
    have hlength := hp'.length_below hi hw
    obtain ⟨way, hselect⟩ := hselected (i, w) (by simp [hi, hw, List.zip_append hlength]) x b htakes
    have hstart := hp'.start_le_of_conditional hn hx (by
      rw [hn.index_of_at?_conditional htakes.1, hi]
      simp)
    have hlt : line < max c'.line x.stop := hlt
    exact Selected.not_meant hx hselect (by omega) (by omega) (.inr (by omega))
  · -- a branch is entered: the lines before it are in other branches
    rintro seen' c' x way b hp' ⟨hselected, hbefore⟩ - hat hselect
    obtain ⟨hx, hstart, -⟩ := conditionalAt?_some hat
    refine ⟨hselected.enterBranch hn hp' hx hselect, hjump hbefore fun line hle hlt => ?_⟩
    have hwithin := (hn.conditional_laid x hx).branch_within
      (mem_of_at? (Conditional.select_some hselect))
    have hlt : line < b.start := hlt
    exact Selected.not_meant hx hselect (by omega) (by omega) (.inl hlt)
  · -- a conditional is passed over: none of its branches is selected
    rintro seen' c' x hp' ⟨hselected, hbefore⟩ - hat hselect
    obtain ⟨hx, hstart, -⟩ := conditionalAt?_some hat
    refine ⟨hselected, hjump hbefore fun line hle hlt hmeant => ?_⟩
    obtain ⟨way, b, hselect', -⟩ := hmeant x hx (by omega) hlt
    rw [hselect] at hselect'
    cases hselect'

/-- Where the conditionals have nothing more to do and the branches are those that are selected, the
line is meant. -/
theorem Housed.meant (hn : n.Laid) (hp : n.Poised depth seen c) (h : n.Housed c)
    (hsettled : n.Settled c) (hselected : n.Selected vs c) : n.Meant vs c.line := by
  intro x hx hstart hstop
  obtain ⟨way, b, hmem, hb, hbstart, hbstop⟩ := h.covered hn hp hsettled hx hstart hstop
  obtain ⟨way', hselect⟩ := hselected _ hmem x b ⟨hn.at?_conditional hx, hb⟩
  exact ⟨way', b, hselect, hbstart, hbstop⟩

variable (hdecisions : n.decisions = [])

include hdecisions

/-- In a node without decisions none is open. -/
theorem Poised.decisions_eq_nil (hp : n.Poised depth seen c) : c.decisions = [] := by
  refine List.eq_nil_iff_forall_not_mem.mpr fun i hi => ?_
  obtain ⟨way, d, o, -, ⟨hd, -⟩, -⟩ := hp.exists_picked hi
  have := mem_of_at? hd
  rw [hdecisions] at this
  cases this

/-- In a node without decisions no option is left. -/
theorem Poised.leaveOptions_eq (hp : n.Poised depth seen c) : (n.leaveOptions c).1 = c := by
  refine hp.leaveOptions_of_unfinished fun is i ws w d o hi => ?_
  rw [hp.decisions_eq_nil hdecisions] at hi
  simp at hi

end Passing

end Node

namespace Tour

variable {n : Node} {depth : Nat} {seen : List Visit} {c : Cursor} {st : Stance}
  {deeds : List Deed} (hn : n.Laid) (hdecisions : n.decisions = [])

include hn hdecisions

/-- In a node without decisions the cursor is housed throughout a tour. -/
theorem housed_of_no_decisions (h : Tour n depth seen c st deeds) (hst : st.cursor c = c) :
    n.Housed c := by
  have hnested : n.Nested := by simp [Node.Nested, hdecisions]
  rw [← hst]
  refine h.housed hn hnested fun line c' d hmem => ?_
  -- nothing has been asked
  have hasked : d ∈ deeds.filterMap Deed.asks? := List.mem_filterMap.mpr ⟨_, hmem, rfl⟩
  have := (h.asks_before hn d hasked).1
  rw [hdecisions] at this
  cases this

/-- In a node without decisions, the line at which a pass over the conditionals ends is meant. -/
theorem meant {vs : Variables} (h : Tour n depth seen c st deeds) (hst : st.GoesOn)
    (hselected : n.Selected vs c) :
    n.Meant vs (n.passConditionals vs depth seen c).cursor.line := by
  have hpoised := h.poised hn
  have hhoused := (h.housed_of_no_decisions hn hdecisions (hst.cursor_eq c)).passConditionals hn
    hpoised vs
  obtain ⟨-, hbetween, -, hunfinished, hnone⟩ := hpoised.passConditionals hn vs
  exact hhoused.meant hn hbetween (hbetween.settled hunfinished hnone)
    (hpoised.selected_passConditionals hn hselected).1

end Tour

end VisualNovel
