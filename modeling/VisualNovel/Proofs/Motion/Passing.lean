import VisualNovel.Proofs.Motion.Leaving

/-!
# Passing over blocks

What a cursor records always stands for blocks of its node that have been entered at its line or
before it. This holds at the start of a node, is kept by every single move of the cursor, and is
all that is needed for the two passes over the blocks to come to their end.

## Main definitions

* `Node.Poised`: a cursor that fits its node and the blocks that have been entered;
* `Cursor.moveTo`, `Cursor.enterBranch`, `Cursor.opening`, `Cursor.choosing`: single moves;
* `Node.KeptByMoves`: properties that the moves over the conditionals keep.

## Main results

* `Node.passConditionals_induction`: whatever each single move keeps is kept by the pass over the
  conditionals, which ends where no conditional is left to enter;
* `Node.Poised.passConditionals`: what it leaves as it is;
* `Node.passDecisions_eq`: the pass over the decisions leaves options and then looks for a decision;
* `Node.Poised.leaveOptions`: what it leaves, and what stays open.
-/

namespace VisualNovel

open List (Forall₂)

/-- Lists that are related and end with an element end with related elements. -/
theorem forall₂_concat {α β : Type} {R : α → β → Prop} {as : List α} {a : α} {bs : List β} {b : β} :
    Forall₂ R (as ++ [a]) (bs ++ [b]) ↔ Forall₂ R as bs ∧ R a b := by
  rw [← List.forall₂_reverse_iff]
  simp [and_comm]

/-- A list that is related to one with a last element has a last element. -/
theorem exists_concat_of_forall₂ {α β : Type} {R : α → β → Prop} {as : List α} {a : α}
    {bs : List β} (h : Forall₂ R (as ++ [a]) bs) : ∃ bs' b, bs = bs' ++ [b] := by
  refine exists_concat fun hnil => ?_
  rw [hnil] at h
  have := h.length_eq
  simp at this

namespace Cursor

variable (c : Cursor)

/-- The cursor at another line. -/
def moveTo (line : Int) : Cursor := { c with line }

/-- The cursor in a branch that starts at a line. -/
def enterBranch (index way line : Int) : Cursor :=
  { c with line, conditionals := c.conditionals ++ [index], branches := c.branches ++ [way] }

/-- The cursor when the reader is asked to choose. -/
def opening (index : Int) : Cursor := { c with decisions := c.decisions ++ [index] }

/-- The cursor in an option that starts at a line. -/
def choosing (way line : Int) : Cursor := { c with line, choices := c.choices ++ [way] }

end Cursor

namespace Node

/-- A cursor that fits its node, which is the innermost of so many, and the blocks that have been
entered. -/
structure Poised (n : Node) (depth : Nat) (seen : List Visit) (c : Cursor) : Prop where
  /-- The cursor is in the node or right behind it. -/
  within : 0 ≤ c.line ∧ c.line ≤ n.lines.length
  /-- Open conditionals exist and so do their branches. -/
  branches_open : Forall₂ (n.BranchOpen c.line) c.conditionals c.branches
  /-- Open decisions exist and so do the options chosen in them. -/
  options_open : Forall₂ (n.OptionOpen c.line) c.decisions c.choices
  /-- A decision is opened inside another one only if it has no lines. -/
  inner_empty : ∀ i ∈ c.decisions.tail, ∀ d, at? n.decisions i = some d → d.stop ≤ c.line
  /-- A conditional that has been entered is open or lies behind. -/
  seen_conditionals : ∀ x ∈ n.conditionals, n.visit depth .conditional x.index ∈ seen →
    x.start ≤ c.line ∧ (x.index ∈ c.conditionals ∨ x.stop ≤ c.line)
  /-- A decision that has been entered is open or lies behind. -/
  seen_decisions : ∀ d ∈ n.decisions, n.visit depth .decision d.index ∈ seen →
    d.start ≤ c.line ∧ (d.index ∈ c.decisions ∨ d.stop ≤ c.line)

/-- What is found in a list is found before whatever comes later, so what comes earlier is not what
is looked for. -/
theorem not_of_find?_of_lt {α : Type} {l : List α} {index : α → Int} {p : α → Bool} {x y : α}
    (hindex : ∀ (i : Nat) (a : α), l[i]? = some a → index a = i) (hx : l.find? p = some x)
    (hy : y ∈ l) (hlt : index y < index x) : p y = false := by
  obtain ⟨-, before, after, hsplit, hbefore⟩ := List.find?_eq_some_iff_append.mp hx
  have hmem : y ∈ before := by
    rw [hsplit, List.mem_append, List.mem_cons] at hy
    rcases hy with hy | rfl | hy
    · exact hy
    · exact absurd hlt (lt_irrefl _)
    · -- the numbers of what comes after `x` are greater
      obtain ⟨k, hk⟩ := List.mem_iff_getElem?.mp hy
      have hx' : index x = before.length := hindex _ x (by simp [hsplit])
      have hy' : index y = (before.length + 1 + k : Nat) := by
        refine hindex _ y ?_
        rw [hsplit, List.getElem?_append_right (by omega),
          show before.length + 1 + k - before.length = k + 1 by omega, List.getElem?_cons_succ]
        exact hk
      omega
  simpa using hbefore y hmem

section Looking

variable {n : Node} {depth : Nat} {seen : List Visit} {c : Cursor}

/-- A conditional that is found at the cursor. -/
theorem conditionalAt?_some {x : Conditional} (h : n.conditionalAt? depth seen c = some x) :
    x ∈ n.conditionals ∧ x.start = c.line ∧ x.index ∉ c.conditionals ∧
      n.visit depth .conditional x.index ∉ seen := by
  have hx := List.find?_some h
  simp only [Bool.and_eq_true, decide_eq_true_eq, Bool.not_eq_true', List.contains_eq_mem,
    decide_eq_false_iff_not] at hx
  exact ⟨List.mem_of_find?_eq_some h, hx.1.1, hx.1.2, hx.2⟩

/-- If no conditional is found at the cursor, those that start there are open or have been
entered. -/
theorem conditionalAt?_none (h : n.conditionalAt? depth seen c = none) {x : Conditional}
    (hx : x ∈ n.conditionals) (hstart : x.start = c.line) :
    x.index ∈ c.conditionals ∨ n.visit depth .conditional x.index ∈ seen := by
  have := List.find?_eq_none.mp h x hx
  simp only [hstart, decide_true, Bool.true_and, Bool.and_eq_true, Bool.not_eq_true',
    List.contains_eq_mem, decide_eq_false_iff_not, not_and, not_not] at this
  by_cases hopen : x.index ∈ c.conditionals
  · exact .inl hopen
  · exact .inr (this hopen)

/-- A conditional is found before those with greater numbers. -/
theorem conditionalAt?_first (hn : n.Laid) {x y : Conditional}
    (h : n.conditionalAt? depth seen c = some x) (hy : y ∈ n.conditionals)
    (hlt : y.index < x.index) (hstart : y.start = c.line) :
    y.index ∈ c.conditionals ∨ n.visit depth .conditional y.index ∈ seen := by
  have hnot := not_of_find?_of_lt hn.conditional_index h hy hlt
  simp only [hstart, decide_true, Bool.true_and, Bool.and_eq_false_iff, Bool.not_eq_false',
    List.contains_eq_mem, decide_eq_true_eq] at hnot
  exact hnot

/-- A decision that is found at the cursor. -/
theorem decisionAt?_some {d : Decision} (h : n.decisionAt? depth seen c = some d) :
    d ∈ n.decisions ∧ d.start = c.line ∧ d.index ∉ c.decisions ∧
      n.visit depth .decision d.index ∉ seen := by
  have hd := List.find?_some h
  simp only [Bool.and_eq_true, decide_eq_true_eq, Bool.not_eq_true', List.contains_eq_mem,
    decide_eq_false_iff_not] at hd
  exact ⟨List.mem_of_find?_eq_some h, hd.1.1, hd.1.2, hd.2⟩

/-- A decision is found before those with greater numbers. -/
theorem decisionAt?_first (hn : n.Laid) {d e : Decision}
    (h : n.decisionAt? depth seen c = some d) (he : e ∈ n.decisions) (hlt : e.index < d.index)
    (hstart : e.start = c.line) :
    e.index ∈ c.decisions ∨ n.visit depth .decision e.index ∈ seen := by
  have hnot := not_of_find?_of_lt hn.decision_index h he hlt
  simp only [hstart, decide_true, Bool.true_and, Bool.and_eq_false_iff, Bool.not_eq_false',
    List.contains_eq_mem, decide_eq_true_eq] at hnot
  exact hnot

/-- If no decision is found at the cursor, those that start there are open or have been entered. -/
theorem decisionAt?_none (h : n.decisionAt? depth seen c = none) {d : Decision}
    (hd : d ∈ n.decisions) (hstart : d.start = c.line) :
    d.index ∈ c.decisions ∨ n.visit depth .decision d.index ∈ seen := by
  have := List.find?_eq_none.mp h d hd
  simp only [hstart, decide_true, Bool.true_and, Bool.and_eq_true, Bool.not_eq_true',
    List.contains_eq_mem, decide_eq_false_iff_not, not_and, not_not] at this
  by_cases hopen : d.index ∈ c.decisions
  · exact .inl hopen
  · exact .inr (this hopen)

end Looking

namespace Poised

variable {n : Node} {depth : Nat} {seen : List Visit} {c : Cursor}

/-- A node is entered at its first line. -/
theorem init (n : Node) (depth : Nat) (seen : List Visit)
    (hseen : ∀ kind index, n.visit depth kind index ∉ seen) : n.Poised depth seen {} where
  within := ⟨le_rfl, Int.natCast_nonneg _⟩
  branches_open := .nil
  options_open := .nil
  inner_empty := by simp
  seen_conditionals x _ hx := absurd hx (hseen _ _)
  seen_decisions d _ hd := absurd hd (hseen _ _)

/-- Visits to other places do not matter, and visits may be forgotten. -/
theorem forget (h : n.Poised depth seen c) {seen' : List Visit}
    (hseen : ∀ kind index, n.visit depth kind index ∈ seen' → n.visit depth kind index ∈ seen) :
    n.Poised depth seen' c :=
  { h with
    seen_conditionals := fun x hx hmem => h.seen_conditionals x hx (hseen _ _ hmem)
    seen_decisions := fun d hd hmem => h.seen_decisions d hd (hseen _ _ hmem) }

/-- The cursor moves forwards within the node. -/
theorem moveTo (h : n.Poised depth seen c) (line : Int) (hle : c.line ≤ line)
    (hlen : line ≤ n.lines.length) : n.Poised depth seen (c.moveTo line) where
  within := ⟨le_trans h.within.1 hle, hlen⟩
  branches_open := h.branches_open.imp fun _ _ hopen => hopen.mono hle
  options_open := h.options_open.imp fun _ _ hopen => hopen.mono hle
  inner_empty i hi d hd := le_trans (h.inner_empty i hi d hd) hle
  seen_conditionals x hx hmem := by
    obtain ⟨hstart, hopen⟩ := h.seen_conditionals x hx hmem
    exact ⟨le_trans hstart hle, hopen.imp_right fun hstop => le_trans hstop hle⟩
  seen_decisions d hd hmem := by
    obtain ⟨hstart, hopen⟩ := h.seen_decisions d hd hmem
    exact ⟨le_trans hstart hle, hopen.imp_right fun hstop => le_trans hstop hle⟩

/-- As many options have been chosen as decisions are open. -/
theorem length_choices (h : n.Poised depth seen c) : c.choices.length = c.decisions.length :=
  h.options_open.length_eq.symm

/-- Below the innermost conditional as many branches have been taken as there are conditionals. -/
theorem length_below (h : n.Poised depth seen c) {is ws : List Int} {i w : Int}
    (hi : c.conditionals = is ++ [i]) (hw : c.branches = ws ++ [w]) : is.length = ws.length := by
  have hlength := h.branches_open.length_eq
  rw [hi, hw] at hlength
  simpa using hlength

/-- A branch has been taken in each conditional that is open. -/
theorem exists_taken (h : n.Poised depth seen c) {i : Int} (hi : i ∈ c.conditionals) :
    ∃ way x b, (i, way) ∈ c.conditionals.zip c.branches ∧ n.Takes i way x b ∧
      b.start ≤ c.line := by
  rw [← List.map_fst_zip (le_of_eq h.branches_open.length_eq)] at hi
  obtain ⟨⟨i, way⟩, hmem, rfl⟩ := List.mem_map.mp hi
  obtain ⟨x, b, htakes, hstart⟩ := List.forall₂_zip h.branches_open hmem
  exact ⟨way, x, b, hmem, htakes, hstart⟩

/-- An option has been chosen in each decision that is open. -/
theorem exists_picked (h : n.Poised depth seen c) {i : Int} (hi : i ∈ c.decisions) :
    ∃ way d o, (i, way) ∈ c.decisions.zip c.choices ∧ n.Picks i way d o ∧ o.start ≤ c.line := by
  rw [← List.map_fst_zip (le_of_eq h.options_open.length_eq)] at hi
  obtain ⟨⟨i, way⟩, hmem, rfl⟩ := List.mem_map.mp hi
  obtain ⟨d, o, hpicks, hstart⟩ := List.forall₂_zip h.options_open hmem
  exact ⟨way, d, o, hmem, hpicks, hstart⟩

variable (hn : n.Laid)

include hn

/-- A conditional that is open has started at the line or before it. -/
theorem start_le_of_conditional (h : n.Poised depth seen c) {x : Conditional}
    (hx : x ∈ n.conditionals) (hopen : x.index ∈ c.conditionals) : x.start ≤ c.line := by
  obtain ⟨way, x', b, -, ⟨hx', hb⟩, hstart⟩ := h.exists_taken hopen
  obtain rfl := Option.some.inj (hx'.symm.trans (hn.at?_conditional hx))
  exact le_trans ((hn.conditional_laid x' hx).branch_within (mem_of_at? hb)).1 hstart

/-- A decision that is open has started at the line or before it. -/
theorem start_le_of_decision (h : n.Poised depth seen c) {d : Decision} (hd : d ∈ n.decisions)
    (hopen : d.index ∈ c.decisions) : d.start ≤ c.line := by
  obtain ⟨way, d', o, -, ⟨hd', ho⟩, hstart⟩ := h.exists_picked hopen
  obtain rfl := Option.some.inj (hd'.symm.trans (hn.at?_decision hd))
  exact le_trans ((hn.decision_laid d' hd).option_within (mem_of_at? ho)).1 hstart

/-- A branch is left. -/
theorem leaveBranch (h : n.Poised depth seen c) {is ws : List Int} {i w : Int} {x : Conditional}
    {b : Branch} (hi : c.conditionals = is ++ [i]) (hw : c.branches = ws ++ [w])
    (htakes : n.Takes i w x b) : n.Poised depth seen (c.leaveBranch x.stop) := by
  have hx : x ∈ n.conditionals := mem_of_at? htakes.1
  -- the line moves to the end of the conditional first, then the conditional is closed
  have hmoved := h.moveTo (max c.line x.stop) (le_max_left _ _)
    (max_le h.within.2 (hn.conditional_within x hx).2)
  have hopen := hmoved.branches_open
  simp only [Cursor.moveTo, hi, hw] at hopen
  refine { hmoved with branches_open := ?_, seen_conditionals := ?_ }
  · simpa [Cursor.leaveBranch, hi, hw] using (forall₂_concat.mp hopen).1
  · intro y hy hmem
    obtain ⟨hstart, hopen | hstop⟩ := hmoved.seen_conditionals y hy hmem
    · refine ⟨hstart, ?_⟩
      simp only [Cursor.moveTo, hi, List.mem_append, List.mem_singleton] at hopen
      rcases hopen with hopen | rfl
      · exact .inl (by simpa [Cursor.leaveBranch, hi] using hopen)
      · obtain rfl := Option.some.inj (htakes.1.symm.trans (hn.at?_conditional hy))
        exact .inr (le_max_right _ _)
    · exact ⟨hstart, .inr hstop⟩

/-- An option is left. -/
theorem leaveOption (h : n.Poised depth seen c) {is ws : List Int} {i w : Int} {d : Decision}
    {o : Choice} (hi : c.decisions = is ++ [i]) (hw : c.choices = ws ++ [w])
    (hpicks : n.Picks i w d o) : n.Poised depth seen (c.leaveOption d.stop) := by
  have hd : d ∈ n.decisions := mem_of_at? hpicks.1
  -- the line moves to the end of the decision first, then the decision is closed
  have hmoved := h.moveTo (max c.line d.stop) (le_max_left _ _)
    (max_le h.within.2 (hn.decision_within d hd).2)
  have hopen := hmoved.options_open
  simp only [Cursor.moveTo, hi, hw] at hopen
  refine { hmoved with options_open := ?_, inner_empty := ?_, seen_decisions := ?_ }
  · simpa [Cursor.leaveOption, hi, hw] using (forall₂_concat.mp hopen).1
  · intro j hj
    refine hmoved.inner_empty j ?_
    have hj : j ∈ is.tail := by simpa [Cursor.leaveOption, hi] using hj
    rw [Cursor.moveTo, hi]
    -- the decision that is left is the last one, so it is behind the first if there is one
    cases is with
    | nil => cases hj
    | cons i' is' => exact List.mem_append_left _ hj
  · intro e he hmem
    obtain ⟨hstart, hopen | hstop⟩ := hmoved.seen_decisions e he hmem
    · refine ⟨hstart, ?_⟩
      simp only [Cursor.moveTo, hi, List.mem_append, List.mem_singleton] at hopen
      rcases hopen with hopen | rfl
      · exact .inl (by simpa [Cursor.leaveOption, hi] using hopen)
      · obtain rfl := Option.some.inj (hpicks.1.symm.trans (hn.at?_decision he))
        exact .inr (le_max_right _ _)
    · exact ⟨hstart, .inr hstop⟩

/-- The branch of a conditional at the cursor is entered. -/
theorem enterBranch (h : n.Poised depth seen c) {x : Conditional} {way : Int} {b : Branch}
    (hx : x ∈ n.conditionals) (hstart : x.start = c.line) (hb : at? x.branches way = some b) :
    n.Poised depth (n.visit depth .conditional x.index :: seen)
      (c.enterBranch x.index way b.start) := by
  have hwithin := (hn.conditional_laid x hx).branch_within (mem_of_at? hb)
  have hlen := (hn.conditional_within x hx).2
  have hmoved := h.moveTo b.start (by omega) (by omega)
  refine { hmoved with branches_open := ?_, seen_conditionals := ?_, seen_decisions := ?_ }
  · exact forall₂_concat.mpr ⟨hmoved.branches_open, x, b, ⟨hn.at?_conditional hx, hb⟩, le_rfl⟩
  · intro y hy hmem
    rcases List.mem_cons.mp hmem with heq | hmem
    · have hindex : y.index = x.index := by simpa [Node.visit] using heq
      obtain rfl := hn.conditional_ext hy hx hindex
      exact ⟨hwithin.1, .inl (by simp [Cursor.enterBranch])⟩
    · obtain ⟨hle, hopen⟩ := hmoved.seen_conditionals y hy hmem
      exact ⟨hle, hopen.imp_left fun hopen => List.mem_append_left _ hopen⟩
  · intro d hd hmem
    exact hmoved.seen_decisions d hd (by simpa [Node.visit] using hmem)

/-- A conditional at the cursor is passed over. -/
theorem skip (h : n.Poised depth seen c) {x : Conditional} (hx : x ∈ n.conditionals)
    (hstart : x.start = c.line) :
    n.Poised depth (n.visit depth .conditional x.index :: seen) (c.moveTo x.stop) := by
  have hle := (hn.conditional_laid x hx).start_le_stop
  have hmoved := h.moveTo x.stop (by omega) (hn.conditional_within x hx).2
  refine { hmoved with seen_conditionals := ?_, seen_decisions := ?_ }
  · intro y hy hmem
    -- the conditional that has been passed over lies behind, the others are as they were
    rcases List.mem_cons.mp hmem with heq | hmem
    · have hindex : y.index = x.index := by simpa [Node.visit] using heq
      obtain rfl := hn.conditional_ext hy hx hindex
      exact ⟨hle, .inr le_rfl⟩
    · exact hmoved.seen_conditionals y hy hmem
  · intro d hd hmem
    exact hmoved.seen_decisions d hd (by simpa [Node.visit] using hmem)

end Poised

end Node

/-- The branch that is selected is one of those tried, at its number. -/
theorem Branch.select_some {vs : Variables} {k way : Nat} {bs : List Branch} {b : Branch}
    (h : (Branch.select vs k bs).1 = some (way, b)) : ∃ i, way = k + i ∧ bs[i]? = some b := by
  induction bs generalizing k with
  | nil => cases h
  | cons b' bs ih =>
    unfold Branch.select at h
    split at h
    · obtain ⟨rfl, rfl⟩ := Prod.mk.inj (Option.some.inj h)
      exact ⟨0, rfl, rfl⟩
    · obtain ⟨i, rfl, hi⟩ := ih h
      exact ⟨i + 1, by omega, hi⟩

/-- The branch that is selected is one of the conditional, at its number. -/
theorem Conditional.select_some {vs : Variables} {x : Conditional} {way : Nat} {b : Branch}
    (h : (x.select vs).1 = some (way, b)) : at? x.branches (way : Int) = some b := by
  refine at?_eq_some_iff.mpr ⟨way, rfl, ?_⟩
  -- the branches with a condition come first, the one without follows them
  cases hfound : (Branch.select vs 0 x.guarded).1 with
  | some found =>
    obtain rfl : found = (way, b) := by simpa [select, hfound] using h
    obtain ⟨i, rfl, hi⟩ := Branch.select_some hfound
    rw [Nat.zero_add, Conditional.branches, List.getElem?_append_left]
    · exact hi
    · exact (List.getElem?_eq_some_iff.mp hi).1
  | none =>
    obtain ⟨hother, rfl⟩ : x.otherwise = some b ∧ x.guarded.length = way := by
      simpa [select, hfound] using h
    simp [branches, hother]

namespace Node

variable {n : Node} {depth : Nat} {seen : List Visit} {c : Cursor}

/-- The conditionals that have not been entered. -/
def unseen (n : Node) (depth : Nat) (seen : List Visit) : List Conditional :=
  n.conditionals.filter fun x => !seen.contains (n.visit depth .conditional x.index)

/-- Entering a conditional leaves fewer to enter. -/
theorem length_unseen_cons {x : Conditional} (hx : x ∈ n.conditionals)
    (hseen : n.visit depth .conditional x.index ∉ seen) :
    (n.unseen depth (n.visit depth .conditional x.index :: seen)).length <
      (n.unseen depth seen).length := by
  -- entering a conditional takes exactly this one away
  have hsub : n.unseen depth (n.visit depth .conditional x.index :: seen) =
      (n.unseen depth seen).filter fun y => y.index ≠ x.index := by
    simp only [unseen, List.filter_filter]
    refine List.filter_congr fun y _ => ?_
    by_cases hy : y.index = x.index <;> simp [Node.visit, hy]
  rw [hsub]
  refine List.length_filter_lt_length_iff_exists.mpr ⟨x, ?_, by simp⟩
  simpa [unseen, hx] using hseen

/-- A property of the visits and the cursor is kept by each single move over the conditionals. -/
structure KeptByMoves (n : Node) (depth : Nat) (vs : Variables) (P : List Visit → Cursor → Prop) :
    Prop where
  /-- A branch that has come to its end is left. -/
  leave : ∀ seen c is i ws w x b, n.Poised depth seen c → P seen c →
    c.conditionals = is ++ [i] → c.branches = ws ++ [w] → n.Takes i w x b → b.stop ≤ c.line →
    P seen (c.leaveBranch x.stop)
  /-- The branch that is selected is entered. -/
  enter : ∀ seen c x (way : Nat) b, n.Poised depth seen c → P seen c → n.BranchUnfinished c →
    n.conditionalAt? depth seen c = some x → (x.select vs).1 = some (way, b) →
    P (n.visit depth .conditional x.index :: seen) (c.enterBranch x.index way b.start)
  /-- A conditional of which no branch is selected is passed over. -/
  skip : ∀ seen c x, n.Poised depth seen c → P seen c → n.BranchUnfinished c →
    n.conditionalAt? depth seen c = some x → (x.select vs).1 = none →
    P (n.visit depth .conditional x.index :: seen) (c.moveTo x.stop)

/-- Whatever each single move over the conditionals keeps is kept by a pass that is long enough. It
ends in a branch that goes on, where no conditional is left to enter. -/
theorem passConditionalsUpTo_induction (hn : n.Laid) (vs : Variables)
    {P : List Visit → Cursor → Prop} (hkept : n.KeptByMoves depth vs P)
    {k : Nat} {m : Motion} (hp : n.Poised depth m.seen m.cursor)
    (h : P m.seen m.cursor) (hk : (n.unseen depth m.seen).length < k) :
    (n.passConditionalsUpTo vs depth k m).stuck = false ∧
      n.Poised depth (n.passConditionalsUpTo vs depth k m).seen
        (n.passConditionalsUpTo vs depth k m).cursor ∧
      P (n.passConditionalsUpTo vs depth k m).seen
        (n.passConditionalsUpTo vs depth k m).cursor ∧
      n.BranchUnfinished (n.passConditionalsUpTo vs depth k m).cursor ∧
      n.conditionalAt? depth (n.passConditionalsUpTo vs depth k m).seen
        (n.passConditionalsUpTo vs depth k m).cursor = none := by
  -- on the number of rounds, of which there are more than conditionals to enter; each round
  -- leaves branches and then enters one conditional, unless the pass ends there
  induction k generalizing m with
  | zero => omega
  | succ k ih =>
    obtain ⟨hstuck, ⟨hp', h'⟩, hunfinished⟩ := leaveBranches_induction
      (P := fun c => n.Poised depth m.seen c ∧ P m.seen c) hp.branches_open ⟨hp, h⟩
      (fun c is i ws w x b ⟨hp, h⟩ hi hw htakes hstop =>
        ⟨hp.leaveBranch hn hi hw htakes, hkept.leave _ c is i ws w x b hp h hi hw htakes hstop⟩)
    unfold passConditionalsUpTo
    rcases hleft : n.leaveBranches m.cursor with ⟨c, stuck⟩
    rw [hleft] at hstuck hp' h' hunfinished
    obtain rfl : stuck = false := hstuck
    simp only [Bool.false_eq_true, if_false]
    cases hat : n.conditionalAt? depth m.seen c with
    | none => exact ⟨rfl, hp', h', hunfinished, hat⟩
    | some x =>
      obtain ⟨hx, hstart, -, hseen⟩ := conditionalAt?_some hat
      -- the round enters a conditional, which is one less for the rounds that follow
      have hfewer := length_unseen_cons hx hseen
      dsimp only [enterConditional]
      rcases hselect : x.select vs with ⟨choice, faults⟩
      cases choice with
      | none =>
        refine ih ?_ ?_ (by dsimp only; omega)
        · exact hp'.skip hn hx hstart
        · exact hkept.skip _ c x hp' h' hunfinished hat (by rw [hselect])
      | some chosen =>
        obtain ⟨way, b⟩ := chosen
        have hselect : (x.select vs).1 = some (way, b) := by rw [hselect]
        refine ih ?_ ?_ (by dsimp only; omega)
        · exact hp'.enterBranch hn hx hstart (Conditional.select_some hselect)
        · exact hkept.enter _ c x way b hp' h' hunfinished hat hselect

/-- Whatever each single move over the conditionals keeps is kept by the pass over them. It ends in
a branch that goes on, where no conditional is left to enter. -/
theorem passConditionals_induction (hn : n.Laid) (vs : Variables)
    {P : List Visit → Cursor → Prop} (hkept : n.KeptByMoves depth vs P)
    (hp : n.Poised depth seen c) (h : P seen c) :
    (n.passConditionals vs depth seen c).stuck = false ∧
      n.Poised depth (n.passConditionals vs depth seen c).seen
        (n.passConditionals vs depth seen c).cursor ∧
      P (n.passConditionals vs depth seen c).seen (n.passConditionals vs depth seen c).cursor ∧
      n.BranchUnfinished (n.passConditionals vs depth seen c).cursor ∧
      n.conditionalAt? depth (n.passConditionals vs depth seen c).seen
        (n.passConditionals vs depth seen c).cursor = none := by
  -- there are no more unseen conditionals than conditionals, so the rounds are enough
  refine passConditionalsUpTo_induction hn vs hkept (m := ⟨c, seen, [], false⟩) hp h ?_
  exact Nat.lt_succ_of_le (List.length_filter_le _ _)

/-- A cursor that has passed over conditionals, and the blocks that have been entered then. -/
structure PassedConditionals (n : Node) (depth : Nat) (seen : List Visit) (c : Cursor)
    (seen' : List Visit) (c' : Cursor) : Prop where
  /-- The open decisions are the same. -/
  decisions : c'.decisions = c.decisions
  /-- The options chosen in them are the same. -/
  choices : c'.choices = c.choices
  /-- The cursor does not go back. -/
  line_le : c.line ≤ c'.line
  /-- No visit is forgotten. -/
  seen_mono : ∀ v ∈ seen, v ∈ seen'
  /-- Only conditionals of the node have been entered. -/
  seen_new : ∀ v ∈ seen', v ∈ seen ∨ ∃ index, v = n.visit depth .conditional index

/-- A further conditional has been visited, and the cursor has moved on in it or behind it. -/
theorem PassedConditionals.visit {seen' : List Visit} {c' c'' : Cursor}
    (h : n.PassedConditionals depth seen c seen' c') (x : Conditional)
    (hdecisions : c''.decisions = c'.decisions) (hchoices : c''.choices = c'.choices)
    (hline : c'.line ≤ c''.line) :
    n.PassedConditionals depth seen c (n.visit depth .conditional x.index :: seen') c'' where
  decisions := hdecisions.trans h.decisions
  choices := hchoices.trans h.choices
  line_le := le_trans h.line_le hline
  seen_mono v hv := List.mem_cons_of_mem _ (h.seen_mono v hv)
  seen_new v hv := by
    rcases List.mem_cons.mp hv with rfl | hv
    · exact .inr ⟨x.index, rfl⟩
    · exact h.seen_new v hv

/-- The pass over the conditionals leads to a poised cursor. -/
theorem Poised.passConditionals (hn : n.Laid) (h : n.Poised depth seen c) (vs : Variables) :
    (n.passConditionals vs depth seen c).stuck = false ∧
      n.Poised depth (n.passConditionals vs depth seen c).seen
        (n.passConditionals vs depth seen c).cursor ∧
      n.PassedConditionals depth seen c (n.passConditionals vs depth seen c).seen
        (n.passConditionals vs depth seen c).cursor ∧
      n.BranchUnfinished (n.passConditionals vs depth seen c).cursor ∧
      n.conditionalAt? depth (n.passConditionals vs depth seen c).seen
        (n.passConditionals vs depth seen c).cursor = none := by
  -- leaving, entering and passing over move the cursor forwards and touch no decision
  refine passConditionals_induction hn vs (P := n.PassedConditionals depth seen c) ⟨?_, ?_, ?_⟩ h
    ⟨rfl, rfl, le_rfl, fun v hv => hv, fun v hv => .inl hv⟩
  · intro seen' c' is i ws w x b _ hpassed _ _ _ _
    exact { hpassed with line_le := le_trans hpassed.line_le (le_max_left _ _) }
  · intro seen' c' x way b _ hpassed _ hat hselect
    obtain ⟨hx, hstart, -⟩ := conditionalAt?_some hat
    have hwithin := (hn.conditional_laid x hx).branch_within
      (mem_of_at? (Conditional.select_some hselect))
    exact hpassed.visit x rfl rfl (hstart ▸ hwithin.1)
  · intro seen' c' x _ hpassed _ hat _
    obtain ⟨hx, hstart, -⟩ := conditionalAt?_some hat
    exact hpassed.visit x rfl rfl (hstart ▸ (hn.conditional_laid x hx).start_le_stop)

/-- The conditionals at a cursor have nothing more to do there: the innermost branch goes on, and a
conditional that starts at the line is open or has no lines. -/
structure Settled (n : Node) (c : Cursor) : Prop where
  /-- The innermost branch goes on. -/
  unfinished : n.BranchUnfinished c
  /-- What starts at the line is open or has no lines. -/
  at_line : ∀ x ∈ n.conditionals, x.start = c.line →
    x.index ∈ c.conditionals ∨ x.stop ≤ c.line

/-- The decisions do not matter for this. -/
theorem Settled.congr {c' : Cursor} (h : n.Settled c) (hline : c'.line = c.line)
    (hconditionals : c'.conditionals = c.conditionals) (hbranches : c'.branches = c.branches) :
    n.Settled c' := by
  refine ⟨?_, ?_⟩
  · intro is i ws w x b hi hw htakes
    rw [hline]
    exact h.unfinished is i ws w x b (hconditionals ▸ hi) (hbranches ▸ hw) htakes
  · intro x hx hstart
    rw [hconditionals, hline]
    exact h.at_line x hx (hstart.trans hline)

/-- Where a pass over the conditionals has come to its end, they have nothing more to do. -/
theorem Poised.settled (h : n.Poised depth seen c) (hunfinished : n.BranchUnfinished c)
    (hnone : n.conditionalAt? depth seen c = none) : n.Settled c where
  unfinished := hunfinished
  at_line x hx hstart := by
    rcases conditionalAt?_none hnone hx hstart with hopen | hseen
    · exact .inl hopen
    · exact (h.seen_conditionals x hx hseen).2

/-- A cursor that is another one but for branches of conditionals without lines, inside those of the
other. -/
def InEmpty (n : Node) (c c' : Cursor) : Prop :=
  ∃ is ws, c' = { c with conditionals := c.conditionals ++ is, branches := c.branches ++ ws } ∧
    Forall₂ (fun i w => ∃ x b, n.Takes i w x b ∧ x.stop ≤ c.line) is ws

namespace InEmpty

variable {c' : Cursor}

/-- A branch that is left has no lines. -/
theorem leaveBranch (h : n.InEmpty c c') (hunfinished : n.BranchUnfinished c) {is ws : List Int}
    {i w : Int} {x : Conditional} {b : Branch} (hi : c'.conditionals = is ++ [i])
    (hw : c'.branches = ws ++ [w]) (htakes : n.Takes i w x b) (hstop : b.stop ≤ c'.line) :
    n.InEmpty c (c'.leaveBranch x.stop) := by
  obtain ⟨js, vs, rfl, hempty⟩ := h
  dsimp only at hi hw hstop
  -- a branch of the other cursor itself goes on, so only one of the additional ones is left
  rcases List.eq_nil_or_concat js with rfl | ⟨js, j, rfl⟩
  · obtain rfl : vs = [] := by simpa using hempty
    have := hunfinished is i ws w x b (by simpa using hi) (by simpa using hw) htakes
    omega
  · rw [List.concat_eq_append] at hempty hi
    obtain ⟨vs, v, rfl⟩ := exists_concat_of_forall₂ hempty
    obtain ⟨hrest, x', b', htakes', hstop'⟩ := forall₂_concat.mp hempty
    rw [← List.append_assoc] at hi hw
    obtain rfl := (List.cons.inj (List.append_inj' hi rfl).2).1
    obtain rfl := (List.cons.inj (List.append_inj' hw rfl).2).1
    obtain ⟨rfl, rfl⟩ := htakes.unique htakes'
    refine ⟨js, vs, ?_, hrest⟩
    simp only [Cursor.leaveBranch, max_eq_left hstop', List.concat_eq_append,
      ← List.append_assoc, List.dropLast_concat]

/-- A conditional that is entered has no lines. -/
theorem stop_le (h : n.InEmpty c c') (hsettled : n.Settled c) {x : Conditional}
    (hat : n.conditionalAt? depth seen c' = some x) : x.stop ≤ c.line := by
  obtain ⟨is, ws, rfl, -⟩ := h
  obtain ⟨hx, hstart, hopen, -⟩ := conditionalAt?_some hat
  refine (hsettled.at_line x hx hstart).resolve_left fun hmem => hopen ?_
  exact List.mem_append_left _ hmem

/-- A branch that is entered has no lines. -/
theorem enterBranch (hn : n.Laid) (h : n.InEmpty c c') (hsettled : n.Settled c) {x : Conditional}
    {way : Int} {b : Branch} (hat : n.conditionalAt? depth seen c' = some x)
    (hb : at? x.branches way = some b) :
    n.InEmpty c (c'.enterBranch x.index way b.start) := by
  have hstop := h.stop_le hsettled hat
  obtain ⟨is, ws, rfl, hempty⟩ := h
  obtain ⟨hx, hstart, -⟩ := conditionalAt?_some hat
  dsimp only at hstart
  have hwithin := (hn.conditional_laid x hx).branch_within (mem_of_at? hb)
  have hline : b.start = c.line := by omega
  refine ⟨is ++ [x.index], ws ++ [way], by simp [Cursor.enterBranch, hline], ?_⟩
  exact forall₂_concat.mpr ⟨hempty, x, b, ⟨hn.at?_conditional hx, hb⟩, hstop⟩

/-- A conditional that is passed over has no lines. -/
theorem skip (hn : n.Laid) (h : n.InEmpty c c') (hsettled : n.Settled c) {x : Conditional}
    (hat : n.conditionalAt? depth seen c' = some x) : n.InEmpty c (c'.moveTo x.stop) := by
  have hstop := h.stop_le hsettled hat
  obtain ⟨is, ws, rfl, hempty⟩ := h
  obtain ⟨hx, hstart, -⟩ := conditionalAt?_some hat
  dsimp only at hstart
  have hle := (hn.conditional_laid x hx).start_le_stop
  have hline : x.stop = c.line := by omega
  exact ⟨is, ws, by simp [Cursor.moveTo, hline], hempty⟩

/-- If the innermost branch goes on, there are no such branches. -/
theorem eq_of_unfinished (hn : n.Laid) (h : n.InEmpty c c') (hunfinished : n.BranchUnfinished c') :
    c' = c := by
  obtain ⟨is, ws, rfl, hempty⟩ := h
  -- the last of them would be finished, since it has no lines
  rcases List.eq_nil_or_concat is with rfl | ⟨is, i, rfl⟩
  · obtain rfl : ws = [] := by simpa using hempty
    simp
  · rw [List.concat_eq_append] at hempty hunfinished
    obtain ⟨ws, w, rfl⟩ := exists_concat_of_forall₂ hempty
    obtain ⟨-, x, b, htakes, hstop⟩ := forall₂_concat.mp hempty
    have hlt := hunfinished (c.conditionals ++ is) i (c.branches ++ ws) w x b (by simp) (by simp)
      htakes
    have hwithin := (hn.conditional_laid x (mem_of_at? htakes.1)).branch_within
      (mem_of_at? htakes.2)
    dsimp only at hlt
    omega

end InEmpty

/-- A pass over conditionals that have nothing more to do leaves the cursor as it is, whatever has
been entered before. -/
theorem Poised.passConditionals_of_settled (hn : n.Laid) (h : n.Poised depth seen c)
    (hsettled : n.Settled c) (vs : Variables) :
    (n.passConditionals vs depth seen c).cursor = c := by
  -- branches without lines may be entered on the way, but they are left again
  have hpass := passConditionals_induction hn vs (P := fun _ c' => n.InEmpty c c')
    { leave := fun _ _ _ _ _ _ _ _ _ hempty hi hw htakes hstop =>
        hempty.leaveBranch hsettled.unfinished hi hw htakes hstop
      enter := fun _ _ _ _ _ _ hempty _ hat hselect =>
        hempty.enterBranch hn hsettled hat (Conditional.select_some hselect)
      skip := fun _ _ _ _ hempty _ hat _ => hempty.skip hn hsettled hat }
    h ⟨[], [], by simp, .nil⟩
  exact hpass.2.2.1.eq_of_unfinished hn hpass.2.2.2.1

/-- The innermost option of a poised cursor exists. -/
theorem Poised.exists_option (h : n.Poised depth seen c) {is : List Int} {i : Int}
    (hi : c.decisions = is ++ [i]) :
    ∃ ws w d o, c.choices = ws ++ [w] ∧ n.Picks i w d o ∧ o.start ≤ c.line := by
  have hopen := h.options_open
  rw [hi] at hopen
  obtain ⟨ws, w, hw⟩ := exists_concat_of_forall₂ hopen
  rw [hw] at hopen
  obtain ⟨-, d, o, hpicks, hstart⟩ := forall₂_concat.mp hopen
  exact ⟨ws, w, d, o, hw, hpicks, hstart⟩

/-- The innermost branch of a poised cursor exists. -/
theorem Poised.exists_branch (h : n.Poised depth seen c) {is : List Int} {i : Int}
    (hi : c.conditionals = is ++ [i]) :
    ∃ ws w x b, c.branches = ws ++ [w] ∧ n.Takes i w x b ∧ b.start ≤ c.line := by
  have hopen := h.branches_open
  rw [hi] at hopen
  obtain ⟨ws, w, hw⟩ := exists_concat_of_forall₂ hopen
  rw [hw] at hopen
  obtain ⟨-, x, b, htakes, hstart⟩ := forall₂_concat.mp hopen
  exact ⟨ws, w, x, b, hw, htakes, hstart⟩

/-- A cursor that has left options, and only those that are finished. -/
structure LeftOptions (n : Node) (c c' : Cursor) : Prop where
  /-- The open conditionals are the same. -/
  conditionals : c'.conditionals = c.conditionals
  /-- So are their branches. -/
  branches : c'.branches = c.branches
  /-- The outer decisions are still open. -/
  decisions : c'.decisions <+: c.decisions
  /-- The options chosen in them are the same. -/
  choices : c'.choices <+: c.choices
  /-- The cursor does not go back. -/
  line_le : c.line ≤ c'.line
  /-- It only goes to the end of a decision. -/
  line_eq : c'.line = c.line ∨ ∃ d ∈ n.decisions, d.index ∈ c.decisions ∧ c'.line = d.stop
  /-- A decision that has been left lies behind. -/
  behind : ∀ d ∈ n.decisions, d.index ∈ c.decisions →
    d.index ∈ c'.decisions ∨ d.stop ≤ c'.line

/-- A cursor that stays as it is has left nothing. -/
theorem LeftOptions.refl (n : Node) (c : Cursor) : n.LeftOptions c c :=
  ⟨rfl, rfl, List.prefix_rfl, List.prefix_rfl, le_rfl, .inl rfl, fun _ _ hd => .inl hd⟩

/-- A further option is left. -/
theorem LeftOptions.leaveOption (hn : n.Laid) {c' : Cursor} (h : n.LeftOptions c c')
    {is : List Int} {i w : Int} {d : Decision} {o : Choice} (hi : c'.decisions = is ++ [i])
    (hpicks : n.Picks i w d o) : n.LeftOptions c (c'.leaveOption d.stop) := by
  have hmem : i ∈ c.decisions := h.decisions.subset (by simp [hi])
  refine ⟨h.conditionals, h.branches, ?_, ?_, le_trans h.line_le (le_max_left _ _), ?_, ?_⟩
  · exact (List.dropLast_prefix _).trans h.decisions
  · exact (List.dropLast_prefix _).trans h.choices
  · -- the decision that is left may lie behind already, as those without lines do
    rcases le_total d.stop c'.line with hle | hle
    · rw [Cursor.leaveOption, max_eq_left hle]
      exact h.line_eq
    · rw [Cursor.leaveOption, max_eq_right hle]
      refine .inr ⟨d, mem_of_at? hpicks.1, ?_, rfl⟩
      rwa [hn.index_of_at?_decision hpicks.1]
  · intro e he hopen
    rcases h.behind e he hopen with hopen | hstop
    · rw [hi, List.mem_append, List.mem_singleton] at hopen
      rcases hopen with hopen | rfl
      · exact .inl (by simpa [Cursor.leaveOption, hi] using hopen)
      · obtain rfl := Option.some.inj (hpicks.1.symm.trans (hn.at?_decision he))
        exact .inr (le_max_right _ _)
    · exact .inr (le_trans hstop (le_max_left _ _))

/-- Leaving options leads to a poised cursor in which at most one decision is open, with an option
that goes on. -/
theorem Poised.leaveOptions (hn : n.Laid) (h : n.Poised depth seen c) :
    (n.leaveOptions c).2 = false ∧ n.Poised depth seen (n.leaveOptions c).1 ∧
      n.LeftOptions c (n.leaveOptions c).1 ∧ n.OptionUnfinished (n.leaveOptions c).1 ∧
      (n.leaveOptions c).1.decisions.tail = [] := by
  obtain ⟨hstuck, ⟨hp, hleft⟩, hunfinished⟩ := leaveOptions_induction
    (P := fun c' => n.Poised depth seen c' ∧ n.LeftOptions c c') h.options_open
    ⟨h, .refl n c⟩
    (fun c' is i ws w d o ⟨hp, hleft⟩ hi hw hpicks _ =>
      ⟨hp.leaveOption hn hi hw hpicks, hleft.leaveOption hn hi hpicks⟩)
  refine ⟨hstuck, hp, hleft, hunfinished, ?_⟩
  -- a second open decision would have no lines, so its option would be finished
  by_contra htail
  obtain ⟨is, i, hi⟩ := exists_concat htail
  have hdecisions : ∃ is', (n.leaveOptions c).1.decisions = is' ++ [i] := by
    cases hall : (n.leaveOptions c).1.decisions with
    | nil => simp [hall] at hi
    | cons j js =>
      rw [hall, List.tail_cons] at hi
      exact ⟨j :: is, by simp [hi]⟩
  obtain ⟨is', hdecisions⟩ := hdecisions
  obtain ⟨ws, w, d, o, hw, hpicks, -⟩ := hp.exists_option hdecisions
  have hlt := hunfinished is' i ws w d o hdecisions hw hpicks
  have hempty := hp.inner_empty i (by rw [hi]; simp) d hpicks.1
  have hwithin := (hn.decision_laid d (mem_of_at? hpicks.1)).option_within (mem_of_at? hpicks.2)
  omega

/-- If the innermost option goes on, no option is left. -/
theorem Poised.leaveOptions_of_unfinished (h : n.Poised depth seen c)
    (hunfinished : n.OptionUnfinished c) : (n.leaveOptions c).1 = c := by
  refine (leaveOptions_induction (P := fun c' => c' = c) h.options_open rfl ?_).2.1
  intro c' is i ws w d o heq hi hw hpicks hstop
  rw [heq] at hi hw hstop
  have := hunfinished is i ws w d o hi hw hpicks
  omega

/-- If the innermost option is finished, the cursor goes to the end of its decision or beyond. -/
theorem Poised.stop_le_leaveOptions (h : n.Poised depth seen c) {is ws : List Int} {i w : Int}
    {d : Decision} {o : Choice} (hi : c.decisions = is ++ [i]) (hw : c.choices = ws ++ [w])
    (hpicks : n.Picks i w d o) (hstop : o.stop ≤ c.line) :
    d.stop ≤ (n.leaveOptions c).1.line := by
  obtain ⟨-, hleft, hunfinished⟩ := leaveOptions_induction
    (P := fun c' => c' = c ∨ d.stop ≤ c'.line) h.options_open (.inl rfl) (by
      -- the option that is left first is the innermost one, and no line goes back after that
      rintro c' js j vs v e o' (rfl | hle) hj hv hpicks' -
      · rw [hi] at hj
        rw [hw] at hv
        obtain rfl := (List.cons.inj (List.append_inj' hj rfl).2).1
        obtain rfl := (List.cons.inj (List.append_inj' hv rfl).2).1
        obtain ⟨rfl, rfl⟩ := hpicks.unique hpicks'
        exact .inr (le_max_right _ _)
      · exact .inr (le_trans hle (le_max_left _ _)))
  rcases hleft with heq | hle
  · rw [heq] at hunfinished
    have := hunfinished is i ws w d o hi hw hpicks
    omega
  · exact hle

/-- The pass over the decisions leaves finished options and then looks for a decision. -/
theorem passDecisions_eq (hn : n.Laid) (h : n.Poised depth seen c) :
    n.passDecisions depth seen c =
      match n.decisionAt? depth seen (n.leaveOptions c).1 with
      | none => ((n.leaveOptions c).1, .onward)
      | some d => ((n.leaveOptions c).1.opening d.index, .ask d) := by
  have hlength : ¬c.choices.length < c.decisions.length := by
    rw [h.length_choices]
    exact lt_irrefl _
  obtain ⟨hstuck, -⟩ := h.leaveOptions hn
  unfold passDecisions
  rw [if_neg hlength]
  rcases hleft : n.leaveOptions c with ⟨c', stuck⟩
  rw [hleft] at hstuck
  obtain rfl : stuck = false := hstuck
  rfl

/-- An element of a list with nothing behind its head is the only one. -/
theorem eq_singleton_of_mem {α : Type} {l : List α} {a : α} (htail : l.tail = []) (ha : a ∈ l) :
    l = [a] := by
  cases l with
  | nil => cases ha
  | cons b l =>
    obtain rfl : l = [] := htail
    rw [List.mem_singleton.mp ha]

/-- If a single decision is open, a single option has been chosen. -/
theorem Poised.exists_only_option (h : n.Poised depth seen c) {i : Int} (hi : c.decisions = [i]) :
    ∃ w d o, c.choices = [w] ∧ n.Picks i w d o ∧ o.start ≤ c.line := by
  obtain ⟨ws, w, d, o, hw, hpicks, hstart⟩ := h.exists_option (show c.decisions = [] ++ [i] from hi)
  have hlength := h.length_choices
  rw [hi, hw] at hlength
  obtain rfl : ws = [] := by simpa using hlength
  exact ⟨w, d, o, hw, hpicks, hstart⟩

/-- A decision that is opened inside another one has no lines. -/
theorem Poised.stop_le_of_inner (hn : n.Laid) (h : n.Poised depth seen c)
    (hunfinished : n.OptionUnfinished c) {i : Int} (hi : c.decisions = [i]) {d : Decision}
    (hd : d ∈ n.decisions) (hstart : d.start = c.line) (hopen : d.index ∉ c.decisions) :
    d.stop ≤ c.line := by
  obtain ⟨w, e, o, hw, hpicks, ho⟩ := h.exists_only_option hi
  have hlt := hunfinished [] i [] w e o hi hw hpicks
  have he : e ∈ n.decisions := mem_of_at? hpicks.1
  have hwithin := (hn.decision_laid e he).option_within (mem_of_at? hpicks.2)
  have hlaid := (hn.decision_laid d hd).start_le_stop
  -- an earlier decision has ended where the open one starts, a later one would start behind it
  rcases lt_trichotomy d.index e.index with hlt' | heq | hgt
  · have := hn.decision_lt hd he hlt'
    omega
  · obtain rfl : d = e := hn.decision_ext hd he heq
    refine absurd ?_ hopen
    rw [hi, hn.index_of_at?_decision hpicks.1]
    exact List.mem_singleton_self i
  · have := hn.decision_lt he hd hgt
    omega

/-- If at most one decision is open and its option goes on, an open decision goes on. -/
theorem Poised.lt_stop_of_open (hn : n.Laid) (h : n.Poised depth seen c)
    (hunfinished : n.OptionUnfinished c) (htail : c.decisions.tail = []) {d : Decision}
    (hd : d ∈ n.decisions) (hopen : d.index ∈ c.decisions) : c.line < d.stop := by
  have hi : c.decisions = [d.index] := eq_singleton_of_mem htail hopen
  obtain ⟨w, e, o, hw, hpicks, -⟩ := h.exists_only_option hi
  have hlt := hunfinished [] d.index [] w e o hi hw hpicks
  obtain rfl := Option.some.inj (hpicks.1.symm.trans (hn.at?_decision hd))
  have hwithin := (hn.decision_laid e hd).option_within (mem_of_at? hpicks.2)
  omega

/-- An option of the decision at the cursor is chosen. -/
theorem Poised.choose (hn : n.Laid) (h : n.Poised depth seen c)
    (hunfinished : n.OptionUnfinished c) (htail : c.decisions.tail = []) {d : Decision}
    (hd : d ∈ n.decisions) (hstart : d.start = c.line) (hopen : d.index ∉ c.decisions)
    {way : Int} {o : Choice} (ho : at? d.options way = some o) :
    n.Poised depth [n.visit depth .decision d.index]
      ((c.opening d.index).choosing way o.start) := by
  have hwithin := (hn.decision_laid d hd).option_within (mem_of_at? ho)
  have hlen := (hn.decision_within d hd).2
  have hmoved := h.moveTo o.start (by omega) (by omega)
  refine ⟨hmoved.within, hmoved.branches_open, ?_, ?_, ?_, ?_⟩
  · exact forall₂_concat.mpr ⟨hmoved.options_open, d, o, ⟨hn.at?_decision hd, ho⟩, le_rfl⟩
  · intro i hi e he
    show e.stop ≤ o.start
    -- a decision below the chosen one can only be that in which it was opened
    cases hc : c.decisions with
    | nil => simp [Cursor.choosing, Cursor.opening, hc] at hi
    | cons j js =>
      obtain rfl : js = [] := by simpa [hc] using htail
      obtain rfl : i = d.index := by simpa [Cursor.choosing, Cursor.opening, hc] using hi
      obtain rfl := Option.some.inj (he.symm.trans (hn.at?_decision hd))
      have := h.stop_le_of_inner hn hunfinished hc hd hstart hopen
      omega
  · intro x _ hmem
    simp [Node.visit] at hmem
  · intro e he hmem
    have hindex : e.index = d.index := by simpa [Node.visit] using hmem
    obtain rfl := hn.decision_ext he hd hindex
    exact ⟨hwithin.1, .inl (by simp [Cursor.choosing, Cursor.opening])⟩

end Node

end VisualNovel
