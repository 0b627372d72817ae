import VisualNovel.Proofs.Layout.Basic
import VisualNovel.Traversal.Motion

/-!
# Leaving blocks

A cursor leaves the blocks whose way is finished one after the other, innermost first. Whatever
each single departure keeps is therefore kept by leaving them all, and in the end the innermost
block that is left has a way that goes on.

## Main definitions

* `Node.Takes` and `Node.Picks`: numbers that a cursor records stand for a branch or an option;
* `Cursor.leaveBranch` and `Cursor.leaveOption`: the cursor after a single departure;
* `Node.BranchUnfinished` and `Node.OptionUnfinished`: the innermost way goes on.

## Main results

* `Departure.leave_induction`: the induction over single departures;
* `Node.leaveBranches_induction` and `Node.leaveOptions_induction`: the same for a cursor.
-/

namespace VisualNovel

open List (Forall₂)

/-- Leaving blocks that exist is never stuck, keeps whatever each departure keeps, and ends at a
block whose way goes on. -/
theorem Departure.leave_induction {ends? : Int → Int → Option (Int × Int)}
    {P : List Int → List Int → Int → Prop} {bs ws : List Int} {line : Int}
    (hknown : Forall₂ (fun b w => (ends? b w).isSome) bs ws) (h : P bs ws line)
    (step : ∀ b bs w ws line wayEnd blockEnd, P (b :: bs) (w :: ws) line →
      ends? b w = some (wayEnd, blockEnd) → wayEnd ≤ line → P bs ws (max line blockEnd)) :
    (leave ends? bs ws line).stuck = false ∧
      P (leave ends? bs ws line).blocks (leave ends? bs ws line).ways
        (leave ends? bs ws line).line ∧
      ∀ b bs' w ws' wayEnd blockEnd, (leave ends? bs ws line).blocks = b :: bs' →
        (leave ends? bs ws line).ways = w :: ws' → ends? b w = some (wayEnd, blockEnd) →
        (leave ends? bs ws line).line < wayEnd := by
  -- on the open blocks, innermost first
  induction hknown generalizing line with
  | nil => exact ⟨rfl, h, fun _ _ _ _ _ _ hb => by cases hb⟩
  | @cons b w bs ws hbw _ ih =>
    obtain ⟨⟨wayEnd, blockEnd⟩, hends⟩ := Option.isSome_iff_exists.mp hbw
    rw [leave]
    simp only [List.head?_cons, Option.bind_some, hends, List.tail_cons]
    -- a way that goes on ends the departure, any other one is left
    by_cases hlt : line < wayEnd
    · rw [if_pos hlt]
      refine ⟨rfl, h, ?_⟩
      intro b' bs' w' ws' wayEnd' blockEnd' hb hw hends'
      obtain ⟨rfl, -⟩ := List.cons.inj hb
      obtain ⟨rfl, -⟩ := List.cons.inj hw
      rw [hends] at hends'
      obtain ⟨rfl, -⟩ := Prod.mk.inj (Option.some.inj hends')
      exact hlt
    · rw [if_neg hlt]
      exact ih (step b bs w ws line wayEnd blockEnd h hends (by omega))

namespace Node

variable (n : Node)

/-- The numbers stand for a conditional of the node and a branch of it. -/
def Takes (index way : Int) (x : Conditional) (b : Branch) : Prop :=
  at? n.conditionals index = some x ∧ at? x.branches way = some b

/-- The numbers stand for a decision of the node and an option of it. -/
def Picks (index way : Int) (d : Decision) (o : Choice) : Prop :=
  at? n.decisions index = some d ∧ at? d.options way = some o

/-- A branch has been entered at a line or before it. -/
def BranchOpen (line index way : Int) : Prop := ∃ x b, n.Takes index way x b ∧ b.start ≤ line

/-- An option has been entered at a line or before it. -/
def OptionOpen (line index way : Int) : Prop := ∃ d o, n.Picks index way d o ∧ o.start ≤ line

/-- The innermost branch of a cursor goes on. -/
def BranchUnfinished (c : Cursor) : Prop :=
  ∀ is i ws w x b, c.conditionals = is ++ [i] → c.branches = ws ++ [w] → n.Takes i w x b →
    c.line < b.stop

/-- The innermost option of a cursor goes on. -/
def OptionUnfinished (c : Cursor) : Prop :=
  ∀ is i ws w d o, c.decisions = is ++ [i] → c.choices = ws ++ [w] → n.Picks i w d o →
    c.line < o.stop

variable {n} {index way : Int}

/-- The numbers of a branch stand for nothing else. -/
theorem Takes.unique {x x' : Conditional} {b b' : Branch} (h : n.Takes index way x b)
    (h' : n.Takes index way x' b') : x = x' ∧ b = b' := by
  obtain ⟨hx, hb⟩ := h
  obtain ⟨hx', hb'⟩ := h'
  obtain rfl := Option.some.inj (hx.symm.trans hx')
  exact ⟨rfl, Option.some.inj (hb.symm.trans hb')⟩

/-- The numbers of an option stand for nothing else. -/
theorem Picks.unique {d d' : Decision} {o o' : Choice} (h : n.Picks index way d o)
    (h' : n.Picks index way d' o') : d = d' ∧ o = o' := by
  obtain ⟨hd, ho⟩ := h
  obtain ⟨hd', ho'⟩ := h'
  obtain rfl := Option.some.inj (hd.symm.trans hd')
  exact ⟨rfl, Option.some.inj (ho.symm.trans ho')⟩

/-- The ends of a branch that exists. -/
theorem Takes.ends {x : Conditional} {b : Branch} (h : n.Takes index way x b) :
    n.branchEnds? index way = some (b.stop, x.stop) := by
  simp [branchEnds?, h.1, h.2]

/-- The ends of an option that exists. -/
theorem Picks.ends {d : Decision} {o : Choice} (h : n.Picks index way d o) :
    n.optionEnds? index way = some (o.stop, d.stop) := by
  simp [optionEnds?, h.1, h.2]

/-- What has ends is a branch. -/
theorem takes_of_ends {ends : Int × Int} (h : n.branchEnds? index way = some ends) :
    ∃ x b, n.Takes index way x b ∧ ends = (b.stop, x.stop) := by
  simp only [branchEnds?, Option.bind_eq_bind, Option.bind_eq_some_iff, Option.pure_def,
    Option.some.injEq] at h
  obtain ⟨x, hx, b, hb, rfl⟩ := h
  exact ⟨x, b, ⟨hx, hb⟩, rfl⟩

/-- What has ends is an option. -/
theorem picks_of_ends {ends : Int × Int} (h : n.optionEnds? index way = some ends) :
    ∃ d o, n.Picks index way d o ∧ ends = (o.stop, d.stop) := by
  simp only [optionEnds?, Option.bind_eq_bind, Option.bind_eq_some_iff, Option.pure_def,
    Option.some.injEq] at h
  obtain ⟨d, hd, o, ho, rfl⟩ := h
  exact ⟨d, o, ⟨hd, ho⟩, rfl⟩

/-- A branch stays entered further on. -/
theorem BranchOpen.mono {line line' : Int} (h : n.BranchOpen line index way)
    (hle : line ≤ line') : n.BranchOpen line' index way := by
  obtain ⟨x, b, htakes, hb⟩ := h
  exact ⟨x, b, htakes, le_trans hb hle⟩

/-- An option stays entered further on. -/
theorem OptionOpen.mono {line line' : Int} (h : n.OptionOpen line index way)
    (hle : line ≤ line') : n.OptionOpen line' index way := by
  obtain ⟨d, o, hpicks, ho⟩ := h
  exact ⟨d, o, hpicks, le_trans ho hle⟩

end Node

namespace Cursor

variable (c : Cursor)

/-- The cursor after its innermost branch has been left for a conditional that ends at a line. -/
def leaveBranch (stop : Int) : Cursor :=
  { c with
    line := max c.line stop
    conditionals := c.conditionals.dropLast
    branches := c.branches.dropLast }

/-- The cursor after its innermost option has been left for a decision that ends at a line. -/
def leaveOption (stop : Int) : Cursor :=
  { c with
    line := max c.line stop
    decisions := c.decisions.dropLast
    choices := c.choices.dropLast }

end Cursor

namespace Node

variable {n : Node}

/-- Leaving branches keeps whatever each departure keeps, and ends in a branch that goes on. -/
theorem leaveBranches_induction {P : Cursor → Prop} {c : Cursor}
    (hopen : Forall₂ (n.BranchOpen c.line) c.conditionals c.branches) (h : P c)
    (step : ∀ c is i ws w x b, P c → c.conditionals = is ++ [i] → c.branches = ws ++ [w] →
      n.Takes i w x b → b.stop ≤ c.line → P (c.leaveBranch x.stop)) :
    (n.leaveBranches c).2 = false ∧ P (n.leaveBranches c).1 ∧
      n.BranchUnfinished (n.leaveBranches c).1 := by
  -- a departure has the innermost block first, a cursor has it last
  have hknown : Forall₂ (fun b w => (n.branchEnds? b w).isSome) c.conditionals.reverse
      c.branches.reverse := by
    refine List.forall₂_reverse_iff.mpr (hopen.imp fun i w hiw => ?_)
    obtain ⟨x, b, htakes, -⟩ := hiw
    simp [htakes.ends]
  obtain ⟨hstuck, hkeep, hend⟩ := Departure.leave_induction
    (P := fun bs ws line =>
      P { c with line := line, conditionals := bs.reverse, branches := ws.reverse })
    hknown (by simpa using h) (by
      intro i is w ws line wayEnd blockEnd hP hends hle
      obtain ⟨x, b, htakes, hxb⟩ := takes_of_ends hends
      obtain ⟨rfl, rfl⟩ := Prod.mk.inj hxb
      have := step _ is.reverse i ws.reverse w x b hP (by simp) (by simp) htakes hle
      simpa [Cursor.leaveBranch] using this)
  refine ⟨hstuck, hkeep, ?_⟩
  intro is i ws w x b hi hw htakes
  refine hend i is.reverse w ws.reverse b.stop x.stop ?_ ?_ htakes.ends
  · simpa [leaveBranches] using congrArg List.reverse hi
  · simpa [leaveBranches] using congrArg List.reverse hw

/-- Leaving options keeps whatever each departure keeps, and ends in an option that goes on. -/
theorem leaveOptions_induction {P : Cursor → Prop} {c : Cursor}
    (hopen : Forall₂ (n.OptionOpen c.line) c.decisions c.choices) (h : P c)
    (step : ∀ c is i ws w d o, P c → c.decisions = is ++ [i] → c.choices = ws ++ [w] →
      n.Picks i w d o → o.stop ≤ c.line → P (c.leaveOption d.stop)) :
    (n.leaveOptions c).2 = false ∧ P (n.leaveOptions c).1 ∧
      n.OptionUnfinished (n.leaveOptions c).1 := by
  -- as with branches, the stacks are turned around for the departure
  have hknown : Forall₂ (fun b w => (n.optionEnds? b w).isSome) c.decisions.reverse
      c.choices.reverse := by
    refine List.forall₂_reverse_iff.mpr (hopen.imp fun i w hiw => ?_)
    obtain ⟨d, o, hpicks, -⟩ := hiw
    simp [hpicks.ends]
  obtain ⟨hstuck, hkeep, hend⟩ := Departure.leave_induction
    (P := fun bs ws line =>
      P { c with line := line, decisions := bs.reverse, choices := ws.reverse })
    hknown (by simpa using h) (by
      intro i is w ws line wayEnd blockEnd hP hends hle
      obtain ⟨d, o, hpicks, hdo⟩ := picks_of_ends hends
      obtain ⟨rfl, rfl⟩ := Prod.mk.inj hdo
      have := step _ is.reverse i ws.reverse w d o hP (by simp) (by simp) hpicks hle
      simpa [Cursor.leaveOption] using this)
  refine ⟨hstuck, hkeep, ?_⟩
  intro is i ws w d o hi hw hpicks
  refine hend i is.reverse w ws.reverse o.stop d.stop ?_ ?_ hpicks.ends
  · simpa [leaveOptions] using congrArg List.reverse hi
  · simpa [leaveOptions] using congrArg List.reverse hw

end Node

end VisualNovel
