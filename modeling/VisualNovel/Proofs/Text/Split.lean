import Mathlib.Data.List.Infix
import VisualNovel.Text.Split

/-!
# Parts of a text

A separator that does not occur leaves a text in one part, and a character that does not belong to
the separator joins the parts before it to those behind it. The first occurrence of a character cuts
a text in one way only.

## Main results

* `Text.occurs_iff_isInfix`: what it means for a separator to occur;
* `Text.splitOn_of_not_occurs`: a text without the separator is its own only part;
* `Text.splitOn_append_cons`: the parts of a text before and behind a character;
* `Text.breakAt_eq_some_iff`: a text is cut where a character stands first.
-/

namespace VisualNovel.Text

section Separators

variable {sep s t : List Char}

/-- A separator occurs in a text if it is a part of it. -/
theorem occurs_iff_isInfix : occurs sep s = true ↔ sep <:+: s := by
  induction s with
  | nil => simp [occurs]
  | cons c s ih => rw [occurs, Bool.or_eq_true, List.isPrefixOf_iff_prefix, ih, List.infix_cons_iff]

/-- A separator that does not occur in a text does not occur in a part of it. -/
theorem not_occurs_of_isInfix (h : occurs sep t = false) (hs : s <:+: t) : occurs sep s = false :=
  Bool.eq_false_iff.mpr fun hsep =>
    Bool.eq_false_iff.mp h (occurs_iff_isInfix.mpr ((occurs_iff_isInfix.mp hsep).trans hs))

/-- A text without the separator is its own only part. -/
theorem splitOn_of_not_occurs (h : occurs sep s = false) : splitOn sep s = [s] := by
  induction s with
  | nil => rfl
  | cons c s ih =>
    obtain ⟨hfront, hs⟩ := Bool.or_eq_false_iff.mp h
    have hrest : splitFrom sep 0 s = [s] := ih hs
    rw [splitOn, splitFrom, hfront, hrest]
    rfl

end Separators

section Joining

variable {sep s t : List Char} {c : Char}

theorem splitFrom_ne_nil (sep : List Char) (k : Nat) (s : List Char) : splitFrom sep k s ≠ [] := by
  induction s generalizing k with
  | nil => simp [splitFrom]
  | cons c s ih =>
    cases k with
    | zero =>
      rw [splitFrom]
      split
      · simp
      · cases splitFrom sep 0 s <;> simp [consHead]
    | succ k => exact ih k

/-- A text has a part. -/
theorem splitOn_ne_nil (sep s : List Char) : splitOn sep s ≠ [] :=
  splitFrom_ne_nil sep 0 s

/-- The first part of a text. -/
def firstPart (sep s : List Char) : List Char := (splitOn sep s).headD []

/-- The last part of a text. -/
def lastPart (sep s : List Char) : List Char := (splitOn sep s).getLastD []

theorem firstPart_cons_tail (sep s : List Char) :
    firstPart sep s :: (splitOn sep s).tail = splitOn sep s := by
  rw [firstPart]
  cases h : splitOn sep s with
  | nil => exact absurd h (splitOn_ne_nil sep s)
  | cons p ps => rfl

theorem dropLast_concat_lastPart (sep s : List Char) :
    (splitOn sep s).dropLast ++ [lastPart sep s] = splitOn sep s := by
  rw [lastPart, List.getLastD_eq_getLast?, List.getLast?_eq_some_getLast (splitOn_ne_nil _ _)]
  exact List.dropLast_append_getLast (splitOn_ne_nil sep s)

/-- A text that starts with the separator has the whole of it before a character that does not
belong to it. -/
theorem isPrefixOf_append_cons (hc : c ∉ sep) (s t : List Char) :
    sep.isPrefixOf (s ++ c :: t) = sep.isPrefixOf s := by
  rw [Bool.eq_iff_iff, List.isPrefixOf_iff_prefix, List.isPrefixOf_iff_prefix]
  refine ⟨fun ⟨rest, hrest⟩ => ?_, fun h => h.trans (List.prefix_append ..)⟩
  rcases List.append_eq_append_iff.mp hrest with ⟨w, rfl, -⟩ | ⟨w, rfl, hw⟩
  · exact List.prefix_append ..
  · cases w with
    | nil => simp
    | cons d w =>
      obtain ⟨rfl, -⟩ := List.cons.inj hw
      simp at hc

/-- A separator occurs before or behind a character that does not belong to it. -/
theorem occurs_append_cons (hsep : sep ≠ []) (hc : c ∉ sep) (s t : List Char) :
    occurs sep (s ++ c :: t) = (occurs sep s || occurs sep t) := by
  induction s with
  | nil =>
    have hfront : sep.isPrefixOf (c :: t) = false :=
      (isPrefixOf_append_cons hc [] t).trans (by cases sep <;> simp_all)
    have hempty : sep.isEmpty = false := List.isEmpty_eq_false_iff.mpr hsep
    rw [List.nil_append, occurs, occurs, hempty, hfront]
  | cons d s ih =>
    rw [List.cons_append, occurs, occurs, ih, ← List.cons_append, isPrefixOf_append_cons hc,
      Bool.or_assoc]

/-- The parts before a character that does not belong to the separator, and those behind it, are
parts of the whole, but for the two that the character joins. -/
theorem splitOn_append_cons (hsep : sep ≠ []) (hc : c ∉ sep) (s t : List Char) :
    splitOn sep (s ++ c :: t) = (splitOn sep s).dropLast ++
      (lastPart sep s ++ c :: firstPart sep t) :: (splitOn sep t).tail := by
  -- the separator that is being passed over has to end before the character
  suffices h : ∀ k ≤ s.length, splitFrom sep k (s ++ c :: t) = (splitFrom sep k s).dropLast ++
      ((splitFrom sep k s).getLastD [] ++ c :: firstPart sep t) :: (splitOn sep t).tail from
    h 0 (Nat.zero_le _)
  induction s with
  | nil =>
    intro k hk
    obtain rfl : k = 0 := Nat.le_zero.mp hk
    have hfront : sep.isPrefixOf (c :: t) = false :=
      (isPrefixOf_append_cons hc [] t).trans (by cases sep <;> simp_all)
    have hwhole : splitFrom sep 0 (c :: t) = consHead c (splitOn sep t) := by
      rw [splitFrom, hfront]
      rfl
    rw [List.nil_append, hwhole, ← firstPart_cons_tail]
    rfl
  | cons d s ih =>
    intro k hk
    cases k with
    | succ k => exact ih k (Nat.le_of_succ_le_succ hk)
    | zero =>
      rw [List.cons_append, splitFrom, splitFrom, ← List.cons_append, isPrefixOf_append_cons hc]
      split
      · next hsep =>
        have hle : sep.length - 1 ≤ s.length := by
          have := (List.isPrefixOf_iff_prefix.mp hsep).length_le
          simp only [List.length_cons] at this
          omega
        rw [ih _ hle]
        have hne := splitFrom_ne_nil sep (sep.length - 1) s
        generalize splitFrom sep (sep.length - 1) s = ps at hne ⊢
        cases ps <;> simp_all
      · rw [ih 0 (Nat.zero_le _)]
        have hne := splitFrom_ne_nil sep 0 s
        generalize splitFrom sep 0 s = ps at hne ⊢
        match ps with
        | [] => exact absurd rfl hne
        | [p] => rfl
        | p :: q :: ps => simp [consHead]

/-- The character joins two parts to one. -/
theorem length_splitOn_append_cons (hsep : sep ≠ []) (hc : c ∉ sep) (s t : List Char) :
    (splitOn sep (s ++ c :: t)).length + 1 = (splitOn sep s).length + (splitOn sep t).length := by
  have hs := List.length_pos_iff.mpr (splitOn_ne_nil sep s)
  have ht := List.length_pos_iff.mpr (splitOn_ne_nil sep t)
  rw [splitOn_append_cons hsep hc, List.length_append, List.length_dropLast, List.length_cons,
    List.length_tail]
  omega

/-- A separator that occurs in a text separates two parts of it. -/
theorem two_le_length_splitOn (h : occurs sep s = true) (hsep : sep ≠ []) :
    2 ≤ (splitOn sep s).length := by
  induction s with
  | nil => simp_all [occurs]
  | cons c s ih =>
    rw [splitOn, splitFrom]
    split
    · have := List.length_pos_iff.mpr (splitFrom_ne_nil sep (sep.length - 1) s)
      simp only [List.length_cons]
      omega
    · next hfront =>
      have hrest := ih (by simpa [occurs, hfront] using h)
      rw [splitOn] at hrest
      generalize splitFrom sep 0 s = ps at hrest ⊢
      cases ps <;> simp_all [consHead]

end Joining

section First

variable {c : Char} {s before after : List Char}

/-- What stands before the first occurrence of a character is passed over. -/
theorem breakAt_append (h : c ∉ s) (rest : List Char) :
    breakAt c (s ++ c :: rest) = some (s, rest) := by
  induction s with
  | nil => simp [breakAt]
  | cons d s ih =>
    obtain ⟨hd, hs⟩ := not_or.mp (mt List.mem_cons.mpr h)
    simp [breakAt, ih hs, Ne.symm hd]

/-- A text that does not have the character is not cut. -/
theorem breakAt_eq_none_iff : breakAt c s = none ↔ c ∉ s := by
  induction s with
  | nil => simp [breakAt]
  | cons d s ih =>
    by_cases hd : d = c
    · simp [breakAt, hd]
    · simp [breakAt, hd, ih, Ne.symm hd]

/-- A text is cut where the character stands first. -/
theorem breakAt_eq_some_iff :
    breakAt c s = some (before, after) ↔ s = before ++ c :: after ∧ c ∉ before := by
  refine ⟨fun h => ?_, fun ⟨hs, hc⟩ => hs ▸ breakAt_append hc after⟩
  -- the character is in the text, and its first occurrence is the only place for a cut
  have hmem : c ∈ s := by
    by_contra hnot
    simp [breakAt_eq_none_iff.mpr hnot] at h
  obtain ⟨front, back, rfl, hfront⟩ := List.eq_append_cons_of_mem hmem
  obtain ⟨rfl, rfl⟩ := Prod.mk.inj (Option.some.inj ((breakAt_append hfront back).symm.trans h))
  exact ⟨rfl, hfront⟩

end First

end VisualNovel.Text
