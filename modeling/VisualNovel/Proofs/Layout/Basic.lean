import Mathlib.Data.List.Forall2
import Mathlib.Tactic.Linarith
import VisualNovel.Script.Draft
import VisualNovel.Traversal.Validity

/-!
# The layout of a compiled node

The blocks of a node are ranges of lines. The branches of a conditional and the options of a
decision follow each other without a gap; decisions are apart from each other; and a conditional
that starts inside an earlier one lies in a single branch of it. These facts are all that the
movement of a cursor over the blocks relies on.

## Main definitions

* `Tiles`: ranges that fill a stretch of lines in order;
* `Decision.Laid`, `Conditional.Laid`: blocks whose parts fill them;
* `Conditional.Clears`: a later conditional lies behind an earlier one or in one branch of it;
* `Node.Laid`: a node all of whose blocks are laid out properly.

## Main results

* `Tiles.within` and `Tiles.ordered`: the ranges of a tiling lie in its stretch, in order;
* `Node.Laid.decision_lt` and `Node.Laid.clears`: two blocks of a node are told apart by their
  numbers.
-/

namespace VisualNovel

section Tiling

variable {α : Type} (start stop : α → Int)

/-- Ranges that fill the stretch from one line to another, one behind the other. -/
def Tiles : Int → Int → List α → Prop
  | a, b, [] => a = b
  | a, b, x :: xs => start x = a ∧ a ≤ stop x ∧ Tiles (stop x) b xs

variable {start stop} {a b : Int} {xs ys : List α}

/-- A tiling goes forwards. -/
theorem Tiles.le (h : Tiles start stop a b xs) : a ≤ b := by
  induction xs generalizing a with
  | nil => exact le_of_eq h
  | cons x xs ih => exact le_trans h.2.1 (ih h.2.2)

/-- A tiling of a concatenation is a tiling of its two parts. -/
theorem tiles_append :
    Tiles start stop a b (xs ++ ys) ↔ ∃ m, Tiles start stop a m xs ∧ Tiles start stop m b ys := by
  induction xs generalizing a with
  | nil => simp [Tiles]
  | cons x xs ih =>
    simp only [List.cons_append, Tiles, ih]
    constructor
    · rintro ⟨hx, hle, m, hxs, hys⟩
      exact ⟨m, ⟨hx, hle, hxs⟩, hys⟩
    · rintro ⟨m, ⟨hx, hle, hxs⟩, hys⟩
      exact ⟨hx, hle, m, hxs, hys⟩

/-- A single range fills the stretch that it is. -/
theorem tiles_singleton {x : α} :
    Tiles start stop a b [x] ↔ start x = a ∧ a ≤ stop x ∧ stop x = b := by
  simp [Tiles]

/-- The ranges of a tiling lie in its stretch. -/
theorem Tiles.within (h : Tiles start stop a b xs) {x : α} (hx : x ∈ xs) :
    a ≤ start x ∧ start x ≤ stop x ∧ stop x ≤ b := by
  induction xs generalizing a with
  | nil => cases hx
  | cons y ys ih =>
    obtain ⟨hy, hle, hrest⟩ := h
    rcases List.mem_cons.mp hx with rfl | hmem
    · exact ⟨le_of_eq hy.symm, by omega, hrest.le⟩
    · obtain ⟨h₁, h₂, h₃⟩ := ih hrest hmem
      exact ⟨le_trans hle h₁, h₂, h₃⟩

/-- The ranges of a tiling are in order. -/
theorem Tiles.ordered (h : Tiles start stop a b xs) :
    xs.Pairwise fun x y => stop x ≤ start y := by
  induction xs generalizing a with
  | nil => exact List.Pairwise.nil
  | cons x xs ih => exact List.pairwise_cons.mpr ⟨fun y hy => (h.2.2.within hy).1, ih h.2.2⟩

/-- Of two ranges of a tiling, one lies before the other. -/
theorem Tiles.apart (h : Tiles start stop a b xs) {x y : α} (hx : x ∈ xs) (hy : y ∈ xs) :
    stop x ≤ start y ∨ x = y ∨ stop y ≤ start x := by
  obtain ⟨i, hi⟩ := List.mem_iff_getElem?.mp hx
  obtain ⟨j, hj⟩ := List.mem_iff_getElem?.mp hy
  obtain ⟨hilt, rfl⟩ := List.getElem?_eq_some_iff.mp hi
  obtain ⟨hjlt, rfl⟩ := List.getElem?_eq_some_iff.mp hj
  have hordered := List.pairwise_iff_getElem.mp h.ordered
  rcases lt_trichotomy i j with hlt | rfl | hgt
  · exact .inl (hordered i j hilt hjlt hlt)
  · exact .inr (.inl rfl)
  · exact .inr (.inr (hordered j i hjlt hilt hgt))

/-- The last range of a tiling may be made longer or shorter, as long as it does not end before it
starts. -/
theorem tiles_modifyLast {f : α → α} {c : Int} (hs : ∀ x, start (f x) = start x)
    (he : ∀ x, stop (f x) = c) (hne : xs ≠ []) (h : Tiles start stop a b xs) (hc : b ≤ c) :
    Tiles start stop a c (modifyLast f xs) := by
  induction xs generalizing a with
  | nil => exact absurd rfl hne
  | cons x xs ih =>
    obtain ⟨hx, hle, hrest⟩ := h
    cases xs with
    | nil =>
      have hb : stop x = b := hrest
      exact ⟨(hs x).trans hx, by rw [he]; omega, he x⟩
    | cons y ys => exact ⟨hx, hle, ih (by simp) hrest⟩

end Tiling

/-- Changing the last element keeps the length. -/
@[simp]
theorem length_modifyLast {α : Type} (f : α → α) (l : List α) :
    (modifyLast f l).length = l.length := by
  induction l with
  | nil => rfl
  | cons a l ih => cases l <;> simp_all [modifyLast]

/-- Changing the last element of a list that ends with it. -/
@[simp]
theorem modifyLast_concat {α : Type} (f : α → α) (l : List α) (a : α) :
    modifyLast f (l ++ [a]) = l ++ [f a] := by
  induction l with
  | nil => rfl
  | cons b l ih => cases l <;> simp_all [modifyLast]

/-- Changing the last element of a list leaves the others alone. -/
@[simp]
theorem dropLast_modifyLast {α : Type} (f : α → α) (l : List α) :
    (modifyLast f l).dropLast = l.dropLast := by
  rcases l.eq_nil_or_concat with rfl | ⟨l, a, rfl⟩
  · rfl
  · simp

/-- A list that is not empty ends with some element. -/
theorem exists_concat {α : Type} {l : List α} (h : l ≠ []) : ∃ init a, l = init ++ [a] :=
  ⟨l.dropLast, l.getLast h, (List.dropLast_append_getLast h).symm⟩

/-- The options of a decision fill it up to its end, from the first of them on. -/
structure Decision.Laid (d : Decision) : Prop where
  /-- There is something to choose. -/
  nonempty : d.options ≠ []
  /-- What stands before the first option belongs to the decision as well. -/
  tiles : ∃ a, d.start ≤ a ∧ Tiles Choice.start Choice.stop a d.stop d.options

/-- The branches of a conditional fill it. -/
structure Conditional.Laid (c : Conditional) : Prop where
  /-- The branches follow each other from the first to the last line. -/
  tiles : Tiles Branch.start Branch.stop c.start c.stop c.branches

/-- The later of two conditionals lies behind the earlier one or in a single branch of it. -/
def Conditional.Clears (c e : Conditional) : Prop :=
  c.stop ≤ e.start ∨ ∃ b ∈ c.branches, b.start ≤ e.start ∧ e.stop ≤ b.stop

/-- A line belongs to a decision. -/
def Decision.Covers (d : Decision) (line : Int) : Prop := d.start ≤ line ∧ line < d.stop

instance (d : Decision) (line : Int) : Decidable (d.Covers line) :=
  inferInstanceAs (Decidable (_ ∧ _))

/-- A node whose blocks are laid out properly. -/
structure Node.Laid (n : Node) : Prop where
  /-- Decisions are numbered in order. -/
  decision_index : ∀ (i : Nat) (d : Decision), n.decisions[i]? = some d → d.index = i
  /-- The options of a decision fill it. -/
  decision_laid : ∀ d ∈ n.decisions, d.Laid
  /-- Decisions lie in the node. -/
  decision_within : ∀ d ∈ n.decisions, 0 ≤ d.start ∧ d.stop ≤ n.lines.length
  /-- A decision starts where the one before it has ended, or later. -/
  decisions_apart : n.decisions.Pairwise fun d e => d.stop ≤ e.start
  /-- Conditionals are numbered in order. -/
  conditional_index : ∀ (i : Nat) (c : Conditional), n.conditionals[i]? = some c → c.index = i
  /-- The branches of a conditional fill it. -/
  conditional_laid : ∀ c ∈ n.conditionals, c.Laid
  /-- Conditionals lie in the node. -/
  conditional_within : ∀ c ∈ n.conditionals, 0 ≤ c.start ∧ c.stop ≤ n.lines.length
  /-- A conditional lies behind an earlier one or in a single branch of it. -/
  conditionals_nest : n.conditionals.Pairwise Conditional.Clears

/-- An option lies in its decision. -/
theorem Decision.Laid.option_within {d : Decision} (h : d.Laid) {o : Choice} (ho : o ∈ d.options) :
    d.start ≤ o.start ∧ o.start ≤ o.stop ∧ o.stop ≤ d.stop := by
  obtain ⟨a, hle, htiles⟩ := h.tiles
  obtain ⟨h₁, h₂, h₃⟩ := htiles.within ho
  exact ⟨le_trans hle h₁, h₂, h₃⟩

/-- A decision goes forwards. -/
theorem Decision.Laid.start_le_stop {d : Decision} (h : d.Laid) : d.start ≤ d.stop := by
  obtain ⟨a, hle, htiles⟩ := h.tiles
  exact le_trans hle htiles.le

/-- A branch lies in its conditional. -/
theorem Conditional.Laid.branch_within {c : Conditional} (h : c.Laid) {b : Branch}
    (hb : b ∈ c.branches) : c.start ≤ b.start ∧ b.start ≤ b.stop ∧ b.stop ≤ c.stop :=
  h.tiles.within hb

/-- A conditional goes forwards. -/
theorem Conditional.Laid.start_le_stop {c : Conditional} (h : c.Laid) : c.start ≤ c.stop :=
  h.tiles.le

/-- The element at an integer index is an element. -/
theorem mem_of_at? {α : Type} {l : List α} {i : Int} {x : α} (h : at? l i = some x) : x ∈ l := by
  unfold at? at h
  split at h
  · cases h
  · exact List.mem_of_getElem? h

/-- The element at an integer index, by the natural number that the index is. -/
theorem at?_eq_some_iff {α : Type} {l : List α} {i : Int} {x : α} :
    at? l i = some x ↔ ∃ k : Nat, i = k ∧ l[k]? = some x := by
  unfold at?
  constructor
  · intro h
    split at h
    · cases h
    · exact ⟨i.toNat, by omega, h⟩
  · rintro ⟨k, rfl, h⟩
    simpa using h

namespace Node.Laid

variable {n : Node} (h : n.Laid)

include h

/-- The decision at a number has the number. -/
theorem index_of_at?_decision {i : Int} {d : Decision} (hd : at? n.decisions i = some d) :
    d.index = i := by
  obtain ⟨k, rfl, hk⟩ := at?_eq_some_iff.mp hd
  exact h.decision_index k d hk

/-- The conditional at a number has the number. -/
theorem index_of_at?_conditional {i : Int} {c : Conditional}
    (hc : at? n.conditionals i = some c) : c.index = i := by
  obtain ⟨k, rfl, hk⟩ := at?_eq_some_iff.mp hc
  exact h.conditional_index k c hk

/-- A decision of the node is found at its number. -/
theorem at?_decision {d : Decision} (hd : d ∈ n.decisions) :
    at? n.decisions d.index = some d := by
  obtain ⟨k, hk⟩ := List.mem_iff_getElem?.mp hd
  exact at?_eq_some_iff.mpr ⟨k, h.decision_index k d hk, hk⟩

/-- A conditional of the node is found at its number. -/
theorem at?_conditional {c : Conditional} (hc : c ∈ n.conditionals) :
    at? n.conditionals c.index = some c := by
  obtain ⟨k, hk⟩ := List.mem_iff_getElem?.mp hc
  exact at?_eq_some_iff.mpr ⟨k, h.conditional_index k c hk, hk⟩

/-- Decisions with one number are one decision. -/
theorem decision_ext {d e : Decision} (hd : d ∈ n.decisions) (he : e ∈ n.decisions)
    (hi : d.index = e.index) : d = e := by
  have h₁ := h.at?_decision hd
  have h₂ := h.at?_decision he
  rw [hi, h₂] at h₁
  exact (Option.some.inj h₁).symm

/-- Conditionals with one number are one conditional. -/
theorem conditional_ext {c e : Conditional} (hc : c ∈ n.conditionals) (he : e ∈ n.conditionals)
    (hi : c.index = e.index) : c = e := by
  have h₁ := h.at?_conditional hc
  have h₂ := h.at?_conditional he
  rw [hi, h₂] at h₁
  exact (Option.some.inj h₁).symm

/-- Of two decisions the one with the smaller number ends before the other starts. -/
theorem decision_lt {d e : Decision} (hd : d ∈ n.decisions) (he : e ∈ n.decisions)
    (hi : d.index < e.index) : d.stop ≤ e.start := by
  obtain ⟨j, hj⟩ := List.mem_iff_getElem?.mp hd
  obtain ⟨k, hk⟩ := List.mem_iff_getElem?.mp he
  rw [h.decision_index j d hj, h.decision_index k e hk] at hi
  obtain ⟨hj', rfl⟩ := List.getElem?_eq_some_iff.mp hj
  obtain ⟨hk', rfl⟩ := List.getElem?_eq_some_iff.mp hk
  exact List.pairwise_iff_getElem.mp h.decisions_apart j k hj' hk' (by omega)

/-- Of two conditionals the one with the smaller number is clear of the other. -/
theorem clears {c e : Conditional} (hc : c ∈ n.conditionals) (he : e ∈ n.conditionals)
    (hi : c.index < e.index) : c.Clears e := by
  obtain ⟨j, hj⟩ := List.mem_iff_getElem?.mp hc
  obtain ⟨k, hk⟩ := List.mem_iff_getElem?.mp he
  rw [h.conditional_index j c hj, h.conditional_index k e hk] at hi
  obtain ⟨hj', rfl⟩ := List.getElem?_eq_some_iff.mp hj
  obtain ⟨hk', rfl⟩ := List.getElem?_eq_some_iff.mp hk
  exact List.pairwise_iff_getElem.mp h.conditionals_nest j k hj' hk' (by omega)

/-- Of two conditionals the one with the greater number starts behind the other or lies within
it. -/
theorem behind_or_within {c e : Conditional} (hc : c ∈ n.conditionals) (he : e ∈ n.conditionals)
    (hi : c.index < e.index) : c.stop ≤ e.start ∨ c.start ≤ e.start ∧ e.stop ≤ c.stop := by
  rcases h.clears hc he hi with hbehind | ⟨b, hb, hstart, hstop⟩
  · exact .inl hbehind
  · have hwithin := (h.conditional_laid c hc).branch_within hb
    exact .inr ⟨by omega, by omega⟩

end Node.Laid

end VisualNovel
