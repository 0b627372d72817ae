import Mathlib.Data.List.Nodup
import Mathlib.Data.List.Perm.Subperm
import VisualNovel.Proofs.Motion.Answering

/-!
# The passes over the blocks come to an end

A pass over the conditionals takes rounds until there is nothing left to do: each round leaves the
branches that are finished and evaluates a conditional at the cursor. Every conditional is evaluated
once at most, so there is a last round, from whichever cursor the pass begins, as long as its blocks
exist. The cursor does not go back in any round, because a branch never starts before its
conditional. So the number of rounds that are allowed for a pass is never what ends it.

## Main definitions

* `Node.Rounds`: the rounds of a pass, as many as it takes, with the conditionals that they
  evaluate.

## Main results

* `Node.Fits.exists_rounds`: the rounds from a cursor that fits come to an end;
* `Node.Rounds.nodup`, `Node.Rounds.fresh`: no conditional is evaluated twice, or once more;
* `Node.Rounds.passConditionals`: they are the rounds of the pass, which is not cut short;
* `Node.Rounds.keeps`, `Node.Fits.passDecisions`: the passes keep a cursor fit and do not take it
  back.
-/

namespace VisualNovel

open List (Forall₂)

variable {n : Node} {depth : Nat} {seen : List Visit} {c c' : Cursor} {vs : Variables}
  {m m' : Motion} {xs : List Conditional}

/-- Leaving blocks that exist is not stuck, does not go back, and goes no further than the last end
of a block. -/
theorem Departure.leave_within {ends? : Int → Int → Option (Int × Int)} {R : Int → Int → Prop}
    (hends : ∀ b w, R b w → (ends? b w).isSome) {bound : Int}
    (hbound : ∀ b w wayEnd blockEnd, ends? b w = some (wayEnd, blockEnd) → blockEnd ≤ bound)
    {bs ws : List Int} (h : Forall₂ R bs ws) {line : Int} (hline : line ≤ bound) :
    (leave ends? bs ws line).stuck = false ∧
      (line ≤ (leave ends? bs ws line).line ∧ (leave ends? bs ws line).line ≤ bound) ∧
      Forall₂ R (leave ends? bs ws line).blocks (leave ends? bs ws line).ways := by
  obtain ⟨hstuck, ⟨hrange, hblocks⟩, -⟩ := leave_induction
    (P := fun bs ws l => (line ≤ l ∧ l ≤ bound) ∧ Forall₂ R bs ws) (h.imp hends)
    ⟨⟨le_rfl, hline⟩, h⟩ (by
      rintro b bs w ws l wayEnd blockEnd ⟨⟨hle, hl⟩, hblocks⟩ hbw -
      exact ⟨⟨le_trans hle (le_max_left _ _), max_le hl (hbound b w _ _ hbw)⟩,
        (List.forall₂_cons.mp hblocks).2⟩)
  exact ⟨hstuck, hrange, hblocks⟩

namespace Node

/-! ### Cursors that fit -/

/-- A cursor fits exactly if it is in its node or right behind it, and its blocks are those of the
node. -/
theorem fits_iff : n.Fits c ↔ (0 ≤ c.line ∧ c.line ≤ n.lines.length) ∧
    (∃ is js, c.decisions = is ++ js ∧ Forall₂ n.HasOption is c.choices ∧
      ∀ j ∈ js, ∃ d, at? n.decisions j = some d ∧ d.options ≠ []) ∧
    Forall₂ n.HasBranch c.conditionals c.branches := by
  rw [Fits, blockMisfit?_eq_none_iff]
  simp [holdsLine]

/-- A cursor that fits still does at another line of its node, or right behind it. -/
theorem Fits.moveTo (h : n.Fits c) {line : Int} (hline : 0 ≤ line ∧ line ≤ n.lines.length) :
    n.Fits (c.moveTo line) :=
  fits_iff.mpr ⟨hline, (fits_iff.mp h).2⟩

/-- In front of a line, it still does behind it. -/
theorem Fits.next (h : n.Fits c) (hline : c.line < n.lines.length) :
    n.Fits (c.moveTo (c.line + 1)) := by
  obtain ⟨⟨hnonneg, -⟩, -⟩ := fits_iff.mp h
  exact h.moveTo ⟨by omega, by omega⟩

/-- A cursor that has passed over blocks without being taken back. -/
structure Onward (n : Node) (c c' : Cursor) : Prop where
  /-- The cursor fits. -/
  fits : n.Fits c'
  /-- It has not been taken back. -/
  line_le : c.line ≤ c'.line

/-- One pass after the other. -/
theorem Onward.trans {c'' : Cursor} (h : n.Onward c c') (h' : n.Onward c' c'') : n.Onward c c'' :=
  ⟨h'.fits, h.line_le.trans h'.line_le⟩

/-- Leaving branches is not stuck, keeps a cursor fit, and does not take it back. -/
theorem Fits.leaveBranches (hn : n.Laid) (h : n.Fits c) : ∃ c', n.leaveBranches c = (c', false) ∧
    n.Onward c c' ∧ c'.decisions = c.decisions ∧ c'.choices = c.choices := by
  obtain ⟨⟨hnonneg, hle⟩, hdecisions, hbranches⟩ := fits_iff.mp h
  have hbound (i w wayEnd blockEnd : Int) (hends : n.branchEnds? i w = some (wayEnd, blockEnd)) :
      blockEnd ≤ n.lines.length := by
    obtain ⟨x, b, htakes, hxb⟩ := takes_of_ends hends
    obtain ⟨rfl, rfl⟩ := Prod.mk.inj hxb
    exact (hn.conditional_within x (mem_of_at? htakes.1)).2
  obtain ⟨hstuck, ⟨hback, hline⟩, hleft⟩ := Departure.leave_within
    (fun _ _ => HasBranch.isSome_ends) hbound (List.forall₂_reverse_iff.mpr hbranches) hle
  refine ⟨_, Prod.ext rfl hstuck, ⟨fits_iff.mpr ⟨⟨?_, hline⟩, hdecisions, ?_⟩, hback⟩, rfl, rfl⟩
  · exact le_trans hnonneg hback
  · exact List.forall₂_reverse_iff.mpr hleft

/-- Evaluating a conditional at a cursor keeps it fit and does not take it back, whether or not a
branch is entered: a branch does not start before its conditional. -/
theorem Fits.enterConditional (hn : n.Laid) (h : n.Fits m.cursor) {x : Conditional}
    (hx : x ∈ n.conditionals) (hstart : x.start = m.cursor.line) (vs : Variables) (depth : Nat) :
    n.Onward m.cursor (n.enterConditional vs depth m x).cursor ∧
      (n.enterConditional vs depth m x).cursor.decisions = m.cursor.decisions ∧
      (n.enterConditional vs depth m x).cursor.choices = m.cursor.choices := by
  obtain ⟨⟨hnonneg, -⟩, hdecisions, hbranches⟩ := fits_iff.mp h
  obtain ⟨-, hstop⟩ := hn.conditional_within x hx
  have hlaid := hn.conditional_laid x hx
  have hle := hlaid.start_le_stop
  unfold Node.enterConditional
  rcases hselect : x.select vs with ⟨choice, faults⟩
  cases choice with
  | none =>
    exact ⟨⟨h.moveTo ⟨by omega, hstop⟩, by dsimp only; omega⟩, rfl, rfl⟩
  | some choice =>
    obtain ⟨way, b⟩ := choice
    have hb : at? x.branches way = some b := Conditional.select_some (congrArg Prod.fst hselect)
    obtain ⟨hbefore, hforth, hbehind⟩ := hlaid.branch_within (mem_of_at? hb)
    exact ⟨⟨fits_iff.mpr ⟨⟨by dsimp only; omega, by dsimp only; omega⟩, hdecisions,
      forall₂_concat.mpr ⟨hbranches, x, b, hn.at?_conditional hx, hb⟩⟩, by dsimp only; omega⟩,
      rfl, rfl⟩

/-! ### Rounds over the conditionals -/

/-- The rounds of a pass over the conditionals until there is nothing left to do, with the
conditionals that are evaluated, first one first. There is no bound on their number. -/
inductive Rounds (n : Node) (vs : Variables) (depth : Nat) :
    Motion → List Conditional → Motion → Prop where
  /-- No conditional is left at the cursor. -/
  | rest {m : Motion} {c : Cursor} (hleft : n.leaveBranches m.cursor = (c, false))
      (hnone : n.conditionalAt? depth m.seen c = none) :
      Rounds n vs depth m [] { m with cursor := c, stuck := false }
  /-- A conditional is evaluated. -/
  | evaluate {m m' : Motion} {c : Cursor} {x : Conditional} {xs : List Conditional}
      (hleft : n.leaveBranches m.cursor = (c, false))
      (hx : n.conditionalAt? depth m.seen c = some x)
      (h : Rounds n vs depth
        (n.enterConditional vs depth { m with cursor := c, stuck := false } x) xs m') :
      Rounds n vs depth m (x :: xs) m'

/-- The rounds from a cursor that fits come to an end. -/
theorem Fits.exists_rounds (hn : n.Laid) (h : n.Fits m.cursor) (vs : Variables) (depth : Nat) :
    ∃ xs m', n.Rounds vs depth m xs m' := by
  -- on the number of conditionals that have not been evaluated, of which each round takes one
  induction hk : (n.unseen depth m.seen).length using Nat.strong_induction_on generalizing m with
  | _ k ih =>
    obtain ⟨c, hleft, hc, -⟩ := h.leaveBranches hn
    cases hat : n.conditionalAt? depth m.seen c with
    | none => exact ⟨[], _, .rest hleft hat⟩
    | some x =>
      obtain ⟨hx, hstart, -, hseen⟩ := conditionalAt?_some hat
      have hfewer := length_unseen_cons hx hseen
      obtain ⟨hentered, -⟩ := Fits.enterConditional hn
        (m := { m with cursor := c, stuck := false }) hc.fits hx hstart vs depth
      obtain ⟨xs, m', hrounds⟩ := ih _ (hk ▸ hfewer) hentered.fits rfl
      exact ⟨x :: xs, m', .evaluate hleft hat hrounds⟩

namespace Rounds

variable (h : n.Rounds vs depth m xs m')

include h

/-- The conditionals that are evaluated are some of the node that have not been evaluated before. -/
theorem fresh : ∀ x ∈ xs, x ∈ n.conditionals ∧ n.visit depth .conditional x.index ∉ m.seen := by
  induction h with
  | rest _ _ => simp
  | evaluate _ hat _ ih =>
    obtain ⟨hx, -, -, hseen⟩ := conditionalAt?_some hat
    refine List.forall_mem_cons.mpr ⟨⟨hx, hseen⟩, fun y hy => ?_⟩
    obtain ⟨hy, hnew⟩ := ih y hy
    exact ⟨hy, fun hmem => hnew (List.mem_cons_of_mem _ hmem)⟩

/-- No conditional is evaluated twice. -/
theorem nodup : (xs.map fun x => n.visit depth .conditional x.index).Nodup := by
  induction h with
  | rest _ _ => exact .nil
  | evaluate _ _ hrest ih =>
    refine List.nodup_cons.mpr ⟨fun hmem => ?_, ih⟩
    -- what is evaluated later has not been evaluated by then
    obtain ⟨y, hy, hvisit⟩ := List.mem_map.mp hmem
    refine (hrest.fresh y hy).2 ?_
    rw [hvisit]
    exact List.mem_cons_self ..

/-- There are no more rounds with an evaluation than conditionals. -/
theorem length_le : xs.length ≤ n.conditionals.length :=
  ((List.Nodup.of_map _ h.nodup).subperm fun x hx => (h.fresh x hx).1).length_le

/-- A pass that may take more rounds takes these. -/
theorem passConditionalsUpTo {k : Nat} (hk : xs.length < k) :
    n.passConditionalsUpTo vs depth k m = m' := by
  induction h generalizing k with
  | rest hleft hnone =>
    obtain ⟨k, rfl⟩ := Nat.exists_eq_add_one_of_ne_zero (Nat.ne_zero_of_lt hk)
    simp [Node.passConditionalsUpTo, hleft, hnone]
  | evaluate hleft hat _ ih =>
    obtain ⟨k, rfl⟩ := Nat.exists_eq_add_one_of_ne_zero (Nat.ne_zero_of_lt hk)
    simpa [Node.passConditionalsUpTo, hleft, hat] using ih (Nat.lt_of_succ_lt_succ hk)

/-- The rounds keep a cursor fit, do not take it back, leave the decisions alone, and are not
stuck. -/
theorem keeps (hn : n.Laid) (hm : n.Fits m.cursor) : n.Onward m.cursor m'.cursor ∧
    m'.cursor.decisions = m.cursor.decisions ∧ m'.cursor.choices = m.cursor.choices ∧
    m'.stuck = false := by
  induction h with
  | rest hleft _ =>
    obtain ⟨c, hc, honward, hdecisions, hchoices⟩ := hm.leaveBranches hn
    obtain ⟨rfl, -⟩ := Prod.mk.inj (hleft.symm.trans hc)
    exact ⟨honward, hdecisions, hchoices, rfl⟩
  | @evaluate m m' _ x _ hleft hat _ ih =>
    obtain ⟨c, hc, honward, hdecisions, hchoices⟩ := hm.leaveBranches hn
    obtain ⟨rfl, -⟩ := Prod.mk.inj (hleft.symm.trans hc)
    obtain ⟨hx, hstart, -⟩ := conditionalAt?_some hat
    obtain ⟨hentered, hdecisions', hchoices'⟩ := Fits.enterConditional hn
      (m := { m with cursor := _, stuck := false }) honward.fits hx hstart vs depth
    obtain ⟨hrest, hdecisions'', hchoices'', hstuck⟩ := ih hentered.fits
    exact ⟨honward.trans (hentered.trans hrest),
      hdecisions''.trans (hdecisions'.trans hdecisions),
      hchoices''.trans (hchoices'.trans hchoices), hstuck⟩

end Rounds

/-- The pass over the conditionals takes as many rounds as it takes: it is not cut short. -/
theorem Rounds.passConditionals (h : n.Rounds vs depth { cursor := c, seen } xs m) :
    n.passConditionals vs depth seen c = m :=
  h.passConditionalsUpTo (Nat.lt_succ_of_le h.length_le)

/-! ### The pass over the decisions -/

/-- Leaving options where no decision waits is not stuck, keeps a cursor fit, and does not take it
back. Still no decision waits. -/
theorem Fits.leaveOptions (hn : n.Laid) (h : n.Fits c)
    (hsettled : c.decisions.length ≤ c.choices.length) : ∃ c', n.leaveOptions c = (c', false) ∧
      n.Onward c c' ∧ Forall₂ n.HasOption c'.decisions c'.choices := by
  obtain ⟨⟨hnonneg, hle⟩, ⟨is, js, hdecisions, hoptions, -⟩, hbranches⟩ := fits_iff.mp h
  obtain rfl := Cursor.eq_nil_of_settled hdecisions hoptions.length_eq hsettled
  rw [List.append_nil] at hdecisions
  subst hdecisions
  have hbound (i w wayEnd blockEnd : Int) (hends : n.optionEnds? i w = some (wayEnd, blockEnd)) :
      blockEnd ≤ n.lines.length := by
    obtain ⟨d, o, hpicks, hdo⟩ := picks_of_ends hends
    obtain ⟨rfl, rfl⟩ := Prod.mk.inj hdo
    exact (hn.decision_within d (mem_of_at? hpicks.1)).2
  obtain ⟨hstuck, ⟨hback, hline⟩, hleft⟩ := Departure.leave_within
    (fun _ _ => HasOption.isSome_ends) hbound (List.forall₂_reverse_iff.mpr hoptions) hle
  have hleft := List.forall₂_reverse_iff.mpr hleft
  exact ⟨_, Prod.ext rfl hstuck, ⟨fits_iff.mpr ⟨⟨le_trans hnonneg hback, hline⟩,
    ⟨_, [], (List.append_nil _).symm, hleft, by simp⟩, hbranches⟩, hback⟩, hleft⟩

/-- The pass over the decisions is not stuck, keeps a cursor fit, and does not take it back. If a
decision is asked, it is the one that has been opened last. -/
theorem Fits.passDecisions (hn : n.Laid) (h : n.Fits c) {turn : Turn}
    (hpass : n.passDecisions depth seen c = (c', turn)) : turn ≠ .stuck ∧ n.Onward c c' ∧
      ∀ d, turn = .ask d → n.openDecision? c' = some d := by
  unfold Node.passDecisions at hpass
  split at hpass
  · next hwaits =>
    -- a decision waits already and is asked once more
    obtain ⟨-, ⟨is, js, hdecisions, hoptions, hjs⟩, -⟩ := fits_iff.mp h
    obtain ⟨d, hopen⟩ := exists_openDecision_of_waits hdecisions hoptions.length_eq
      (fun j hj => (hjs j hj).imp fun _ => And.left) hwaits
    rw [← openDecision?, hopen] at hpass
    obtain ⟨rfl, rfl⟩ := Prod.mk.inj hpass
    refine ⟨by simp, ⟨h, le_rfl⟩, ?_⟩
    rintro e ⟨⟩
    exact hopen
  · next hsettled =>
    obtain ⟨c₁, hleft, honward, hoptions⟩ := h.leaveOptions hn (not_lt.mp hsettled)
    simp only [hleft] at hpass
    cases hat : n.decisionAt? depth seen c₁ with
    | none =>
      rw [hat] at hpass
      obtain ⟨rfl, rfl⟩ := Prod.mk.inj hpass
      exact ⟨by simp, honward, by simp⟩
    | some d =>
      rw [hat] at hpass
      obtain ⟨rfl, rfl⟩ := Prod.mk.inj hpass
      obtain ⟨hmem, -⟩ := decisionAt?_some hat
      obtain ⟨hrange, -, hbranches⟩ := fits_iff.mp honward.fits
      refine ⟨by simp, ⟨fits_iff.mpr ⟨hrange, ⟨c₁.decisions, [d.index], rfl, hoptions, ?_⟩,
        hbranches⟩, honward.line_le⟩, ?_⟩
      · -- the decision that is opened has options
        intro j hj
        obtain rfl := List.mem_singleton.mp hj
        exact ⟨d, hn.at?_decision hmem, (hn.decision_laid d hmem).nonempty⟩
      · rintro e ⟨⟩
        simp [openDecision?, hn.at?_decision hmem]

end Node

end VisualNovel
