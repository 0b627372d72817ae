import VisualNovel.Proofs.Motion.Passing

/-!
# Passing over blocks once more

When a stored session is taken up again, the blocks at its cursor are passed over once more, and
nothing is known of those that have been entered before. This leaves the cursor as it is if the
conditionals have nothing more to do there, and not otherwise; a decision that waits is asked again,
and so is every decision at the line that is not open.

## Main results

* `Node.Poised.passConditionals_eq_iff`: when the conditionals leave the cursor as it is;
* `Node.Poised.pass_waiting`: what becomes of a decision that waits;
* `Node.Poised.pass_settled`: what becomes of a line on screen.
-/

namespace VisualNovel

/-- A motion on which a decision waits. -/
def Motion.opening (m : Motion) (index : Int) : Motion :=
  { m with cursor := m.cursor.opening index }

namespace Node

variable {n : Node} {depth : Nat} {seen : List Visit} {c : Cursor}

/-- A decision that waits does not matter for the conditionals. -/
theorem passConditionals_opening (vs : Variables) (index : Int) :
    n.passConditionals vs depth seen (c.opening index) =
      (n.passConditionals vs depth seen c).opening index := by
  have henter (m : Motion) (x : Conditional) :
      n.enterConditional vs depth (m.opening index) x =
        (n.enterConditional vs depth m x).opening index := by
    unfold enterConditional
    rcases x.select vs with ⟨choice, faults⟩
    cases choice <;> rfl
  -- round by round: neither leaving nor entering branches looks at the decisions
  have hupTo (k : Nat) (m : Motion) :
      n.passConditionalsUpTo vs depth k (m.opening index) =
        (n.passConditionalsUpTo vs depth k m).opening index := by
    induction k generalizing m with
    | zero => rfl
    | succ k ih =>
      have hleave : n.leaveBranches (m.opening index).cursor =
          ((n.leaveBranches m.cursor).1.opening index, (n.leaveBranches m.cursor).2) := rfl
      unfold passConditionalsUpTo
      rw [hleave]
      rcases n.leaveBranches m.cursor with ⟨c', stuck⟩
      dsimp only
      split
      · rfl
      have hat : n.conditionalAt? depth (m.opening index).seen (c'.opening index) =
          n.conditionalAt? depth m.seen c' := rfl
      rw [hat]
      cases n.conditionalAt? depth m.seen c' with
      | none => rfl
      | some x =>
        have hnext := henter { m with cursor := c', stuck := stuck } x
        exact (congrArg (n.passConditionalsUpTo vs depth k) hnext).trans (ih _)
  exact hupTo _ { cursor := c, seen }

/-- A decision that waits is asked once more. -/
theorem passDecisions_opening (h : n.Poised depth seen c) (hn : n.Laid) {d : Decision}
    (hd : d ∈ n.decisions) (seen' : List Visit) :
    n.passDecisions depth seen' (c.opening d.index) = (c.opening d.index, .ask d) := by
  have hlength : (c.opening d.index).choices.length < (c.opening d.index).decisions.length := by
    simp [Cursor.opening, h.length_choices]
  rw [passDecisions, if_pos hlength]
  simp [Cursor.opening, hn.at?_decision hd]

namespace Poised

variable (hn : n.Laid) (h : n.Poised depth [] c) (vs : Variables)

include hn h

/-- Conditionals leave a cursor as it is exactly if they have nothing more to do there. -/
theorem passConditionals_eq_iff : (n.passConditionals vs depth [] c).cursor = c ↔ n.Settled c := by
  refine ⟨fun heq => ?_, fun hsettled => h.passConditionals_of_settled hn hsettled vs⟩
  obtain ⟨-, hpoised, -, hunfinished, hnone⟩ := h.passConditionals hn vs
  have hsettled := hpoised.settled hunfinished hnone
  rwa [heq] at hsettled

/-- Where a decision waits, it is asked once more. -/
theorem pass_waiting {d : Decision} (hd : d ∈ n.decisions) :
    (n.passConditionals vs depth [] (c.opening d.index)).stuck = false ∧
      (n.passConditionals vs depth [] (c.opening d.index)).cursor =
        (n.passConditionals vs depth [] c).cursor.opening d.index ∧
      ∀ seen, n.passDecisions depth seen
          ((n.passConditionals vs depth [] c).cursor.opening d.index) =
        ((n.passConditionals vs depth [] c).cursor.opening d.index, .ask d) := by
  obtain ⟨hstuck, hpoised, -⟩ := h.passConditionals hn vs
  rw [passConditionals_opening]
  exact ⟨hstuck, rfl, fun seen => passDecisions_opening hpoised hn hd seen⟩

/-- Where no option is finished and the conditionals have nothing more to do, the cursor is left as
it is, unless there is a decision that is not open. -/
theorem pass_settled (hsettled : n.Settled c) (hunfinished : n.OptionUnfinished c) :
    (n.passConditionals vs depth [] c).stuck = false ∧
      (n.passConditionals vs depth [] c).cursor = c ∧
      ((∀ d ∈ n.decisions, d.start = c.line → d.index ∈ c.decisions) →
        n.passDecisions depth (n.passConditionals vs depth [] c).seen c = (c, .onward)) ∧
      ((∃ d ∈ n.decisions, d.start = c.line ∧ d.index ∉ c.decisions) →
        ∃ c' d,
          n.passDecisions depth (n.passConditionals vs depth [] c).seen c = (c', .ask d)) := by
  obtain ⟨hstuck, hpoised, hpassed, -⟩ := h.passConditionals hn vs
  have hsame := h.passConditionals_of_settled hn hsettled vs
  rw [hsame] at hpoised
  -- only conditionals have been entered
  have hseen (d : Decision) : n.visit depth .decision d.index ∉
      (n.passConditionals vs depth [] c).seen := by
    intro hmem
    rcases hpassed.seen_new _ hmem with hnil | ⟨index, heq⟩
    · cases hnil
    · cases congrArg Visit.kind heq
  have hleave := hpoised.leaveOptions_of_unfinished hunfinished
  refine ⟨hstuck, hsame, fun hall => ?_, ?_⟩
  · rw [passDecisions_eq hn hpoised, hleave]
    have hnone : n.decisionAt? depth (n.passConditionals vs depth [] c).seen c = none := by
      cases hat : n.decisionAt? depth (n.passConditionals vs depth [] c).seen c with
      | none => rfl
      | some d =>
        obtain ⟨hd, hstart, hopen, -⟩ := decisionAt?_some hat
        exact absurd (hall d hd hstart) hopen
    rw [hnone]
  · rintro ⟨d, hd, hstart, hopen⟩
    rw [passDecisions_eq hn hpoised, hleave]
    cases hat : n.decisionAt? depth (n.passConditionals vs depth [] c).seen c with
    | none => exact absurd ((decisionAt?_none hat hd hstart).resolve_left hopen) (hseen d)
    | some e => exact ⟨_, _, rfl⟩

end Poised

end Node

end VisualNovel
