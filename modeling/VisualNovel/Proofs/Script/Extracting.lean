import VisualNovel.Proofs.Script.Passage

/-!
# The condition of a line

The condition of a line stands between its first opening parenthesis and the parenthesis that closes
it. What is in front of the one and behind the other plays no part, however many parentheses there
are, and a line whose first parenthesis is not closed has no condition at all.

## Main definitions

* `Script.FirstGroup`: the text between the first parenthesis of a line and the one that closes it.

## Main results

* `Script.closingGroup?_eq_some_iff`: the text in front of a closing parenthesis is found if the
  parentheses in it match;
* `Script.firstGroup_iff`: how the first group of a line is found, so that there is one at most;
* `Script.extractCondition_firstGroup`: the condition of a line is its first group, trimmed.
-/

namespace VisualNovel.Script

open Text

variable {line s e : List Char} {depth : Nat}

/-- What is found in front of a closing parenthesis closes as many parentheses as were open before
it, and nowhere more than that. -/
theorem matches_of_closingGroup? (h : closingGroup? depth s = some e) :
    (∃ behind, s = e ++ ')' :: behind) ∧ (∀ t, t <+: e → t.count ')' ≤ depth + t.count '(') ∧
      depth + e.count '(' = e.count ')' := by
  induction s generalizing depth e with
  | nil => simp [closingGroup?] at h
  | cons c s ih =>
    -- behind the first character, the group goes on with another number of open parentheses
    have hcons {d : Nat} (hfound : (closingGroup? d s).map (c :: ·) = some e)
        (hdepth : depth + [c].count '(' = d + [c].count ')') :
        (∃ behind, c :: s = e ++ ')' :: behind) ∧
          (∀ t, t <+: e → t.count ')' ≤ depth + t.count '(') ∧
          depth + e.count '(' = e.count ')' := by
      obtain ⟨rest, hrest, rfl⟩ := Option.map_eq_some_iff.mp hfound
      obtain ⟨⟨behind, rfl⟩, hopened, hclosed⟩ := ih hrest
      have hcount (x : Char) (t : List Char) : (c :: t).count x = [c].count x + t.count x := by
        rw [← List.singleton_append, List.count_append]
      refine ⟨⟨behind, rfl⟩, fun t ht => ?_, ?_⟩
      · rcases List.prefix_cons_iff.mp ht with rfl | ⟨u, rfl, hu⟩
        · simp
        · have := hopened u hu
          rw [hcount ')' u, hcount '(' u]
          omega
      · rw [hcount ')' rest, hcount '(' rest]
        omega
    rw [closingGroup?.eq_def] at h
    dsimp only at h
    by_cases hopen : c = '('
    · rw [if_pos hopen] at h
      exact hcons h (by simp [hopen])
    by_cases hclose : c = ')'
    · rw [if_neg hopen, if_pos hclose] at h
      cases depth with
      | zero =>
        -- this is the parenthesis that closes the group
        obtain rfl : [] = e := by simpa using h
        exact ⟨⟨s, by rw [hclose, List.nil_append]⟩, by simp, rfl⟩
      | succ d => exact hcons h (by simp [hclose])
    · rw [if_neg hopen, if_neg hclose] at h
      exact hcons h (by simp [hopen, hclose])

/-- The text in front of a closing parenthesis is found if the parentheses in it match. -/
theorem closingGroup?_eq_some_iff :
    closingGroup? 0 s = some e ↔ Balanced e ∧ ∃ behind, s = e ++ ')' :: behind := by
  constructor
  · intro h
    obtain ⟨hs, hopened, hclosed⟩ := matches_of_closingGroup? h
    exact ⟨⟨by simpa using hopened, by simpa using hclosed⟩, hs⟩
  · rintro ⟨hbalanced, behind, rfl⟩
    have hopened : ∀ t, t <+: e → t.count ')' ≤ 0 + t.count '(' := by
      simpa using hbalanced.opened
    have hclosed : 0 + e.count '(' = 0 + e.count ')' := by simpa using hbalanced.closed
    rw [closingGroup?_append (')' :: behind) hopened hclosed]
    simp [closingGroup?.eq_def]

/-- A text stands between the first opening parenthesis of a line and the parenthesis that closes
it: the parentheses in it match. -/
def FirstGroup (line e : List Char) : Prop :=
  ∃ front behind, line = front ++ '(' :: (e ++ ')' :: behind) ∧ '(' ∉ front ∧ Balanced e

/-- The first group of a line is found behind its first opening parenthesis, so there is one at
most. -/
theorem firstGroup_iff :
    FirstGroup line e ↔ ((breakAt '(' line).bind fun x => closingGroup? 0 x.2) = some e := by
  simp only [FirstGroup, Option.bind_eq_some_iff, Prod.exists, breakAt_eq_some_iff,
    closingGroup?_eq_some_iff]
  constructor
  · rintro ⟨front, behind, hline, hfront, hbalanced⟩
    exact ⟨front, e ++ ')' :: behind, ⟨hline, hfront⟩, hbalanced, behind, rfl⟩
  · rintro ⟨front, rest, ⟨hline, hfront⟩, hbalanced, behind, rfl⟩
    exact ⟨front, behind, hline, hfront, hbalanced⟩

/-- The condition of a line is its first group, trimmed. What stands in front of the group and
behind it makes no difference, and a line without such a group has the empty condition. -/
theorem extractCondition_firstGroup (line : List Char) :
    (∀ e, FirstGroup line e → extractCondition line = trim e) ∧
      ((∀ e, ¬FirstGroup line e) → extractCondition line = []) := by
  simp only [firstGroup_iff, extractCondition]
  cases breakAt '(' line with
  | none => simp
  | some x =>
    obtain ⟨front, rest⟩ := x
    cases hgroup : closingGroup? 0 rest <;> simp [hgroup]

/-- Groups in the condition, a group behind it, and a parenthesis that is not closed. -/
theorem extractCondition_firstGroup_pantry :
    let line := "else if ( (key) && (jam > 2 || ()) ) (again)".toList
    let unclosed := "if ((key) && jam > 2 // (2 is enough".toList
    (FirstGroup line " (key) && (jam > 2 || ()) ".toList ∧
        extractCondition line = "(key) && (jam > 2 || ())".toList) ∧
      (∀ e, ¬FirstGroup unclosed e) ∧ extractCondition unclosed = [] := by
  intro line unclosed
  have hgroup : FirstGroup line " (key) && (jam > 2 || ()) ".toList :=
    ⟨"else if ".toList, " (again)".toList, by decide +kernel, by decide +kernel, by decide +kernel⟩
  have hnone : (breakAt '(' unclosed).bind (fun x => closingGroup? 0 x.2) = none := by
    decide +kernel
  have hopen (e : List Char) : ¬FirstGroup unclosed e := by
    rw [firstGroup_iff, hnone]
    simp
  refine ⟨⟨hgroup, ?_⟩, hopen, (extractCondition_firstGroup unclosed).2 hopen⟩
  rw [(extractCondition_firstGroup line).1 _ hgroup]
  decide +kernel

end VisualNovel.Script
