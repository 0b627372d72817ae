import VisualNovel.Proofs.Text.Split
import VisualNovel.Typewriter

/-!
# Scanning a text for tags

A typewriter passes over a text from left to right: a tag as a whole, and any other character on its
own. A bracket that is never closed starts no tag. Where such a scan arrives is said without looking
at how long a tag is; a reveal stops at these positions only, and none of them is inside a tag.

## Main definitions

* `Typewriter.Arrives`: the positions at which the scan of a text arrives;
* `Typewriter.stride`: how far the scan goes at once.

## Main results

* `Typewriter.Arrives.trans`: a scan may be interrupted where it has arrived;
* `Typewriter.Arrives.outside`: the scan never arrives inside a tag;
* `Typewriter.reveal_cons`: a reveal goes on by strides;
* `Typewriter.arrives_reveal`, `Typewriter.reveal_ended_iff`: where a reveal stops.
-/

namespace VisualNovel.Typewriter

open Text

variable {c : Char} {s v rest : List Char} {m n p : Nat}

/-! ### Positions of the scan -/

/-- The positions at which the scan of a text arrives. -/
inductive Arrives : List Char → Nat → Prop where
  /-- The scan begins in front of the text. -/
  | start (s : List Char) : Arrives s 0
  /-- A tag is passed over as a whole. -/
  | tag {v s : List Char} {n : Nat} (hv : '>' ∉ v) (h : Arrives s n) :
      Arrives ('<' :: (v ++ '>' :: s)) (v.length + 2 + n)
  /-- Any other character is passed over on its own. -/
  | char {c : Char} {s : List Char} {n : Nat} (hc : c = '<' → '>' ∉ s) (h : Arrives s n) :
      Arrives (c :: s) (n + 1)

namespace Arrives

/-- A tag ends in one place only. -/
theorem tag_unique {v v' s s' : List Char} (hv : '>' ∉ v) (hv' : '>' ∉ v')
    (h : v ++ '>' :: s = v' ++ '>' :: s') : v = v' ∧ s = s' := by
  have hbreak := breakAt_append hv s
  rw [h, breakAt_append hv' s'] at hbreak
  obtain ⟨rfl, rfl⟩ := Prod.mk.inj (Option.some.inj hbreak)
  exact ⟨rfl, rfl⟩

/-- Where a text starts with a tag, the scan goes on behind it. -/
theorem of_tag (hv : '>' ∉ v) (h : Arrives ('<' :: (v ++ '>' :: s)) n) :
    n = 0 ∨ ∃ m, n = v.length + 2 + m ∧ Arrives s m := by
  generalize ht : '<' :: (v ++ '>' :: s) = t at h
  cases h with
  | start => exact .inl rfl
  | tag hv' h =>
    obtain ⟨rfl, rfl⟩ := tag_unique hv hv' (List.cons.inj ht).2
    exact .inr ⟨_, rfl, h⟩
  | char hc h =>
    obtain ⟨rfl, rfl⟩ := List.cons.inj ht
    exact absurd (by simp) (hc rfl)

/-- Where a text starts with another character, the scan goes on behind that one. -/
theorem of_char (hc : c = '<' → '>' ∉ s) (h : Arrives (c :: s) n) :
    n = 0 ∨ ∃ m, n = m + 1 ∧ Arrives s m := by
  generalize ht : c :: s = t at h
  cases h with
  | start => exact .inl rfl
  | tag hv h =>
    obtain ⟨rfl, rfl⟩ := List.cons.inj ht
    exact absurd (by simp) (hc rfl)
  | char _ h =>
    obtain ⟨-, rfl⟩ := List.cons.inj ht
    exact .inr ⟨_, rfl, h⟩

/-- The scan stays within the text. -/
theorem le_length (h : Arrives s n) : n ≤ s.length := by
  induction h with
  | start => exact Nat.zero_le _
  | tag _ _ ih =>
    simp only [List.length_cons, List.length_append]
    omega
  | char _ _ ih => exact Nat.succ_le_succ ih

/-- What stands behind a tag. -/
theorem drop_tag (v s : List Char) (n : Nat) :
    ('<' :: (v ++ '>' :: s)).drop (v.length + 2 + n) = s.drop n := by
  rw [show v.length + 2 + n = (v.length + (1 + n)) + 1 by omega, List.drop_succ_cons,
    ← List.drop_drop, List.drop_left, Nat.add_comm, List.drop_succ_cons]

/-- A scan may be interrupted where it has arrived. -/
theorem trans (h : Arrives s n) (hrest : Arrives (s.drop n) m) : Arrives s (n + m) := by
  induction h with
  | start => simpa using hrest
  | @tag v s n hv _ ih =>
    rw [drop_tag] at hrest
    rw [Nat.add_assoc]
    exact .tag hv (ih hrest)
  | @char c s n hc _ ih =>
    rw [List.drop_succ_cons] at hrest
    rw [Nat.add_right_comm]
    exact .char hc (ih hrest)

/-- The scan never arrives inside a tag: it stays in front of it, or it has passed over it. -/
theorem outside (h : Arrives s n) (hp : Arrives s p) (htag : s.drop p = '<' :: (v ++ '>' :: rest))
    (hv : '>' ∉ v) : n ≤ p ∨ p + v.length + 2 ≤ n := by
  -- on the scan that arrives at the tag; the other one has to take the same way up to there
  induction hp generalizing n with
  | start s =>
    rw [List.drop_zero] at htag
    rcases of_tag hv (htag ▸ h) with rfl | ⟨m, rfl, -⟩
    · exact .inl le_rfl
    · exact .inr (by omega)
  | @tag u s p hu _ ih =>
    rcases of_tag hu h with rfl | ⟨m, rfl, hm⟩
    · exact .inl (Nat.zero_le _)
    · rw [drop_tag] at htag
      have hsides := ih hm htag
      omega
  | @char c s p hc _ ih =>
    rcases of_char hc h with rfl | ⟨m, rfl, hm⟩
    · exact .inl (Nat.zero_le _)
    · rw [List.drop_succ_cons] at htag
      have hsides := ih hm htag
      omega

end Arrives

/-! ### Strides of a reveal -/

/-- The length of a tag is counted up to the first bracket that closes one. -/
theorem tagLength?_eq (s : List Char) :
    tagLength? s = (breakAt '>' s).map fun x => x.1.length + 1 := by
  induction s with
  | nil => rfl
  | cons c s ih =>
    rw [tagLength?, breakAt, ih]
    split
    · rfl
    · simp [Function.comp_def]

/-- How far the scan goes at once: over a tag or over a single character. -/
def stride : List Char → Nat
  | [] => 0
  | c :: s => if c = '<' then (tagLength? s).getD 0 + 1 else 1

/-- A stride over a tag. -/
theorem stride_tag (hv : '>' ∉ v) (s : List Char) :
    stride ('<' :: (v ++ '>' :: s)) = v.length + 2 := by
  simp [stride, tagLength?_eq, breakAt_append hv]

/-- A stride over a single character. -/
theorem stride_char (hc : c = '<' → '>' ∉ s) : stride (c :: s) = 1 := by
  by_cases h : c = '<'
  · simp [stride, tagLength?_eq, breakAt_eq_none_iff.mpr (hc h)]
  · simp [stride, h]

/-- A text starts with a tag or with another character. -/
theorem tag_or_char (c : Char) (s : List Char) :
    (∃ v rest, c = '<' ∧ s = v ++ '>' :: rest ∧ '>' ∉ v) ∨ (c = '<' → '>' ∉ s) := by
  cases hs : breakAt '>' s with
  | none => exact .inr fun _ => breakAt_eq_none_iff.mp hs
  | some x =>
    obtain ⟨hsplit, hv⟩ := breakAt_eq_some_iff.mp hs
    by_cases hc : c = '<'
    · exact .inl ⟨_, _, hc, hsplit, hv⟩
    · exact .inr fun h => absurd h hc

/-- What holds of the empty text, and of a text with a tag or another character in front of a text of
which it holds, holds of every text. -/
theorem scan_induction {P : List Char → Prop} (nil : P [])
    (tag : ∀ v s, '>' ∉ v → P s → P ('<' :: (v ++ '>' :: s)))
    (char : ∀ c s, (c = '<' → '>' ∉ s) → P s → P (c :: s)) (s : List Char) : P s := by
  induction hlen : s.length using Nat.strong_induction_on generalizing s with
  | _ k ih =>
    subst hlen
    cases s with
    | nil => exact nil
    | cons c s =>
      rcases tag_or_char c s with ⟨v, rest, rfl, rfl, hv⟩ | hc
      · exact tag v rest hv (ih _ (by simp; omega) rest rfl)
      · exact char c s hc (ih _ (by simp) s rfl)

/-- The scan of a text arrives at its end. -/
theorem arrives_length (s : List Char) : Arrives s s.length := by
  induction s using scan_induction with
  | nil => exact .start []
  | tag v s hv ih =>
    rw [show ('<' :: (v ++ '>' :: s)).length = v.length + 2 + s.length by simp; omega]
    exact .tag hv ih
  | char c s hc ih => exact .char hc ih

/-- A stride goes on, and it stays within the text. -/
theorem stride_bounds (h : s ≠ []) : 0 < stride s ∧ stride s ≤ s.length := by
  obtain ⟨c, s, rfl⟩ := List.exists_cons_of_ne_nil h
  rcases tag_or_char c s with ⟨v, rest, rfl, rfl, hv⟩ | hc
  · rw [stride_tag hv]
    simp only [List.length_cons, List.length_append]
    omega
  · rw [stride_char hc]
    simp

/-- A scan that has arrived goes on by a stride. -/
theorem arrives_stride (h : Arrives (s.drop (stride s)) n) : Arrives s (stride s + n) := by
  cases s with
  | nil => simpa [stride] using h
  | cons c s =>
    refine .trans ?_ h
    rcases tag_or_char c s with ⟨v, rest, rfl, rfl, hv⟩ | hc
    · rw [stride_tag hv]
      exact .tag hv (.start rest)
    · rw [stride_char hc]
      exact .char hc (.start s)

variable {pace timer : Float}

/-- The rest of a tag is passed without looking at the time. -/
theorem reveal_drop (hk : m ≤ s.length) : reveal pace m s timer =
    { reveal pace 0 (s.drop m) timer with
      passed := m + (reveal pace 0 (s.drop m) timer).passed } := by
  induction m generalizing s with
  | zero => simp
  | succ m ih =>
    obtain ⟨c, s, rfl⟩ := List.exists_cons_of_length_pos (Nat.lt_of_lt_of_le m.succ_pos hk)
    rw [reveal, ih (Nat.succ_le_succ_iff.mp hk), List.drop_succ_cons]
    simp only [Progress.next, Progress.mk.injEq, and_true]
    omega

/-- While there is time, a reveal goes on by a stride; only a character that starts no tag takes
time. -/
theorem reveal_cons (htimer : timer ≤ 0) (c : Char) (s : List Char) :
    let later := if c = '<' then timer else timer + pace
    let p := reveal pace 0 ((c :: s).drop (stride (c :: s))) later
    reveal pace 0 (c :: s) timer = { p with passed := stride (c :: s) + p.passed } := by
  have hk : stride (c :: s) ≤ (c :: s).length := (stride_bounds (by simp)).2
  rw [reveal, if_pos htimer]
  by_cases hc : c = '<'
  · simp only [hc, if_true, stride, List.length_cons, Nat.succ_le_succ_iff] at hk ⊢
    rw [reveal_drop hk]
    simp only [Progress.next, List.drop_succ_cons, Progress.mk.injEq, and_true]
    omega
  · simp only [hc, if_false, stride, Progress.next, List.drop_succ_cons, List.drop_zero,
      Progress.mk.injEq, and_true]
    omega

/-- What every stride of a reveal keeps holds of the reveal. -/
theorem reveal_induction {P : List Char → Float → Progress → Prop}
    (ends : ∀ timer, P [] timer ⟨0, timer, true⟩)
    (stops : ∀ c s timer, ¬timer ≤ 0 → P (c :: s) timer ⟨0, timer, false⟩)
    (strides : ∀ c s timer later p, timer ≤ 0 → P ((c :: s).drop (stride (c :: s))) later p →
      P (c :: s) timer { p with passed := stride (c :: s) + p.passed })
    (s : List Char) (timer : Float) : P s timer (reveal pace 0 s timer) := by
  -- on the length of what is left, which every stride shortens
  induction hlen : s.length using Nat.strong_induction_on generalizing s timer with
  | _ k ih =>
    cases s with
    | nil => exact ends timer
    | cons c s =>
      by_cases htimer : timer ≤ 0
      · rw [reveal_cons htimer]
        have hpos := (stride_bounds (List.cons_ne_nil c s)).1
        refine strides c s timer _ _ htimer (ih _ ?_ _ _ rfl)
        rw [List.length_drop]
        simp only [List.length_cons] at hlen ⊢
        omega
      · rw [reveal, if_neg htimer]
        exact stops c s timer htimer

/-- A reveal stops where the scan of the text arrives. -/
theorem arrives_reveal (pace : Float) (s : List Char) (timer : Float) :
    Arrives s (reveal pace 0 s timer).passed := by
  refine reveal_induction (P := fun s _ p => Arrives s p.passed) ?_ ?_ ?_ s timer
  · exact fun _ => .start []
  · exact fun c s _ _ => .start (c :: s)
  · exact fun c s _ _ p _ h => arrives_stride h

/-- A reveal has come to the end exactly if it has passed the whole text. -/
theorem reveal_ended_iff (pace : Float) (s : List Char) (timer : Float) :
    (reveal pace 0 s timer).ended = true ↔ (reveal pace 0 s timer).passed = s.length := by
  refine reveal_induction (P := fun s _ p => p.ended = true ↔ p.passed = s.length) ?_ ?_ ?_ s timer
  · simp
  · simp
  · intro c s _ _ p _ h
    have hk : stride (c :: s) ≤ (c :: s).length := (stride_bounds (by simp)).2
    rw [h, List.length_drop]
    dsimp only
    omega

end VisualNovel.Typewriter
