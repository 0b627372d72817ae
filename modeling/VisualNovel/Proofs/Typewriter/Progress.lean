import VisualNovel.Proofs.Typewriter.Scanning

/-!
# Progress of a typewriter

A host lets time pass or asks for the whole text. While time passes, the typewriter works in rounds,
each of which passes over a tag or over a character; it comes to rest when time is used up or when
all is revealed. Nothing of this depends on how the numbers that measure time behave: every round
goes on in the text, so there are no more rounds than characters, and one to find that nothing is
left.

## Main definitions

* `Typewriter.round`, `Typewriter.ComesTo`: a round, and what rounds come to;
* `Typewriter.spent`: the typewriter when its time is used up;
* `Typewriter.Stroke`, `Typewriter.Carries`: what a host asks for, and what it brings about;
* `Typewriter.typed`: a typewriter after any strokes, and how often it has told that the text is
  complete;
* `Typewriter.Sound`: how far it is, where it stops, and what it has told;
* `Typewriter.Stopped`: it has stopped where the scan of the text arrives.

## Main results

* `Typewriter.tick_comesTo`: while time passes, the rounds come to an end;
* `Typewriter.stopped_typed`: any strokes lead to a typewriter that has stopped where the scan of the
  text arrives;
* `Typewriter.Stopped.sound`: such a typewriter is sound;
* `Typewriter.typed_advances`: every stroke ends, leads on, and keeps the typewriter sound.
-/

namespace VisualNovel.Typewriter

/-! ### Rounds -/

/-- The typewriter passes over a tag or over a character, which takes time, and looks whether all is
revealed then. -/
def round (w : Typewriter) : Typewriter :=
  match w.text.toList.drop w.revealed with
  | [] => { w with complete := true }
  | c :: s =>
    { w with
      revealed := w.revealed + stride (c :: s)
      timer := if c = '<' then w.timer else w.timer + w.pace
      complete := w.text.length ≤ w.revealed + stride (c :: s) }

/-- There is time for a further round, and something may be left to reveal. -/
def Runs (w : Typewriter) : Prop := w.complete = false ∧ w.timer ≤ 0

/-- A typewriter works as long as there is time, and rests as another one. There are no more rounds
than characters that are not revealed, and one. -/
def ComesTo (w w' : Typewriter) : Prop :=
  ∃ k ≤ w.text.length - w.revealed + 1, round^[k] w = w' ∧ (∀ i < k, (round^[i] w).Runs) ∧
    ¬w'.Runs

/-- The typewriter after a reveal. -/
def revealedBy (w : Typewriter) (p : Progress) : Typewriter :=
  { w with revealed := w.revealed + p.passed, timer := p.timer, complete := p.ended }

variable {w : Typewriter} {c : Char} {s : List Char}

/-- A round at a character. -/
theorem round_eq (h : w.text.toList.drop w.revealed = c :: s) : w.round = { w with
    revealed := w.revealed + stride (c :: s)
    timer := if c = '<' then w.timer else w.timer + w.pace
    complete := w.text.length ≤ w.revealed + stride (c :: s) } := by
  rw [round, h]

/-- The number of characters that are not revealed. -/
theorem length_left (w : Typewriter) :
    (w.text.toList.drop w.revealed).length = w.text.length - w.revealed := by
  rw [List.length_drop, String.length_toList]

/-- The typewriter when the time is used up, or everything is revealed. -/
def spent (w : Typewriter) : Typewriter :=
  w.revealedBy (reveal w.pace 0 (w.text.toList.drop w.revealed) w.timer)

/-- A round is part of what the time is used for. -/
theorem spent_round (htimer : w.timer ≤ 0) (hs : w.text.toList.drop w.revealed = c :: s) :
    w.round.spent = w.spent := by
  have hrest : w.round.text.toList.drop w.round.revealed = (c :: s).drop (stride (c :: s)) := by
    rw [round_eq hs, ← hs, List.drop_drop]
  rw [spent, spent, hrest, hs, reveal_cons htimer, round_eq hs]
  simp [revealedBy, Nat.add_assoc]

/-- If nothing is left, the text is complete. -/
theorem spent_of_length_le (h : w.text.length ≤ w.revealed) :
    w.spent = { w with complete := true } := by
  have hnil : w.text.toList.drop w.revealed = [] :=
    List.drop_eq_nil_of_le (by rwa [String.length_toList])
  rw [spent, hnil]
  rfl

/-- If there is no time, nothing is revealed. -/
theorem spent_of_timer (htimer : ¬w.timer ≤ 0) (hs : w.text.toList.drop w.revealed = c :: s) :
    w.spent = { w with complete := false } := by
  rw [spent, hs, reveal, if_neg htimer]
  rfl

/-- While something is left, rounds come to the typewriter when the time is used up. -/
theorem exists_rounds (hcomplete : w.complete = false) (hleft : w.revealed < w.text.length) :
    ∃ k ≤ w.text.length - w.revealed,
      round^[k] w = w.spent ∧ (∀ i < k, (round^[i] w).Runs) ∧ ¬w.spent.Runs := by
  -- on the number of characters that are left, which every round makes smaller
  induction hlen : w.text.length - w.revealed using Nat.strong_induction_on generalizing w with
  | _ left ih =>
    have hpos : 0 < (w.text.toList.drop w.revealed).length := by
      rw [w.length_left]
      omega
    obtain ⟨c, s, hs⟩ := List.exists_cons_of_length_pos hpos
    by_cases htimer : w.timer ≤ 0
    · have hround := round_eq hs
      have hstride := (stride_bounds (List.cons_ne_nil c s)).1
      rw [← spent_round htimer hs]
      by_cases hend : w.text.length ≤ w.revealed + stride (c :: s)
      · -- the round has revealed the rest, so it is the last one
        have hdone : w.round.spent = w.round := by
          rw [spent_of_length_le (by rwa [hround]), hround]
          simp [hend]
        rw [hdone]
        refine ⟨1, by omega, rfl, ?_, ?_⟩
        · intro i hi
          obtain rfl : i = 0 := by omega
          exact ⟨hcomplete, htimer⟩
        · rw [hround]
          simp [Runs, hend]
      · have hnext : w.round.text.length - w.round.revealed < left := by
          rw [hround]
          dsimp only
          omega
        obtain ⟨k, hk, hrounds, hruns, hrests⟩ := ih _ hnext (w := w.round)
          (by rw [hround]; simpa using hend) (by rw [hround]; exact not_le.mp hend) rfl
        refine ⟨k + 1, by omega, hrounds, ?_, hrests⟩
        rintro (_ | i) hi
        · exact ⟨hcomplete, htimer⟩
        · exact hruns i (by omega)
    · rw [spent_of_timer htimer hs]
      refine ⟨0, Nat.zero_le _, ?_, by simp, by simp [Runs, htimer]⟩
      exact congrArg (fun complete => { w with complete }) hcomplete

/-- While time passes, the rounds come to an end, and the typewriter is what they come to. -/
theorem tick_comesTo (hcomplete : w.complete = false) (hwithin : w.revealed ≤ w.text.length)
    (dt : Float) : ComesTo { w with timer := w.timer - dt } (w.tick dt) := by
  unfold tick
  rw [if_neg (by simp [hcomplete])]
  dsimp only
  by_cases htimer : w.timer - dt ≤ 0
  · rw [if_pos htimer]
    rcases Nat.lt_or_eq_of_le hwithin with hleft | hend
    · obtain ⟨k, hk, hrounds⟩ := exists_rounds (w := { w with timer := w.timer - dt })
        hcomplete hleft
      exact ⟨k, Nat.le_succ_of_le hk, hrounds⟩
    · -- nothing is left to reveal, which takes a round to be found
      have hnil : w.text.toList.drop w.revealed = [] :=
        List.length_eq_zero_iff.mp (by rw [w.length_left]; omega)
      rw [hnil, reveal]
      refine ⟨1, by dsimp only; omega, ?_, ?_, by simp [Runs]⟩
      · simp [round, hnil]
      · intro i hi
        obtain rfl : i = 0 := by omega
        exact ⟨hcomplete, htimer⟩
  · rw [if_neg htimer]
    exact ⟨0, Nat.zero_le _, rfl, by simp, by simp [Runs, htimer]⟩

/-! ### Strokes -/

/-- What a host asks of a typewriter. -/
inductive Stroke where
  /-- A time passes, as the host gives it. -/
  | tick (dt : Quantity)
  /-- The whole text is revealed at once. -/
  | writeAll
  deriving DecidableEq, Repr

/-- The typewriter after a stroke. A time of no real number's size is refused. -/
def after (w : Typewriter) : Stroke → Typewriter
  | .tick dt => match w.tickBy dt with
    | .ok w' => w'
    | .error _ => w
  | .writeAll => w.writeAll

/-- What strokes bring about, told by rounds. -/
inductive Carries (w : Typewriter) : Stroke → Typewriter → Prop where
  /-- A complete typewriter looks at nothing any more. -/
  | rests (k : Stroke) (h : w.complete = true) : Carries w k w
  /-- Time passes. -/
  | tick {dt : Quantity} {x : Float} {w' : Typewriter} (h : w.complete = false)
      (hx : dt.toReal? = some x) (hw' : ComesTo { w with timer := w.timer - x } w') :
      Carries w (.tick dt) w'
  /-- The time is refused. -/
  | refuses {dt : Quantity} (h : w.complete = false) (hx : dt.toReal? = none) :
      Carries w (.tick dt) w
  /-- The text is revealed at once. -/
  | writeAll (h : w.complete = false) :
      Carries w .writeAll { w with revealed := w.text.length, complete := true }

/-- A stroke at a typewriter that may have told that the text is complete. -/
def strike (x : Typewriter × Nat) (k : Stroke) : Typewriter × Nat :=
  (x.1.after k, if completes x.1 (x.1.after k) then x.2 + 1 else x.2)

/-- The typewriter after strokes, and how many times it has told that the text is complete. -/
def typed (text : String) (secondsPerCharacter : Float) (ks : List Stroke) : Typewriter × Nat :=
  ks.foldl strike (start text secondsPerCharacter, 0)

/-- How far a typewriter is with its text, where it stops, and what it has told. -/
structure Sound (text : String) (w : Typewriter) (told : Nat) : Prop where
  /-- The text is the one that it has been given. -/
  text_eq : w.text = text
  /-- No more is revealed than there is. -/
  within : w.revealed ≤ text.length
  /-- It does not stop inside a tag that the scan of the text comes to: between the bracket that
  opens the tag and the first one that closes it. -/
  outside_tags : ∀ p v rest, Arrives text.toList p →
    text.toList.drop p = '<' :: (v ++ '>' :: rest) → '>' ∉ v →
    w.revealed ≤ p ∨ p + v.length + 2 ≤ w.revealed
  /-- A text that is not empty is complete exactly if all of it is revealed. -/
  complete_iff : text ≠ "" → (w.complete = true ↔ w.revealed = text.length)
  /-- It has told once that the text is complete if it is, and else never. -/
  told_eq : told = if w.complete then 1 else 0

/-- A typewriter leads on to another one: nothing that has been revealed is hidden again, and what
is complete stays so. -/
structure LeadsTo (w w' : Typewriter) : Prop where
  /-- Nothing is hidden again. -/
  revealed_le : w.revealed ≤ w'.revealed
  /-- What is complete stays so. -/
  complete : w.complete = true → w'.complete = true

/-- The typewriter of a text has revealed up to a position at which the scan arrives, or all. -/
structure Stopped (text : String) (w : Typewriter) : Prop where
  /-- The text is the one that it has been given. -/
  text_eq : w.text = text
  /-- It has stopped where the scan of the text arrives. -/
  arrives : Arrives text.toList w.revealed
  /-- A text that is not empty is complete exactly if all of it is revealed. -/
  complete_iff : text ≠ "" → (w.complete = true ↔ w.revealed = text.length)

variable {text : String}

namespace Stopped

variable (h : Stopped text w)

include h

/-- No more is revealed than there is. -/
theorem within : w.revealed ≤ text.length := by
  rw [← String.length_toList]
  exact h.arrives.le_length

/-- Time passes. -/
theorem tick (dt : Float) : Stopped text (w.tick dt) ∧ w.LeadsTo (w.tick dt) := by
  unfold Typewriter.tick
  split
  · exact ⟨h, le_rfl, id⟩
  next hcomplete =>
  dsimp only
  split
  · have harrives := arrives_reveal w.pace (w.text.toList.drop w.revealed) (w.timer - dt)
    have hended := reveal_ended_iff w.pace (w.text.toList.drop w.revealed) (w.timer - dt)
    have hwithin := h.within
    rw [w.length_left] at hended
    obtain ⟨htext, hscan, -⟩ := h
    rw [htext] at harrives hended ⊢
    refine ⟨⟨rfl, hscan.trans harrives, fun _ => hended.trans ?_⟩, Nat.le_add_right _ _,
      fun hc => absurd hc hcomplete⟩
    dsimp only
    omega
  · exact ⟨⟨h.text_eq, h.arrives, h.complete_iff⟩, le_rfl, id⟩

/-- The text is revealed at once. -/
theorem writeAll : Stopped text w.writeAll ∧ w.LeadsTo w.writeAll := by
  unfold Typewriter.writeAll
  split
  · exact ⟨h, le_rfl, id⟩
  · have hend : Arrives text.toList text.length := by
      have harrives := arrives_length text.toList
      rwa [String.length_toList] at harrives
    have hwithin := h.within
    rw [← h.text_eq] at hend hwithin
    exact ⟨⟨h.text_eq, h.text_eq ▸ hend, fun _ => by simp [h.text_eq]⟩, hwithin, fun _ => rfl⟩

/-- Every stroke ends and leads on. -/
theorem after (k : Stroke) :
    Stopped text (w.after k) ∧ w.LeadsTo (w.after k) ∧ w.Carries k (w.after k) := by
  -- a text that is complete rests under every stroke
  cases hcomplete : w.complete with
  | true =>
    have hsame : w.after k = w := by cases k <;> simp [Typewriter.after, tickBy,
      Typewriter.writeAll, hcomplete]
    rw [hsame]
    exact ⟨h, ⟨le_rfl, id⟩, .rests k hcomplete⟩
  | false =>
    cases k with
    | tick dt =>
      cases hx : dt.toReal? with
      | none =>
        have hsame : w.after (.tick dt) = w := by simp [Typewriter.after, tickBy, hcomplete, hx]
        rw [hsame]
        exact ⟨h, ⟨le_rfl, id⟩, .refuses hcomplete hx⟩
      | some x =>
        have htick : w.after (.tick dt) = w.tick x := by
          simp [Typewriter.after, tickBy, hcomplete, hx]
        rw [htick]
        obtain ⟨hstopped, hleads⟩ := h.tick x
        exact ⟨hstopped, hleads,
          .tick hcomplete hx (tick_comesTo hcomplete (h.text_eq.symm ▸ h.within) x)⟩
    | writeAll =>
      obtain ⟨hstopped, hleads⟩ := h.writeAll
      have hall : w.after .writeAll = { w with revealed := w.text.length, complete := true } := by
        simp [Typewriter.after, Typewriter.writeAll, hcomplete]
      exact ⟨hstopped, hleads, hall.symm ▸ .writeAll hcomplete⟩

end Stopped

/-- A typewriter begins in front of its text. -/
theorem stopped_start (text : String) (secondsPerCharacter : Float) :
    Stopped text (start text secondsPerCharacter) where
  text_eq := rfl
  arrives := .start _
  complete_iff h := by
    have hlength : text.length ≠ 0 := fun h0 => h (String.length_eq_zero_iff.mp h0)
    simp [start, hlength.symm]

/-- Strokes lead to a typewriter that has stopped where the scan arrives, and it has told once that
the text is complete if it is, and else never. -/
theorem stopped_typed (text : String) (secondsPerCharacter : Float) (ks : List Stroke) :
    Stopped text (typed text secondsPerCharacter ks).1 ∧
      (typed text secondsPerCharacter ks).2 =
        if (typed text secondsPerCharacter ks).1.complete then 1 else 0 := by
  induction ks using List.reverseRecOn with
  | nil => exact ⟨stopped_start text secondsPerCharacter, rfl⟩
  | append_singleton ks k ih =>
    obtain ⟨hstopped, htold⟩ := ih
    have hnext : typed text secondsPerCharacter (ks ++ [k]) =
        strike (typed text secondsPerCharacter ks) k := by
      rw [typed, List.foldl_append]
      rfl
    obtain ⟨hafter, hleads, -⟩ := hstopped.after k
    rw [hnext]
    refine ⟨hafter, ?_⟩
    -- what is complete already is not told again
    dsimp only [strike]
    rw [htold, completes]
    by_cases hc : (typed text secondsPerCharacter ks).1.complete = true
    · simp [hc, hleads.complete hc]
    · by_cases hc' : ((typed text secondsPerCharacter ks).1.after k).complete = true <;>
        simp [hc, hc']

/-- A typewriter that has stopped where the scan arrives is sound. -/
theorem Stopped.sound (h : Stopped text w) {told : Nat}
    (htold : told = if w.complete then 1 else 0) : Sound text w told where
  text_eq := h.text_eq
  within := h.within
  outside_tags _ _ _ hp htag hv := h.arrives.outside hp htag hv
  complete_iff := h.complete_iff
  told_eq := htold

/-- Whatever strokes a typewriter has taken, at whatever pace, it is sound; and every further stroke
comes to an end, hides nothing again, and leaves complete what is complete. -/
theorem typed_advances (text : String) (secondsPerCharacter : Float) (ks : List Stroke) :
    Sound text (typed text secondsPerCharacter ks).1 (typed text secondsPerCharacter ks).2 ∧
      ∀ k, (typed text secondsPerCharacter ks).1.Carries k
          (typed text secondsPerCharacter (ks ++ [k])).1 ∧
        (typed text secondsPerCharacter ks).1.LeadsTo
          (typed text secondsPerCharacter (ks ++ [k])).1 := by
  obtain ⟨hstopped, htold⟩ := stopped_typed text secondsPerCharacter ks
  refine ⟨hstopped.sound htold, fun k => ?_⟩
  have hnext : (typed text secondsPerCharacter (ks ++ [k])).1 =
      (typed text secondsPerCharacter ks).1.after k := by
    rw [typed, List.foldl_append]
    rfl
  obtain ⟨-, hleads, hcarries⟩ := hstopped.after k
  rw [hnext]
  exact ⟨hcarries, hleads⟩

end VisualNovel.Typewriter
