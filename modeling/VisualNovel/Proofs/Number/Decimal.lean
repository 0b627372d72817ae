import VisualNovel.Proofs.Text.Basic
import VisualNovel.Variable.Value

/-!
# Numbers and flags

A text is read as a number only if it has a digit of some script, or the letter that all words for
an infinity share. The two words for a truth value have neither, so a text that is read as a flag is
not read as a number.

## Main definitions

* `Number.IsNumeral`: a character of the kind that every number has.

## Main results

* `Number.readNumber?_of_no_numeral`: a text without such a character writes no number;
* `Value.readNumber?_of_readBool?`: what writes a flag writes no number.
-/

namespace VisualNovel.Number

open Text

variable {s t : List Char} {c : Char}

/-- A character of the kind that every number has: a digit, or the letter in the words for what has
no digits. -/
def IsNumeral (c : Char) : Prop := c.isDigit ∨ c.toLower = 'n'

instance (c : Char) : Decidable (IsNumeral c) := inferInstanceAs (Decidable (_ ∨ _))

theorem mem_of_mem_spanSign (h : c ∈ (spanSign s).2) : c ∈ s := by
  rw [spanSign.eq_def] at h
  split at h
  · exact List.mem_cons_of_mem _ h
  · exact List.mem_cons_of_mem _ h
  · exact h

/-- Only underscores are removed from a text. -/
theorem mem_of_ungroup? {prev : Option Char} (h : ungroup? prev s = some t) : ∀ c ∈ t, c ∈ s := by
  induction s generalizing prev t with
  | nil =>
    rw [ungroup?] at h
    split at h <;> simp_all
  | cons d s ih =>
    rw [ungroup?] at h
    split at h
    · split at h
      · exact fun c hc => List.mem_cons_of_mem _ (ih h c hc)
      · cases h
    · split at h
      · cases h
      · obtain ⟨u, hu, rfl⟩ := Option.map_eq_some_iff.mp h
        exact List.forall_mem_cons.mpr
          ⟨List.mem_cons_self .., fun c hc => List.mem_cons_of_mem _ (ih hu c hc)⟩

theorem spanDigits_of_no_digit (h : ∀ c ∈ s, c.isDigit = false) : spanDigits s = ([], s) := by
  cases s with
  | nil => rfl
  | cons c s => simp [spanDigits, plainDigitValue?, h c (List.mem_cons_self ..)]

/-- A decimal has a digit, in front of the point or behind it. -/
theorem readUnsigned?_of_no_digit (h : ∀ c ∈ s, c.isDigit = false) (negative : Bool) :
    readUnsigned? negative s = none := by
  unfold readUnsigned?
  rw [spanDigits_of_no_digit h]
  dsimp only
  split
  · next r =>
    rw [spanDigits_of_no_digit fun c hc => h c (List.mem_cons_of_mem _ hc)]
    rfl
  · rfl

theorem readFloat?_of_no_numeral (h : ∀ c ∈ s, ¬IsNumeral c) : readFloat? s = none := by
  have hbody : ∀ c ∈ (spanSign s).2, ¬IsNumeral c := fun c hc => h c (mem_of_mem_spanSign hc)
  have hletter : 'n' ∉ foldCase (spanSign s).2 := by
    intro hmem
    obtain ⟨c, hc, hn⟩ := List.mem_map.mp hmem
    exact hbody c hc (.inr hn)
  have hword {word : List Char} (hn : 'n' ∈ word) : foldCase (spanSign s).2 ≠ word :=
    fun heq => hletter (heq ▸ hn)
  have hdigit : ∀ c ∈ (spanSign s).2, c.isDigit = false := fun c hc =>
    Bool.eq_false_iff.mpr fun hdigit => hbody c hc (.inl hdigit)
  unfold readFloat?
  dsimp only
  rw [if_neg (not_or.mpr ⟨hword (by decide), hword (by decide)⟩), if_neg (hword (by decide)),
    readUnsigned?_of_no_digit hdigit]
  rfl

/-- A text without a character of the kind that every number has writes no number. -/
theorem readNumber?_of_no_numeral (h : ∀ c ∈ s, ¬IsNumeral (plainDigit c)) :
    readNumber? s = none := by
  have hmem {c : Char} (hc : c ∈ trimBy isSpace s) : c ∈ s :=
    (List.dropWhile_suffix _).subset ((trimRight_isPrefix _ _).subset hc)
  simp only [readNumber?, Option.bind_eq_bind, Option.bind_eq_none_iff]
  intro body hbody
  have hnone : readFloat? body = none := readFloat?_of_no_numeral fun c hc => by
    obtain ⟨d, hd, rfl⟩ := List.mem_map.mp (mem_of_ungroup? hbody c hc)
    exact h d (hmem hd)
  simp [hnone]

theorem not_isNumeral_of_isBlank (h : isBlank c) : ¬IsNumeral (plainDigit c) := by
  have hall : ∀ n ∈ blanks, ¬IsNumeral (plainDigit (Char.ofNat n)) := by decide +kernel
  rw [← Char.ofNat_toNat c]
  exact hall _ (toNat_mem_blanks h)

/-- The letters of the two words for a truth value, small or capital. -/
theorem not_isNumeral_of_flag (h : c.toLower ∈ ['t', 'r', 'u', 'e', 'f', 'a', 'l', 's']) :
    ¬IsNumeral (plainDigit c) := by
  have hsmall : c.toNat < 128 := by
    unfold Char.toLower at h
    split at h
    · next hupper =>
      have hle : c.toNat ≤ 90 := UInt32.le_iff_toNat_le.mp hupper.2
      omega
    · have hall : ∀ d ∈ ['t', 'r', 'u', 'e', 'f', 'a', 'l', 's'], d.toNat < 128 := by simp
      exact hall c h
  have hall : ∀ n < 128, (Char.ofNat n).toLower ∈ ['t', 'r', 'u', 'e', 'f', 'a', 'l', 's'] →
      ¬IsNumeral (plainDigit (Char.ofNat n)) := by decide +kernel
  rw [← Char.ofNat_toNat c] at h ⊢
  exact hall _ hsmall h

end VisualNovel.Number

namespace VisualNovel.Value

open Text Number

/-- What writes a flag writes no number. -/
theorem readNumber?_of_readBool? {s : List Char} {b : Bool} (h : readBool? s = some b) :
    readNumber? s = none := by
  have hword : ∀ d ∈ foldCase (trim s), d ∈ ['t', 'r', 'u', 'e', 'f', 'a', 'l', 's'] := by
    simp only [readBool?] at h
    split at h
    · next heq => simp [heq]
    · split at h
      · next heq => simp [heq]
      · cases h
  refine readNumber?_of_no_numeral fun c hc => ?_
  obtain ⟨front, back, hs, hfront, hback⟩ := exists_eq_append_trim s
  rw [hs] at hc
  rcases List.mem_append.mp hc with hc | hc
  · rcases List.mem_append.mp hc with hc | hc
    · exact not_isNumeral_of_isBlank (hfront c hc)
    · exact not_isNumeral_of_flag (hword _ (List.mem_map_of_mem hc))
  · exact not_isNumeral_of_isBlank (hback c hc)

end VisualNovel.Value
