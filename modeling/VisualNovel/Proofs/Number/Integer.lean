import Mathlib.Algebra.Ring.Int.Defs
import Mathlib.Data.List.Basic
import VisualNovel.Number.Integer
import VisualNovel.Proofs.Text.Basic

/-!
# Integers are read as they have been written

Decimal digits are read up to the first character that is no digit, so a number can be told from
whatever follows it.

## Main definitions

* `Number.digits`: the values of the decimal digits of a number.

## Main results

* `Number.ofDigits_digits`: digits write their number;
* `Number.spanDigits_decimal`: they are all read, and nothing else;
* `Number.formatInt_inj`: different integers are written differently;
* `Number.readInt?_append`: digits behind a sign are read unless there are too many of them.
-/

namespace VisualNovel.Number

/-- The values of the decimal digits of a number, most significant first. -/
def digits (n : Nat) : List Nat := (decimal n).map fun c => c.toNat - 48

variable {n : Nat} {rest : List Char}

theorem decimal_ne_nil : decimal n ≠ [] := Nat.toDigits_ne_nil

theorem length_digits : (digits n).length = (decimal n).length := List.length_map _

theorem isDigit_of_mem_decimal {c : Char} (hc : c ∈ decimal n) : c.isDigit :=
  Nat.isDigit_of_mem_toDigits (by decide) (by decide) hc

/-- The digits of a number write the number. -/
theorem ofDigits_digits : ofDigits (digits n) = n := by
  have hfold : ofDigits (digits n) = Nat.ofDigitChars 10 (decimal n) 0 := by
    rw [ofDigits, digits, List.foldl_map, Nat.ofDigitChars_eq_foldl]
    rfl
  rw [hfold]
  exact Nat.ofDigitChars_ten_toDigits

/-- What follows is not a digit. -/
def NoDigit (rest : List Char) : Prop := ∀ c ∈ rest.head?, c.isDigit = false

/-- Digits are read up to the first character that is no digit. -/
theorem spanDigits_append {cs : List Char} (hcs : ∀ c ∈ cs, c.isDigit) (hrest : NoDigit rest) :
    spanDigits (cs ++ rest) = (cs.map fun c => c.toNat - 48, rest) := by
  induction cs with
  | nil =>
    cases rest with
    | nil => rfl
    | cons c rest =>
      have hc : c.isDigit = false := hrest c rfl
      simp [spanDigits, plainDigitValue?, hc]
  | cons c cs ih =>
    have hc : c.isDigit := hcs c List.mem_cons_self
    have hspan := ih fun x hx => hcs x (List.mem_cons_of_mem c hx)
    simp [spanDigits, plainDigitValue?, hc, hspan]

/-- The digits of a number are all read. -/
theorem spanDigits_decimal (hrest : NoDigit rest) :
    spanDigits (decimal n ++ rest) = (digits n, rest) :=
  spanDigits_append (fun _ hc => isDigit_of_mem_decimal hc) hrest

/-- Only zero is written with a zero in front. -/
theorem eq_zero_of_decimal {cs : List Char} (h : decimal n = '0' :: cs) : n = 0 ∧ cs = [] := by
  induction n using Nat.strongRecOn generalizing cs with
  | ind n ih =>
    by_cases hn : n < 10
    · rw [decimal, Nat.toDigits_of_lt_base hn] at h
      obtain ⟨hdigit, rfl⟩ := List.cons.inj h
      have hvalue := Nat.toNat_digitChar_sub_48_of_lt_ten hn
      rw [hdigit] at hvalue
      exact ⟨hvalue.symm, rfl⟩
    · -- the digits in front are those of a smaller number, which is not zero
      rw [decimal, Nat.toDigits_of_base_le (by decide) (by omega)] at h
      obtain ⟨c, ds, hds⟩ := List.exists_cons_of_ne_nil (decimal_ne_nil (n := n / 10))
      rw [decimal] at hds
      rw [hds] at h
      obtain ⟨rfl, -⟩ := List.cons.inj h
      have := (ih (n / 10) (by omega) hds).1
      omega

/-- Different numbers have different digits. -/
theorem decimal_inj {k l : Nat} (h : decimal k = decimal l) : k = l := by
  rw [← ofDigits_digits (n := k), ← ofDigits_digits (n := l), digits, digits, h]

/-- Digits do not begin with a minus sign. -/
theorem decimal_ne_minus (k : Nat) (s : List Char) : decimal k ≠ '-' :: s := by
  intro h
  have hdigit : '-'.isDigit := isDigit_of_mem_decimal (n := k) (by rw [h]; exact List.mem_cons_self)
  cases hdigit

/-- Different integers are written differently. -/
theorem formatInt_inj {n m : Int} (h : formatInt n = formatInt m) : n = m := by
  cases n with
  | ofNat k =>
    cases m with
    | ofNat l => rw [decimal_inj h]
    | negSucc l => exact absurd h (decimal_ne_minus k _)
  | negSucc k =>
    cases m with
    | ofNat l => exact absurd h.symm (decimal_ne_minus l _)
    | negSucc l => rw [Nat.succ.inj (decimal_inj (List.cons.inj h).2)]

/-- Only zero is written with a zero in front. -/
theorem eq_zero_of_formatInt {n : Int} {s : List Char} (h : formatInt n = '0' :: s) :
    n = 0 ∧ s = [] := by
  cases n with
  | ofNat k =>
    obtain ⟨rfl, hs⟩ := eq_zero_of_decimal h
    exact ⟨rfl, hs⟩
  | negSucc k => cases (List.cons.inj h).1

section Reading

variable {cs : List Char}

/-- Decimal digits are read as their values. -/
theorem groupedDigits_of_isDigit {afterDigit : Bool} (hne : cs ≠ [] ∨ afterDigit = true)
    (hcs : ∀ c ∈ cs, c.isDigit) :
    groupedDigits digitValue? afterDigit cs = some (cs.map fun c => c.toNat - 48) := by
  induction cs generalizing afterDigit with
  | nil => simpa [groupedDigits] using hne
  | cons c cs ih =>
    have hc : c.isDigit := hcs c List.mem_cons_self
    have hrest : groupedDigits digitValue? true cs = some (cs.map fun c => c.toNat - 48) :=
      ih (.inr rfl) fun x hx => hcs x (List.mem_cons_of_mem c hx)
    simp [groupedDigits, digitValue?, hc, hrest]

/-- Two characters are signs. -/
theorem eq_of_mem_sign {sign : List Char} (hsign : sign ∈ [[], ['+'], ['-']]) {c : Char}
    (hc : c ∈ sign) : c = '+' ∨ c = '-' := by
  simp only [List.mem_cons, List.not_mem_nil, or_false] at hsign
  rcases hsign with rfl | rfl | rfl
  · cases hc
  · exact .inl (List.mem_singleton.mp hc)
  · exact .inr (List.mem_singleton.mp hc)

/-- A sign and digits have no blanks at their ends. -/
theorem trim_sign_append {sign : List Char} (hsign : sign ∈ [[], ['+'], ['-']])
    (hcs : ∀ c ∈ cs, c.isDigit) : Text.trim (sign ++ cs) = sign ++ cs := by
  have hblank : ∀ c ∈ sign ++ cs, Text.isBlank c = false := by
    intro c hc
    rcases List.mem_append.mp hc with hc | hc
    · rcases eq_of_mem_sign hsign hc with rfl | rfl <;> rfl
    · exact Text.isBlank_of_isWord (Text.isWord_of_isDigit (hcs c hc))
  exact Text.trim_eq_self_iff.mpr ⟨fun c hc => hblank c (List.mem_of_mem_head? hc),
    fun c hc => hblank c (List.mem_of_getLast? hc)⟩

/-- Digits behind an optional sign are read as the integer that they write, unless there are too
many of them. -/
theorem readInt?_append {sign : List Char} (hsign : sign ∈ [[], ['+'], ['-']]) (hne : cs ≠ [])
    (hcs : ∀ c ∈ cs, c.isDigit) :
    readInt? (sign ++ cs) = if cs.length ≤ maxDigits then
      some (signed (sign = ['-']) (ofDigits (cs.map fun c => c.toNat - 48))) else none := by
  have hspan : spanSign (sign ++ cs) = (decide (sign = ['-']), cs) := by
    simp only [List.mem_cons, List.not_mem_nil, or_false] at hsign
    rcases hsign with rfl | rfl | rfl
    · -- the first digit is no sign
      obtain ⟨c, cs, rfl⟩ := List.exists_cons_of_ne_nil hne
      have hc : c.isDigit := hcs c List.mem_cons_self
      have hminus : c ≠ '-' := by rintro rfl; cases hc
      have hplus : c ≠ '+' := by rintro rfl; cases hc
      unfold spanSign
      split <;> simp_all
    · rfl
    · rfl
  rw [readInt?, trim_sign_append hsign hcs, hspan]
  simp only [groupedDigits_of_isDigit (.inl hne) hcs, List.length_map]

/-- Zeros in front make no difference to what digits write. -/
theorem ofDigits_replicate_append (n : Nat) (ds : List Nat) :
    ofDigits (List.replicate n 0 ++ ds) = ofDigits ds := by
  induction n with
  | zero => rfl
  | succ n ih => exact ih

/-- The digits of an integer stand behind its sign. -/
theorem formatInt_eq (n : Int) :
    formatInt n = (if n < 0 then ['-'] else []) ++ decimal n.natAbs := by
  cases n with
  | ofNat k => rfl
  | negSucc k => simp [formatInt, Int.negSucc_lt_zero]

/-- A power of ten has one digit more than its exponent says. -/
theorem lt_countP_formatInt_pow (k : Nat) : k < (formatInt (10 ^ k)).countP Char.isDigit := by
  have hdigits : (decimal (10 ^ k)).countP Char.isDigit = (decimal (10 ^ k)).length :=
    List.countP_eq_length.mpr fun c hc => isDigit_of_mem_decimal hc
  have hlength : ¬(decimal (10 ^ k)).length ≤ k := by
    rcases Nat.eq_zero_or_pos k with rfl | hk
    · simpa using decimal_ne_nil
    · rw [decimal, Nat.length_toDigits_le_iff (by decide) hk]
      exact Nat.lt_irrefl _
  have hten : (10 ^ k : Int).natAbs = 10 ^ k := Int.natAbs_pow 10 k
  rw [formatInt_eq, hten, List.countP_append, hdigits]
  omega

/-- A sign and the digits of a number write an integer. -/
theorem signed_natAbs (n : Int) : signed (n < 0) n.natAbs = n := by
  by_cases hn : n < 0
  · rw [signed, decide_eq_true hn, if_pos rfl]
    omega
  · rw [signed, decide_eq_false hn, if_neg Bool.false_ne_true]
    omega

end Reading

end VisualNovel.Number
