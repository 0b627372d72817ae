import Mathlib.Algebra.Group.Nat.Defs
import VisualNovel.Proofs.Json.Reading

/-!
# Integers that are read are not too long

What is read of a stored model has no integer that the dialect could not read again: the digits of
an integer are counted before its value is taken.

## Main results

* `Number.ofDigits_lt`: digits write a number that has no more digits than they are;
* `Json.reads_of_span`: the integers in a value that is read are not too long;
* `Json.reads_of_readModel?`: so are those of a stored model.
-/

namespace VisualNovel

namespace Number

variable {ds : List Nat}

/-- Digits write a number below the power of ten that follows their places. -/
theorem ofDigits_lt (hds : ∀ d ∈ ds, d < 10) : ofDigits ds < 10 ^ ds.length := by
  -- the digits so far may already have written a number
  have hfold (n : Nat) : ds.foldl (fun n d => 10 * n + d) n < (n + 1) * 10 ^ ds.length := by
    induction ds generalizing n with
    | nil => simp
    | cons d ds ih =>
      have hd : d < 10 := hds d List.mem_cons_self
      -- the digits so far are the number in front of the rest
      have hrest := ih (fun x hx => hds x (List.mem_cons_of_mem d hx)) (10 * n + d)
      calc (d :: ds).foldl (fun n d => 10 * n + d) n
          < (10 * n + d + 1) * 10 ^ ds.length := hrest
        _ ≤ ((n + 1) * 10) * 10 ^ ds.length := Nat.mul_le_mul_right _ (by omega)
        _ = (n + 1) * 10 ^ (d :: ds).length := by
          rw [List.length_cons, Nat.pow_succ', Nat.mul_assoc]
  simpa [ofDigits] using hfold 0

/-- A number has no more digits than have written it. -/
theorem length_decimal_ofDigits_le (hne : ds ≠ []) (hds : ∀ d ∈ ds, d < 10) :
    (decimal (ofDigits ds)).length ≤ ds.length :=
  (Nat.length_toDigits_le_iff (by decide) (List.length_pos_iff.mpr hne)).mpr (ofDigits_lt hds)

/-- Digits that are read are digits. -/
theorem lt_ten_of_mem_spanDigits {s : List Char} : ∀ d ∈ (spanDigits s).1, d < 10 := by
  induction s with
  | nil => simp [spanDigits]
  | cons c s ih =>
    rw [spanDigits]
    split
    · next d hd =>
      obtain ⟨hc, rfl⟩ : c.isDigit ∧ c.toNat - 48 = d := by simpa [plainDigitValue?] using hd
      have hc' : c.toNat - 48 < 10 := by
        have : c.toNat ≤ 57 := by
          simp only [Char.isDigit, Bool.and_eq_true, decide_eq_true_eq] at hc
          exact hc.2
        omega
      simpa using ⟨hc', ih⟩
    · simp

theorem natAbs_signed (negative : Bool) (n : Nat) : (signed negative n).natAbs = n := by
  cases negative <;> simp [signed]

/-- Only a sign makes a number negative. -/
theorem negative_of_signed_lt {negative : Bool} {n : Nat} (h : signed negative n < 0) :
    negative = true := by
  by_contra hnot
  rw [signed, if_neg hnot] at h
  omega

end Number

namespace Json

open Number

variable {d : Dialect}

/-- A number with fewer digits is not too long either, nor is one without the sign. -/
theorem Dialect.admits_mono {negative negative' : Bool} {k k' : Nat}
    (h : d.admits negative k true) (hk : k' ≤ k) (hsign : negative' = true → negative = true) :
    d.admits negative' k' true := by
  cases d with
  | model =>
    simp only [Dialect.admits, decide_eq_true_eq] at h ⊢
    cases negative' with
    | false => exact Nat.le_trans hk (Nat.le_trans (Nat.le_add_right _ _) h)
    | true =>
      rw [hsign rfl] at h
      exact Nat.le_trans (Nat.add_le_add_right hk _) h
  | slot =>
    simp only [Dialect.admits, Bool.not_true, Bool.false_or, decide_eq_true_eq] at h ⊢
    exact Nat.le_trans hk h

/-- An integer is not too long if the digits that write it are not too many. -/
theorem Dialect.reads_signed {ds : List Nat} {negative : Bool} (hne : ds ≠ [])
    (hds : ∀ x ∈ ds, x < 10) (h : d.admits negative ds.length true) :
    d.Reads (signed negative (ofDigits ds)) := by
  rw [Dialect.Reads, natAbs_signed]
  exact d.admits_mono h (length_decimal_ofDigits_le hne hds) fun hneg =>
    negative_of_signed_lt (of_decide_eq_true hneg)

theorem spanWhole_digits {s rest : List Char} {ds : List Nat}
    (h : spanWhole s = some (ds, rest)) : ds ≠ [] ∧ ∀ x ∈ ds, x < 10 := by
  unfold spanWhole at h
  split at h
  · obtain ⟨rfl, -⟩ := Prod.mk.inj (Option.some.inj h)
    simp
  · split at h
    · cases h
    · next hnil =>
      refine ⟨?_, ?_⟩
      · rintro rfl
        exact hnil _ (Option.some.inj h)
      · have := lt_ten_of_mem_spanDigits (s := s)
        rw [Option.some.inj h] at this
        exact this

theorem numbers_dialectInt (n : Int) : (d.int n).numbers = [n] := by
  cases d with
  | model =>
    rw [Dialect.int]
    split <;> rfl
  | slot => rfl

/-- What is read one part after the other is read in both parts. -/
theorem ok_of_bind {ε α β : Type} {x : Except ε α} {f : α → Except ε β} {b : β}
    (h : (x >>= f) = .ok b) : ∃ a, x = .ok a ∧ f a = .ok b := by
  cases x with
  | error e => cases h
  | ok a => exact ⟨a, rfl, h⟩

theorem some_of_orMalformed {α : Type} {x : Option α} {a : α} (h : orMalformed x = .ok a) :
    x = some a := by
  cases x with
  | none => cases h
  | some b => rw [Except.ok.inj h]

variable {s rest : List Char}

/-- An integer that is read is not too long. -/
theorem reads_of_spanNumber {v : Json} (h : spanNumber d s = .ok (v, rest)) :
    ∀ n ∈ v.numbers, d.Reads n := by
  unfold spanNumber at h
  split at h
  next negative body _ =>
  -- behind the sign there are digits, and perhaps a fraction and an exponent
  obtain ⟨⟨whole, rest₁⟩, hwhole, h⟩ := ok_of_bind h
  obtain ⟨⟨fraction, rest₂⟩, -, h⟩ := ok_of_bind h
  obtain ⟨⟨exponent, rest₃⟩, -, h⟩ := ok_of_bind h
  obtain ⟨hne, hdigits⟩ := spanWhole_digits (some_of_orMalformed hwhole)
  dsimp only at h
  split at h
  · cases h
  · next hadmits =>
    split at h
    · obtain ⟨rfl, -⟩ := Prod.mk.inj (Except.ok.inj h)
      intro n hn
      rw [numbers_dialectInt] at hn
      obtain rfl := List.mem_singleton.mp hn
      exact d.reads_signed hne hdigits (by simpa using hadmits)
    · -- a number with a fraction or an exponent is no integer
      obtain ⟨rfl, -⟩ := Prod.mk.inj (Except.ok.inj h)
      simp [numbers]

/-- There is no integer in a text. -/
theorem numbers_of_spanText {v : Json} (h : spanText d s = .ok (v, rest)) : v.numbers = [] := by
  obtain ⟨⟨points, rest₁⟩, -, h⟩ := ok_of_bind h
  obtain ⟨w, hw, h⟩ := ok_of_bind h
  obtain ⟨rfl, -⟩ := Prod.mk.inj (Except.ok.inj h)
  unfold Dialect.string at hw
  split at hw
  · cases hw
  · rw [← Except.ok.inj hw, ofPoints]
    split <;> rfl

mutual
/-- Of a stored model, the integers that are read are not too long. -/
theorem reads_of_span : ∀ (fuel : Nat) (s : List Char) {v : Json} {rest : List Char},
    span .model fuel s = .ok (v, rest) → ∀ n ∈ v.numbers, Dialect.model.Reads n
  | 0, _, _, _, h => by cases h
  | fuel + 1, s, v, rest, h => by
    rw [span] at h
    split at h
    -- six words, none of them an integer, then a text, a list, an object and a number
    iterate 6
      · obtain ⟨rfl, -⟩ := Prod.mk.inj (Except.ok.inj h)
        simp [numbers]
    · rw [numbers_of_spanText h]
      simp
    · split at h
      · obtain ⟨rfl, -⟩ := Prod.mk.inj (Except.ok.inj h)
        simp [numbers, numbersOfItems]
      · obtain ⟨⟨vs, rest₁⟩, hitems, h⟩ := ok_of_bind h
        obtain ⟨rfl, -⟩ := Prod.mk.inj (Except.ok.inj h)
        exact reads_of_spanItems fuel _ hitems
    · split at h
      · obtain ⟨rfl, -⟩ := Prod.mk.inj (Except.ok.inj h)
        simp [numbers, numbersOfMembers]
      · obtain ⟨⟨ms, rest₁⟩, hmembers, h⟩ := ok_of_bind h
        obtain ⟨rfl, -⟩ := Prod.mk.inj (Except.ok.inj h)
        exact reads_of_spanMembers fuel _ hmembers
    · exact reads_of_spanNumber h
/-- The same holds of items. -/
theorem reads_of_spanItems : ∀ (fuel : Nat) (s : List Char) {vs : List Json} {rest : List Char},
    spanItems .model fuel s = .ok (vs, rest) → ∀ n ∈ numbersOfItems vs, Dialect.model.Reads n
  | 0, _, _, _, h => by cases h
  | fuel + 1, s, vs, rest, h => by
    rw [spanItems] at h
    obtain ⟨⟨v, rest₁⟩, hitem, h⟩ := ok_of_bind h
    have hfirst := reads_of_span fuel s hitem
    dsimp only at h
    split at h
    · obtain ⟨⟨ws, rest₂⟩, hitems, h⟩ := ok_of_bind h
      obtain ⟨rfl, -⟩ := Prod.mk.inj (Except.ok.inj h)
      have hothers := reads_of_spanItems fuel _ hitems
      exact fun n hn => (List.mem_append.mp hn).elim (hfirst n) (hothers n)
    · obtain ⟨rfl, -⟩ := Prod.mk.inj (Except.ok.inj h)
      simpa [numbersOfItems] using hfirst
    · cases h
/-- The same holds of members. -/
theorem reads_of_spanMembers :
    ∀ (fuel : Nat) (s : List Char) {ms : List (String × Json)} {rest : List Char},
      spanMembers .model fuel s = .ok (ms, rest) →
        ∀ n ∈ numbersOfMembers ms, Dialect.model.Reads n
  | 0, _, _, _, h => by cases h
  | fuel + 1, s, ms, rest, h => by
    rw [spanMembers] at h
    obtain ⟨⟨k, rest₁⟩, -, h⟩ := ok_of_bind h
    dsimp only at h
    split at h
    · obtain ⟨⟨v, rest₂⟩, hvalue, h⟩ := ok_of_bind h
      have hfirst := reads_of_span fuel _ hvalue
      dsimp only at h
      split at h
      · obtain ⟨⟨ls, rest₃⟩, hmembers, h⟩ := ok_of_bind h
        obtain ⟨rfl, -⟩ := Prod.mk.inj (Except.ok.inj h)
        have hothers := reads_of_spanMembers fuel _ hmembers
        exact fun n hn => (List.mem_append.mp hn).elim (hfirst n) (hothers n)
      · obtain ⟨rfl, -⟩ := Prod.mk.inj (Except.ok.inj h)
        simpa [numbersOfMembers] using hfirst
      · cases h
    · cases h
end

/-- The integers of a stored model that is read are not too long. -/
theorem reads_of_readModel? {s : String} {v : Json} (h : readModel? s = some v) :
    ∀ n ∈ v.numbers, Dialect.model.Reads n := by
  obtain ⟨hread, -⟩ := Option.filter_eq_some_iff.mp h
  have hok : read .model s = .ok v := by
    cases hr : read .model s with
    | error f => rw [hr] at hread; cases hread
    | ok w => rw [hr] at hread; rw [Option.some.inj hread]
  -- nothing may stand behind the value but blanks
  obtain ⟨⟨w, rest⟩, hspan, hw⟩ := ok_of_bind hok
  dsimp only at hw
  split at hw
  · rw [← Except.ok.inj hw]
    exact reads_of_span _ _ hspan
  · cases hw

end Json
end VisualNovel
