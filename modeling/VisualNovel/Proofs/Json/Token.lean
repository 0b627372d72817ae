import Mathlib.Algebra.Ring.Int.Defs
import VisualNovel.Json.Printer
import VisualNovel.Json.Reader
import VisualNovel.Proofs.Number.Integer

/-!
# Strings and numbers are read as they have been written

A string ends at its closing quote and a number at whatever may stand behind a value. Every string
can be read again; an integer can be read unless it is too long for the dialect.

## Main definitions

* `Json.Closes`: what may stand behind a value;
* `Json.Dialect.Reads`: an integer is not too long;
* `Json.Gives`: what a part of the grammar comes to.

## Main results

* `Json.spanText_escape`, `Json.spanName_printString`: strings are read as they have been written;
* `Json.gives_formatInt`: so are integers;
* `Json.Dialect.model_reads_iff`: which integers are not too long for stored models.
-/

namespace VisualNovel.Json

open Number

section Strings

variable {rest : List Char}

theorem hexValue?_hexDigit : ∀ d < 16, hexValue? (Text.hexDigit d) = some d := by decide

/-- The escape of a code unit is read as the unit. -/
theorem unit?_hex {n : Nat} (hn : n < 0x10000) :
    ∃ a b c d, Text.hex 4 n = [a, b, c, d] ∧ unit? a b c d = some n := by
  refine ⟨Text.hexDigit (n / 16 / 16 / 16 % 16), Text.hexDigit (n / 16 / 16 % 16),
    Text.hexDigit (n / 16 % 16), Text.hexDigit (n % 16), rfl, ?_⟩
  have hdigit (k : Nat) : hexValue? (Text.hexDigit (k % 16)) = some (k % 16) :=
    hexValue?_hexDigit _ (Nat.mod_lt _ (by decide))
  simp only [unit?, hdigit, Option.bind_eq_bind, Option.bind_some, Option.pure_def,
    Option.some.injEq]
  omega

/-- A short escape is read as its character. -/
theorem spanString_short {e c : Char} (h : shortEscape? e = some c) (s : List Char) :
    spanString ('\\' :: e :: s) = (spanString s).map fun r => (c.toNat :: r.1, r.2) := by
  have he : e ≠ 'u' := by
    rintro rfl
    simp [shortEscape?] at h
  rw [spanString.eq_def]
  split
  · next heq => cases heq
  · next heq => exact absurd (List.cons.inj heq).1 (by decide)
  · next heq => exact absurd (List.cons.inj (List.cons.inj heq).2).1 he
  · next heq =>
    obtain ⟨rfl, rfl⟩ := List.cons.inj (List.cons.inj heq).2
    rw [h]
    cases spanString s <;> rfl
  · next h1 h2 h3 heq =>
    obtain ⟨rfl, rfl⟩ := List.cons.inj heq
    exact absurd rfl (h3 _ _ rfl)

/-- A character that needs no escape is read as itself. -/
theorem spanString_plain {c : Char} (hquote : c ≠ '"') (hslash : c ≠ '\\') (hc : ¬c.toNat < 0x20)
    (s : List Char) :
    spanString (c :: s) = (spanString s).map fun r => (c.toNat :: r.1, r.2) := by
  rw [spanString.eq_def]
  split
  · next heq => cases heq
  · next heq => exact absurd (List.cons.inj heq).1 hquote
  · next heq => exact absurd (List.cons.inj heq).1 hslash
  · next heq => exact absurd (List.cons.inj heq).1 hslash
  · next heq =>
    obtain ⟨rfl, rfl⟩ := List.cons.inj heq
    rw [if_neg (by simp [hslash, hc])]
    cases spanString s <;> rfl

/-- An escaped code unit is read as the unit. -/
theorem spanString_unit {n : Nat} (hn : n < 0x10000) (s : List Char) :
    spanString (escapeUnit n ++ s) = (spanString s).map fun r => (n :: r.1, r.2) := by
  obtain ⟨a, b, c, d, hhex, hunit⟩ := unit?_hex hn
  rw [escapeUnit, hhex]
  show spanString ('\\' :: 'u' :: a :: b :: c :: d :: s) = _
  rw [spanString.eq_def]
  simp only [hunit]
  cases spanString s <;> rfl

/-- What a character is read as before pairs are joined: its code point, or the two halves that are
written for it. -/
def units (asciiOnly : Bool) (c : Char) : List Nat :=
  if asciiOnly && 0x10000 ≤ c.toNat then
    [0xD800 + (c.toNat - 0x10000) / 0x400, 0xDC00 + (c.toNat - 0x10000) % 0x400]
  else [c.toNat]

variable {asciiOnly : Bool}

/-- Characters of the basic plane are read as their code points. -/
theorem units_of_lt {c : Char} (hc : c.toNat < 0x10000) : units asciiOnly c = [c.toNat] := by
  rw [units, if_neg (by simp [hc])]

/-- The escape of a code point is read as one unit or as two halves. -/
theorem spanString_point {c : Char} (s : List Char) :
    spanString (escapePoint c.toNat ++ s) =
      (spanString s).map fun r => (units true c ++ r.1, r.2) := by
  unfold escapePoint
  split
  · next hc =>
    rw [spanString_unit hc, units_of_lt hc]
    rfl
  · next hc =>
    have hvalid : c.toNat < 0xD800 ∨ 0xDFFF < c.toNat ∧ c.toNat < 0x110000 := c.valid
    have hunits : units true c =
        [0xD800 + (c.toNat - 0x10000) / 0x400, 0xDC00 + (c.toNat - 0x10000) % 0x400] :=
      if_pos (by simpa using hc)
    rw [List.append_assoc, spanString_unit (by omega), spanString_unit (by omega), hunits]
    cases spanString s <;> rfl

/-- A character is read as it has been written. -/
theorem spanString_escapeChar (c : Char) (s : List Char) :
    spanString (escapeChar asciiOnly c ++ s) =
      (spanString s).map fun r => (units asciiOnly c ++ r.1, r.2) := by
  unfold escapeChar
  -- first come the seven characters that have a short escape, then the control characters
  iterate 7
    split
    · next h =>
      subst h
      rw [units_of_lt (by decide)]
      exact spanString_short rfl s
  split
  · next hc =>
    rw [units_of_lt (by omega)]
    exact spanString_unit (by omega) s
  · next hquote hslash _ _ _ _ _ hc =>
    split
    · next hescape =>
      obtain ⟨rfl, -⟩ := Bool.and_eq_true_iff.mp hescape
      exact spanString_point s
    · next hescape =>
      have hunits : units asciiOnly c = [c.toNat] := by
        refine if_neg fun hpair => hescape ?_
        simp only [Bool.and_eq_true, decide_eq_true_eq] at hpair ⊢
        exact ⟨hpair.1, by omega⟩
      rw [hunits]
      exact spanString_plain hquote hslash hc s

/-- A text in quotes is read as its code points and halves. -/
theorem spanString_escape (cs : List Char) :
    spanString (escape asciiOnly cs ++ '"' :: rest) =
      some (cs.flatMap (units asciiOnly), rest) := by
  induction cs with
  | nil => rfl
  | cons c cs ih =>
    have hcons : escape asciiOnly (c :: cs) = escapeChar asciiOnly c ++ escape asciiOnly cs := rfl
    rw [hcons, List.append_assoc, spanString_escapeChar, ih]
    rfl

/-- No character is half of a surrogate pair. -/
theorem isHalf_toNat (c : Char) : isHalf c.toNat = false := by
  have hvalid : c.toNat < 0xD800 ∨ 0xDFFF < c.toNat ∧ c.toNat < 0x110000 := c.valid
  simp only [isHalf, isHigh, isLow, Bool.or_eq_false_iff, Bool.and_eq_false_iff,
    decide_eq_false_iff_not]
  omega

/-- What is no first half stays as it is. -/
theorem joinPairs_cons {n : Nat} (hn : isHigh n = false) (ns : List Nat) :
    joinPairs (n :: ns) = n :: joinPairs ns := by
  cases ns with
  | nil => rfl
  | cons m ns => rw [joinPairs, hn, Bool.false_and, if_neg Bool.false_ne_true]

/-- Joining the halves of pairs gives the code points of the characters. -/
theorem joinPairs_units (cs : List Char) :
    joinPairs (cs.flatMap (units asciiOnly)) = cs.map Char.toNat := by
  induction cs with
  | nil => rfl
  | cons c cs ih =>
    rw [List.flatMap_cons, List.map_cons, units]
    split
    · next hpair =>
      have hc : 0x10000 ≤ c.toNat := by simpa using (Bool.and_eq_true_iff.mp hpair).2
      have hvalid : c.toNat < 0xD800 ∨ 0xDFFF < c.toNat ∧ c.toNat < 0x110000 := c.valid
      have hhalves : (isHigh (0xD800 + (c.toNat - 0x10000) / 0x400) &&
          isLow (0xDC00 + (c.toNat - 0x10000) % 0x400)) = true := by
        simp only [isHigh, isLow, Bool.and_eq_true, decide_eq_true_eq]
        omega
      have hpoint : 0x10000 + (0xD800 + (c.toNat - 0x10000) / 0x400 - 0xD800) * 0x400 +
          (0xDC00 + (c.toNat - 0x10000) % 0x400 - 0xDC00) = c.toNat := by
        omega
      rw [List.cons_append, List.cons_append, List.nil_append, joinPairs, if_pos hhalves, hpoint,
        ih]
    · have hc : isHigh c.toNat = false := (Bool.or_eq_false_iff.mp (isHalf_toNat c)).1
      rw [List.cons_append, List.nil_append, joinPairs_cons hc, ih]

/-- The code points of characters are no halves. -/
theorem any_isHalf_toNat (cs : List Char) : (cs.map Char.toNat).any isHalf = false := by
  simp [isHalf_toNat]

/-- The code points of a text make the text. -/
theorem textOf_toNat (cs : List Char) : textOf (cs.map Char.toNat) = String.ofList cs := by
  rw [textOf, List.map_map]
  congr 1
  refine List.map_id'' (fun c => ?_) cs
  simp [charOf, isHalf_toNat]

variable (d : Dialect) (s : String)

/-- A text is read as it has been written. -/
theorem spanText_escape :
    spanText d (escape asciiOnly s.toList ++ '"' :: rest) = .ok (.str s, rest) := by
  have hpoints : ofPoints (s.toList.map Char.toNat) = .str s := by
    rw [ofPoints, any_isHalf_toNat, textOf_toNat, String.ofList_toList]
    rfl
  have hstring : d.string (s.toList.map Char.toNat) = .ok (.str s) := by
    simp only [Dialect.string, hpoints]
  rw [spanText, spanString_escape]
  simp only [orMalformed, joinPairs_units, hstring, bind, Except.bind, pure, Except.pure]

/-- The name of a member is read as it has been written. -/
theorem spanName_printString :
    spanName d (printString asciiOnly s ++ rest) = .ok (s, rest) := by
  have hname : d.name (s.toList.map Char.toNat) = .ok s := by
    rw [Dialect.name, any_isHalf_toNat, textOf_toNat, String.ofList_toList, Bool.and_false]
    rfl
  have hprint : printString asciiOnly s ++ rest =
      '"' :: (escape asciiOnly s.toList ++ '"' :: rest) := by
    simp [printString]
  rw [hprint, spanName, spanString_escape]
  simp only [orMalformed, joinPairs_units, hname, bind, Except.bind, pure, Except.pure]

end Strings

/-- What may stand behind a value: the end of the text, a comma, a closing bracket or the start of a
line. -/
def Closes (rest : List Char) : Prop := ∀ c ∈ rest.head?, c = ',' ∨ c = ']' ∨ c = '}' ∨ c = '\n'

/-- An integer can be read in a dialect after it has been written. -/
def Dialect.Reads (d : Dialect) (n : Int) : Prop :=
  d.admits (n < 0) (decimal n.natAbs).length true

/-- In stored models the integers can be read that have few enough digits, the sign counted. -/
theorem Dialect.model_reads_iff {n : Int} :
    Dialect.model.Reads n ↔ -(10 : Int) ^ (maxDigits - 1) < n ∧ n < 10 ^ maxDigits := by
  have hlength (k m : Nat) (hm : 0 < m) : (decimal k).length ≤ m ↔ k < 10 ^ m :=
    Nat.length_toDigits_le_iff (by decide) hm
  have hpos : 0 < maxDigits - 1 := by decide
  have hone : 1 ≤ maxDigits := by decide
  have hcast (m : Nat) : ((10 ^ m : Nat) : Int) = (10 : Int) ^ m := Int.natCast_pow 10 m
  rw [Dialect.Reads, Dialect.admits, decide_eq_true_eq, ← hcast, ← hcast]
  by_cases hn : n < 0
  · have hdigits := hlength n.natAbs (maxDigits - 1) hpos
    have hmax : n < ((10 ^ maxDigits : Nat) : Int) := Int.lt_of_lt_of_le hn (Int.natCast_nonneg _)
    rw [if_pos (decide_eq_true hn), ← Nat.le_sub_iff_add_le hone, hdigits]
    generalize 10 ^ (maxDigits - 1) = a
    omega
  · have hdigits := hlength n.natAbs maxDigits (by omega)
    have hmin : -((10 ^ (maxDigits - 1) : Nat) : Int) ≤ 0 := by
      generalize 10 ^ (maxDigits - 1) = a
      omega
    have hminpos : 0 < 10 ^ (maxDigits - 1) := Nat.pow_pos (by decide)
    rw [if_neg (by simpa using hn), Nat.add_zero, hdigits]
    generalize 10 ^ (maxDigits - 1) = a at *
    generalize 10 ^ maxDigits = b
    omega

/-- A part of the grammar gives a value and what follows it, provided that all of some integers can
be read; otherwise it complains about the length of one of them. -/
structure Gives {α : Type} (d : Dialect) (ns : List Int) (r : Except Fault (α × List Char)) (a : α)
    (rest : List Char) : Prop where
  /-- All integers can be read. -/
  ok : (∀ n ∈ ns, d.Reads n) → r = .ok (a, rest)
  /-- One of them cannot. -/
  error : ∀ n ∈ ns, ¬d.Reads n → ∃ k, r = .error (.oversized k)

section Gives

variable {α β : Type} {d : Dialect} {ns ms : List Int} {rest rest' : List Char} {a : α} {b : β}
  {r : Except Fault (α × List Char)} {f : α × List Char → Except Fault (β × List Char)}

theorem Gives.pure : Gives d [] (.ok (a, rest)) a rest := ⟨fun _ => rfl, by simp⟩

/-- One part of the grammar after the other. -/
theorem Gives.bind (h : Gives d ns r a rest) (hf : Gives d ms (f (a, rest)) b rest') :
    Gives d (ns ++ ms) (r >>= f) b rest' := by
  -- the part in front complains first
  by_cases hns : ∀ n ∈ ns, d.Reads n
  · rw [h.ok hns]
    refine ⟨fun hall => hf.ok fun n hn => hall n (List.mem_append_right ns hn), fun n hn hnot => ?_⟩
    rcases List.mem_append.mp hn with hn | hn
    · exact absurd (hns n hn) hnot
    · exact hf.error n hn hnot
  · push Not at hns
    obtain ⟨n, hn, hnot⟩ := hns
    obtain ⟨k, hk⟩ := h.error n hn hnot
    refine ⟨fun hall => absurd (hall n (List.mem_append_left ms hn)) hnot, fun _ _ _ => ⟨k, ?_⟩⟩
    rw [hk]
    rfl

/-- A value is made of what a part of the grammar gives. -/
theorem Gives.map (g : α → β) (h : Gives d ns r a rest) :
    Gives d ns (do let (x, rest) ← r; return (g x, rest)) (g a) rest := by
  have hgives := h.bind (f := fun x => Except.ok (g x.1, x.2)) .pure
  rw [List.append_nil] at hgives
  exact hgives

end Gives

section Numbers

variable {d : Dialect} {rest : List Char} (hrest : Closes rest)

include hrest

theorem Closes.noDigit : NoDigit rest := by
  intro c hc
  rcases hrest c hc with rfl | rfl | rfl | rfl <;> rfl

/-- The digits of a number are a whole number. -/
theorem spanWhole_decimal (n : Nat) : spanWhole (decimal n ++ rest) = some (digits n, rest) := by
  have hspan := spanDigits_decimal (n := n) hrest.noDigit
  unfold spanWhole
  split
  · next r heq =>
    obtain ⟨c, cs, hcs⟩ := List.exists_cons_of_ne_nil (decimal_ne_nil (n := n))
    rw [hcs] at heq
    obtain ⟨rfl, rfl⟩ := List.cons.inj heq
    obtain ⟨rfl, rfl⟩ := eq_zero_of_decimal hcs
    rfl
  · rw [hspan]
    have hne : digits n ≠ [] := by simp [digits, decimal_ne_nil]
    split
    · next heq => exact absurd (Prod.mk.inj heq).1 hne
    · rfl

/-- No fraction follows. -/
theorem spanFraction_of_closes : spanFraction rest = some (none, rest) := by
  unfold spanFraction
  split
  · next r =>
    have := hrest '.' rfl
    simp at this
  · rfl

/-- No exponent follows. -/
theorem spanExponent_of_closes : spanExponent rest = some (none, rest) := by
  cases rest with
  | nil => rfl
  | cons c r =>
    have hc : ¬(c = 'e' ∨ c = 'E') := by
      rcases hrest c rfl with rfl | rfl | rfl | rfl <;> decide
    rw [spanExponent, if_neg hc]

/-- The digits of an integer without a sign are read. -/
theorem spanNumber_decimal (k : Nat) :
    spanNumber d (decimal k ++ rest) =
      if d.admits false (decimal k).length true then .ok (d.int k, rest)
      else .error (.oversized (decimal k).length) := by
  unfold spanNumber
  split
  next negative body heq =>
  split at heq
  · next r hs =>
    -- the first character is a digit and no minus sign
    obtain ⟨c, cs, hcs⟩ := List.exists_cons_of_ne_nil (decimal_ne_nil (n := k))
    have hc : c.isDigit := isDigit_of_mem_decimal (n := k) (by rw [hcs]; exact List.mem_cons_self)
    rw [hcs] at hs
    rw [(List.cons.inj hs).1] at hc
    cases hc
  · obtain ⟨rfl, rfl⟩ := Prod.mk.inj heq
    simp only [spanWhole_decimal hrest, spanFraction_of_closes hrest, spanExponent_of_closes hrest,
      orMalformed, bind, Except.bind, pure, Except.pure, Option.isNone_none, Bool.and_self,
      length_digits, ofDigits_digits, signed]
    split <;> simp_all

/-- The digits of an integer behind a minus sign are read. -/
theorem spanNumber_minus (k : Nat) :
    spanNumber d ('-' :: (decimal k ++ rest)) =
      if d.admits true (decimal k).length true then .ok (d.int (-k), rest)
      else .error (.oversized (decimal k).length) := by
  unfold spanNumber
  simp only [spanWhole_decimal hrest, spanFraction_of_closes hrest, spanExponent_of_closes hrest,
      orMalformed, bind, Except.bind, pure, Except.pure, Option.isNone_none, Bool.and_self,
      length_digits, ofDigits_digits, signed]
  split <;> simp_all

/-- An integer is read as it has been written, unless it is too long. -/
theorem gives_formatInt (n : Int) :
    Gives d [n] (spanNumber d (formatInt n ++ rest)) (d.int n) rest := by
  have hread : spanNumber d (formatInt n ++ rest) =
      if d.admits (n < 0) (decimal n.natAbs).length true then .ok (d.int n, rest)
      else .error (.oversized (decimal n.natAbs).length) := by
    cases n with
    | ofNat k => exact spanNumber_decimal hrest k
    | negSucc k =>
      rw [decide_eq_true (Int.negSucc_lt_zero k)]
      exact spanNumber_minus hrest (k + 1)
  rw [hread]
  refine ⟨fun hall => if_pos (hall n (List.mem_singleton_self n)), fun m hm hnot => ?_⟩
  obtain rfl := List.mem_singleton.mp hm
  exact ⟨_, if_neg hnot⟩

end Numbers

end VisualNovel.Json
