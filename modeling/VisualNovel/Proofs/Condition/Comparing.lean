import VisualNovel.Proofs.Condition.Quoted
import VisualNovel.Proofs.Number.Decimal

/-!
# Comparisons of the same operands

The six comparison operators are put between the same two operands, texts in which no variable is
named and no sign of the language of conditions occurs. Numbers and texts have a total order, and
there the operators agree with each other. Flags are compared for equality only. Where an order is
asked for, they are compared as the texts that write them, so that two ways of writing one flag are
equal and one of them comes before the other. A comparison without a left operand is taken for a
negation if its operator starts with an exclamation mark.

## Main definitions

* `Condition.words`: the words of a text;
* `Condition.IsOperand`: a text that names no variable and has no sign of the language;
* `Condition.SameFlag`: two operands that write the same flag.

## Main results

* `Condition.Comparison.holds_le_iff`: when an order agrees with its strict form and with equality;
* `Condition.evaluate_comparison`: what a comparison of two operands is worth;
* `Condition.comparisons_agree_iff`: when the operators agree with each other.
-/

namespace VisualNovel.Condition

open Text Number

variable {vs : Variables} {s t l r sep : List Char} {op : Comparison}

/-! ### Words that name no variable -/

/-- The words of a text: the longest runs of characters that the name of a variable may have. -/
def words (s : List Char) : List (List Char) :=
  (s.splitOnP fun c => !Text.isWord c).filter fun w => !w.isEmpty

/-- A word ends at a character that belongs to no word. -/
theorem words_append_cons {c : Char} (hc : Text.isWord c = false) (s t : List Char) :
    words (s ++ c :: t) = words s ++ words t := by
  have hbreak : (!Text.isWord c) = true := by rw [hc]; rfl
  rw [words, List.splitOnP_append_cons s t hbreak, List.filter_append]
  rfl

theorem words_of_forall_isWord (hne : s ≠ []) (hword : ∀ c ∈ s, Text.isWord c) :
    words s = [s] := by
  have hwhole : s.splitOnP (fun c => !Text.isWord c) = [s] :=
    List.splitOnP_eq_singleton fun c hc => by simp [hword c hc]
  simp [words, hwhole, hne]

/-- A text is left as it is if no word of it names a variable. -/
theorem substitute_of_unbound (h : ∀ w ∈ words s, vs.get? (String.ofList w) = none) :
    substitute vs s = s := by
  -- the part of a word that has been passed over belongs to the text
  suffices hfrom : ∀ word : List Char, (∀ c ∈ word, Text.isWord c) →
      (∀ w ∈ words (word.reverse ++ s), vs.get? (String.ofList w) = none) →
      substituteFrom vs word s = word.reverse ++ s from hfrom [] (by simp) h
  clear h
  have hpassed {word : List Char} (hword : ∀ c ∈ word, Text.isWord c)
      (hunbound : ∀ w ∈ words word.reverse, vs.get? (String.ofList w) = none) :
      (if word.isEmpty then [] else substituteWord vs word.reverse) = word.reverse := by
    cases word with
    | nil => rfl
    | cons c word =>
      rw [words_of_forall_isWord (by simp) fun d hd => hword d (List.mem_reverse.mp hd)] at hunbound
      have hnone := hunbound _ (List.mem_singleton_self _)
      simp only [substituteWord, hnone]
      rfl
  induction s with
  | nil =>
    intro word hword hunbound
    rw [List.append_nil] at hunbound ⊢
    exact hpassed hword hunbound
  | cons c s ih =>
    intro word hword hunbound
    rw [substituteFrom]
    split
    · next hc =>
      have hcons : (c :: word).reverse ++ s = word.reverse ++ c :: s := by simp
      rw [ih (c :: word) (List.forall_mem_cons.mpr ⟨hc, hword⟩) (by rwa [hcons]), hcons]
    · next hc =>
      rw [words_append_cons (Bool.eq_false_iff.mpr hc), List.forall_mem_append] at hunbound
      have hrest := ih [] (by simp) hunbound.2
      rw [hpassed hword hunbound.1, hrest]
      rfl

/-! ### The order of numbers, texts and operands -/

/-- Of two texts that differ, one comes before the other, and only one. -/
theorem precedes_eq_not (s t : List Char) : precedes t s = !(precedes s t || decide (s = t)) := by
  induction s generalizing t with
  | nil => cases t <;> simp [precedes, precedesBy]
  | cons c s ih =>
    cases t with
    | nil => simp [precedes, precedesBy]
    | cons d t =>
      by_cases hcd : c = d
      · subst hcd
        simpa [precedes, precedesBy] using ih t
      · have hne : c.toNat ≠ d.toNat := mt Char.toNat_inj.mp hcd
        have hlt : decide (d.toNat < c.toNat) = !decide (c.toNat < d.toNat) := by
          rw [← decide_not, decide_eq_decide]
          omega
        simp [precedes, precedesBy, hcd, Ne.symm hcd, hlt]

/-- Two operands write the same flag. -/
def SameFlag (l r : List Char) : Prop :=
  ∃ b, Value.readBool? l = some b ∧ Value.readBool? r = some b

namespace Comparison

/-- One number is at most another if it is less than it or equal to it. -/
theorem onNumbers_le (x y : Float) :
    le.onNumbers x y = (lt.onNumbers x y || eq.onNumbers x y) := by
  -- the three of them look at the same comparison of the unpacked numbers
  have hle : decide (x ≤ y) = x.toModel.unpack.le y.toModel.unpack := by
    rw [Bool.eq_iff_iff, decide_eq_true_iff]
    exact decide_eq_true_iff
  have hlt : decide (x < y) = x.toModel.unpack.lt y.toModel.unpack := by
    rw [Bool.eq_iff_iff, decide_eq_true_iff]
    exact decide_eq_true_iff
  have heq : (x == y) = x.toModel.unpack.beq y.toModel.unpack := rfl
  simp only [onNumbers, hle, hlt, heq, Float.Model.UnpackedFloat.le, Float.Model.UnpackedFloat.lt,
    Float.Model.UnpackedFloat.beq]
  rcases x.toModel.unpack.compare y.toModel.unpack with _ | _ | _ | _ <;> rfl

theorem beq_comm_float (x y : Float) : (x == y) = (y == x) := by
  rw [Bool.eq_iff_iff, Float.beq_iff_ne_nan_and_eq, Float.beq_iff_ne_nan_and_eq]
  tauto

/-- One text does not come behind another if it comes before it or is the same. -/
theorem onTexts_le (s t : List Char) : le.onTexts s t = (lt.onTexts s t || eq.onTexts s t) := by
  simp only [onTexts, precedes_eq_not s t, Bool.not_not]

/-- An order is the reverse of the other one, and equality has no direction. -/
theorem holds_swap (l r : List Char) :
    ge.holds l r = le.holds r l ∧ gt.holds l r = lt.holds r l ∧ eq.holds l r = eq.holds r l := by
  unfold holds
  cases readNumber? l <;> cases readNumber? r <;> cases Value.readBool? l <;>
    cases Value.readBool? r <;>
    simp [onNumbers, onFlags?, onTexts, eq_comm, beq_comm_float]

/-- All operators read the operands in the same way: as numbers, as flags or as texts. Flags have no
order, so they are put in the order of the texts that write them. -/
theorem holds_cases (l r : List Char) :
    (∃ x y, readNumber? l = some x ∧ readNumber? r = some y ∧
      ∀ op : Comparison, op.holds l r = op.onNumbers x y) ∨
    (∃ a b, Value.readBool? l = some a ∧ Value.readBool? r = some b ∧
      ∀ op : Comparison, op.holds l r = (op.onFlags? a b).getD (op.onTexts l r)) ∨
    ((∀ a b, ¬(Value.readBool? l = some a ∧ Value.readBool? r = some b)) ∧
      ∀ op : Comparison, op.holds l r = op.onTexts l r) := by
  cases hl : readNumber? l with
  | some x =>
    cases hr : readNumber? r with
    | some y => exact .inl ⟨x, y, rfl, rfl, fun op => by simp [holds, hl, hr]⟩
    | none =>
      -- the operand that is a number is no flag
      have hflag : Value.readBool? l = none := Option.eq_none_iff_forall_ne_some.mpr fun b hb => by
        simp [Value.readNumber?_of_readBool? hb] at hl
      exact .inr (.inr ⟨by simp [hflag], fun op => by simp [holds, hl, hr, hflag]⟩)
  | none =>
    cases hflag : Value.readBool? l with
    | none => exact .inr (.inr ⟨by simp, fun op => by simp [holds, hl, hflag]⟩)
    | some a =>
      cases hflag' : Value.readBool? r with
      | none => exact .inr (.inr ⟨by simp, fun op => by simp [holds, hl, hflag, hflag']⟩)
      | some b => exact .inr (.inl ⟨a, b, rfl, rfl, fun op => by simp [holds, hl, hflag, hflag']⟩)

theorem holds_ne (l r : List Char) : ne.holds l r = !eq.holds l r := by
  rcases holds_cases l r with ⟨x, y, -, -, h⟩ | ⟨a, b, -, -, h⟩ | ⟨-, h⟩
  · simp [h, onNumbers, bne]
  · simp [h, onFlags?, bne]
  · simp [h, onTexts]

/-- The order agrees with its strict form and with equality, unless the operands write the same
flag and the second way of writing it comes before the first. -/
theorem holds_le_iff (l r : List Char) :
    le.holds l r = (lt.holds l r || eq.holds l r) ↔ ¬(SameFlag l r ∧ precedes r l = true) := by
  rcases holds_cases l r with ⟨x, y, hl, -, h⟩ | ⟨a, b, hl, hr, h⟩ | ⟨hnone, h⟩
  · have hnot : ¬SameFlag l r := by
      rintro ⟨b, hb, -⟩
      simp [Value.readNumber?_of_readBool? hb] at hl
    simp [h, hnot, onNumbers_le]
  · have hsame : SameFlag l r ↔ a = b := by simp [SameFlag, hl, hr, eq_comm]
    rw [h, h, h, hsame]
    by_cases hab : a = b
    · simp [onFlags?, onTexts, hab]
    · have hne : l ≠ r := by
        rintro rfl
        exact hab (Option.some.inj (hl.symm.trans hr))
      simp [onFlags?, onTexts, hab, precedes_eq_not l r, hne]
  · have hnot : ¬SameFlag l r := not_exists.mpr fun b hb => hnone b b hb
    simp [h, hnot, onTexts_le]

/-- The reverse order agrees with its strict form and with equality likewise. -/
theorem holds_ge_iff (l r : List Char) :
    ge.holds l r = (gt.holds l r || eq.holds l r) ↔ ¬(SameFlag l r ∧ precedes l r = true) := by
  obtain ⟨hge, hgt, heq⟩ := holds_swap l r
  have hsame : SameFlag l r ↔ SameFlag r l := by
    simp only [SameFlag, and_comm]
  rw [hge, hgt, heq, hsame, holds_le_iff]

end Comparison

/-! ### Blanks around a comparison -/

theorem Comparison.notMem_symbol_of_isBlank {c : Char} (hc : isBlank c) (op : Comparison) :
    c ∉ op.symbol := by
  intro hmem
  have hsign : c = '>' ∨ c = '<' ∨ c = '=' ∨ c = '!' := by
    cases op <;> simp [Comparison.symbol] at hmem <;> tauto
  rcases hsign with rfl | rfl | rfl | rfl <;> exact absurd hc (by decide)

/-- Blanks around a text belong to no operator. -/
theorem occurs_symbol_trim (op : Comparison) (s : List Char) :
    occurs op.symbol (trim s) = occurs op.symbol s := by
  have hne := op.symbol_spec.1
  have hnil : occurs op.symbol [] = false := List.isEmpty_eq_false_iff.mpr hne
  refine apply_trim (fun c s hc => ?_) (fun s c hc => ?_) s
  · rw [← List.nil_append (c :: s), occurs_append_cons hne (op.notMem_symbol_of_isBlank hc), hnil,
      Bool.false_or]
  · rw [occurs_append_cons hne (op.notMem_symbol_of_isBlank hc), hnil, Bool.or_false]

/-- Blanks around a comparison are trimmed with its operands. -/
theorem compare_trim (op : Comparison) (s : List Char) : compare op (trim s) = compare op s := by
  have hne := op.symbol_spec.1
  -- blank by blank: one in front belongs to the first operand, one behind to the last
  refine apply_trim (fun c s hc => ?_) (fun s c hc => ?_) s
  · have hfirst : operand (c :: firstPart op.symbol s) = operand (firstPart op.symbol s) := by
      rw [operand, ← List.singleton_append, trim_append_left (by simpa using hc), operand]
    rw [compare, compare, ← List.nil_append (c :: s),
      splitOn_append_cons hne (op.notMem_symbol_of_isBlank hc), ← firstPart_cons_tail op.symbol s]
    generalize (splitOn op.symbol s).tail = rest
    cases rest with
    | nil => rfl
    | cons r rest =>
      cases rest with
      | nil => exact congrArg (op.holds · (operand r)) hfirst
      | cons _ _ => rfl
  · have hlast : operand (lastPart op.symbol s ++ [c]) = operand (lastPart op.symbol s) := by
      rw [operand, trim_append_right (by simpa using hc), operand]
    have hparts := splitOn_append_cons hne (op.notMem_symbol_of_isBlank hc) s []
    have hwhole := (dropLast_concat_lastPart op.symbol s).symm
    generalize (splitOn op.symbol s).dropLast = front at hparts hwhole
    rw [compare, compare, hparts, hwhole]
    rcases front with _ | ⟨l, _ | ⟨m, _ | ⟨n, front⟩⟩⟩
    · rfl
    · exact congrArg (op.holds (operand l)) hlast
    · rfl
    · rfl

/-! ### Texts that start with a sign -/

/-- A trimmed text is negated if it starts with an exclamation mark. -/
theorem negations_trim (h : ∀ c ∈ (trim s).head?, c ≠ '!') :
    negations (trim s) = atom (trim s) := by
  have hblank := (trim_eq_self_iff.mp (trim_trim s)).1
  cases hs : trim s with
  | nil => rfl
  | cons c t =>
    rw [hs] at h hblank
    simp [negations, hblank c rfl, h c rfl]

/-- No number starts with an equality sign. -/
theorem readNumber?_equals (s : List Char) : readNumber? ('=' :: s) = none := by
  have htrim : trimBy isSpace ('=' :: s) = '=' :: trimRight isSpace s := by
    have hleft : trimLeft isSpace ('=' :: s) = '=' :: s := by simp [trimLeft, isSpace]
    rw [trimBy, hleft]
    exact trimRight_append_cons rfl [] s
  have hfloat (t : List Char) : readFloat? ('=' :: t) = none := by
    unfold readFloat?
    simp only [spanSign, foldCase]
    rfl
  simp only [readNumber?, htrim, List.map_cons, Option.bind_eq_bind, Option.bind_eq_none_iff]
  intro body hbody
  have hcons : ∃ t, body = '=' :: t := by
    have hplain : plainDigit '=' = '=' := rfl
    simp [hplain, ungroup?] at hbody
    obtain ⟨t, -, rfl⟩ := hbody
    exact ⟨t, rfl⟩
  obtain ⟨t, rfl⟩ := hcons
  simp [hfloat]

/-- A text that starts with an equality sign is a text other than the empty one. -/
theorem valueTruth_equals (s : List Char) : valueTruth ('=' :: s) = true := by
  have hflag : Value.readBool? ('=' :: s) = none := by
    rw [Value.readBool?, trim_cons rfl]
    rfl
  have hrest : unquote ('=' :: s) = '=' :: trimRight (· == '"') s := by
    have hleft : trimLeft (· == '"') ('=' :: s) = '=' :: s := rfl
    rw [unquote, trimBy, hleft]
    exact trimRight_append_cons rfl [] s
  simp [valueTruth, hflag, readNumber?_equals, hrest]

/-! ### Operands without signs -/

/-- The signs of the language of conditions. -/
def signs : List Char := ['(', ')', '&', '|', '!', '=', '<', '>']

/-- A text that names no variable and has no sign of the language of conditions. -/
structure IsOperand (vs : Variables) (s : List Char) : Prop where
  /-- No word of it is the name of a variable. -/
  unbound : ∀ w ∈ words s, vs.get? (String.ofList w) = none
  /-- It has no sign. -/
  plain : ∀ c ∈ signs, c ∉ s

/-- What has a character that a text does not have does not occur in the text. -/
theorem not_occurs_of_notMem {c : Char} (hsep : c ∈ sep) (hs : c ∉ s) : occurs sep s = false :=
  Bool.eq_false_iff.mpr fun h => hs ((occurs_iff_isInfix.mp h).subset hsep)

/-- An equality sign in front of a text without signs is no operator. -/
theorem atom_equals (h : ∀ c ∈ signs, c ∉ s) : atom ('=' :: s) = true := by
  have hmem {c : Char} (hc : c ∈ ['<', '>', '!']) : c ∉ '=' :: s := by
    have hsign : c ∈ signs ∧ c ≠ '=' := by
      simp only [List.mem_cons, List.not_mem_nil, or_false] at hc
      rcases hc with rfl | rfl | rfl <;> simp [signs]
    simp [hsign.2, h c hsign.1]
  -- the double sign is the only symbol that could begin at the front
  have hdouble : occurs ['=', '='] ('=' :: s) = false := by
    have heq : '=' ∉ s := h '=' (by simp [signs])
    have hfront : ['='].isPrefixOf s = false := by
      cases s with
      | nil => rfl
      | cons c s =>
        have hc : ('=' == c) = false := beq_false_of_ne (not_or.mp (mt List.mem_cons.mpr heq)).1
        rw [List.isPrefixOf, hc, Bool.false_and]
    rw [occurs, not_occurs_of_notMem (List.mem_cons_self ..) heq, Bool.or_false]
    simpa using hfront
  have hnone : (Comparison.all.find? fun op => occurs op.symbol ('=' :: s)) = none := by
    refine List.find?_eq_none.mpr fun op _ => Bool.not_eq_true _ ▸ ?_
    cases op with
    | eq => exact hdouble
    | ge | gt =>
      exact not_occurs_of_notMem (c := '>') (by simp [Comparison.symbol]) (hmem (by simp))
    | le | lt =>
      exact not_occurs_of_notMem (c := '<') (by simp [Comparison.symbol]) (hmem (by simp))
    | ne => exact not_occurs_of_notMem (c := '!') (by simp [Comparison.symbol]) (hmem (by simp))
  rw [atom, hnone]
  exact valueTruth_equals s

section Plain

variable (hl : ∀ c ∈ signs, c ∉ l) (hr : ∀ c ∈ signs, c ∉ r)

include hl in
theorem not_occurs_symbol (op : Comparison) : occurs op.symbol l = false := by
  have hsign : ∃ c ∈ op.symbol, c ∈ signs := by cases op <;> simp [Comparison.symbol, signs]
  obtain ⟨c, hc, hsign⟩ := hsign
  exact not_occurs_of_notMem hc (hl c hsign)

include hl hr

theorem notMem_compared {c : Char} (hc : c ∈ ['(', ')', '&', '|']) (op : Comparison) :
    c ∉ compared op l r := by
  have hsign : c ∈ signs := List.mem_append_left ['!', '=', '<', '>'] hc
  have hsymbol : c ≠ ' ' ∧ c ∉ op.symbol := by
    simp only [List.mem_cons, List.not_mem_nil, or_false] at hc
    rcases hc with rfl | rfl | rfl | rfl <;> cases op <;> decide
  simp [compared, hl c hsign, hr c hsign, hsymbol]

theorem isAtom_compared (op : Comparison) : IsAtom (compared op l r) where
  opening := notMem_compared hl hr (by simp) op
  closing := notMem_compared hl hr (by simp) op
  conjunction := not_occurs_of_notMem (by simp) (notMem_compared hl hr (c := '&') (by simp) op)
  disjunction := not_occurs_of_notMem (by simp) (notMem_compared hl hr (c := '|') (by simp) op)

/-- The operator between the operands is the first that is found. -/
theorem atom_trim_compared (op : Comparison) :
    atom (trim (compared op l r)) = op.holds (operand l) (operand r) := by
  have hoccurs (other : Comparison) :
      occurs other.symbol (trim (compared op l r)) = occurs other.symbol op.symbol := by
    obtain ⟨hne, hblank, -⟩ := other.symbol_spec
    rw [occurs_symbol_trim, occurs_compared hne hblank, not_occurs_symbol hl other,
      not_occurs_symbol hr other, Bool.false_or, Bool.or_false]
  have hfound : (Comparison.all.find? fun other => occurs other.symbol op.symbol) = some op := by
    cases op <;> rfl
  rw [atom]
  simp only [hoccurs, hfound, compare_trim]
  exact compare_compared (not_occurs_symbol hl op) (not_occurs_symbol hr op)

/-- A comparison does not start with an exclamation mark if it has a left operand, or if its
operator does not. -/
theorem negations_trim_compared (h : op ≠ .ne ∨ trim l ≠ []) :
    negations (trim (compared op l r)) = op.holds (operand l) (operand r) := by
  rw [← atom_trim_compared hl hr]
  refine negations_trim fun c hc => ?_
  rcases h with hop | hne
  · have hmark : '!' ∉ compared op l r := by
      have hleft := hl '!' (by simp [signs])
      have hright := hr '!' (by simp [signs])
      cases op <;> simp_all [compared, Comparison.symbol]
    rintro rfl
    exact hmark (mem_of_mem_trim (List.mem_of_mem_head? hc))
  · -- the first character of the comparison is that of the left operand
    obtain ⟨front, back, heq, hfront, -⟩ := exists_eq_append_trim l
    obtain ⟨d, m, hd⟩ := List.exists_cons_of_ne_nil hne
    have hblank : isBlank d = false := (trim_eq_self_iff.mp (trim_trim l)).1 d (by simp [hd])
    have hmem : d ∈ l := mem_of_mem_trim (by simp [hd])
    have hwhole : compared op l r =
        front ++ d :: (m ++ back ++ ' ' :: (op.symbol ++ ' ' :: r)) := by
      rw [compared, heq, hd]
      simp
    rw [hwhole, trim_append_left hfront, trim_cons hblank] at hc
    obtain rfl : d = c := by simpa using hc
    rintro rfl
    exact hl '!' (by simp [signs]) hmem

end Plain

/-- What is left of a comparison without a left operand when the exclamation mark has been taken for
a negation is a text with an equality sign, which counts as true. -/
theorem negations_trim_of_blank (hl : trim l = []) (hr : ∀ c ∈ signs, c ∉ r) :
    negations (trim (compared .ne l r)) = false := by
  have hblanks : ∀ c ∈ l ++ [' '], isBlank c := by
    obtain ⟨front, back, heq, hfront, hback⟩ := exists_eq_append_trim l
    rw [hl, List.append_nil] at heq
    simp only [heq, List.forall_mem_append, List.forall_mem_singleton]
    exact ⟨⟨hfront, hback⟩, rfl⟩
  have hwhole : compared .ne l r = l ++ [' '] ++ '!' :: '=' :: ' ' :: r := by
    simp [compared, Comparison.symbol]
  have hrest : trimRight isBlank ('=' :: ' ' :: r) = '=' :: trimRight isBlank (' ' :: r) :=
    trimRight_append_cons rfl [] _
  have hplain : ∀ c ∈ signs, c ∉ trimRight isBlank (' ' :: r) := by
    intro c hc hmem
    rcases List.mem_cons.mp ((trimRight_isPrefix _ _).subset hmem) with rfl | hmem
    · simp [signs] at hc
    · exact hr c hc hmem
  rw [hwhole, trim_append_left hblanks, trim_cons rfl, hrest]
  exact congrArg (! ·) (atom_equals hplain)

/-- The value of a comparison. -/
theorem evaluate_comparison {l r : String} (hl : IsOperand vs l.toList) (hr : IsOperand vs r.toList)
    (op : Comparison) :
    evaluate vs (l ++ " " ++ String.ofList op.symbol ++ " " ++ r) =
      .ok (!(op = .ne ∧ trim l.toList = []) && op.holds (operand l.toList) (operand r.toList)) := by
  have htext : (l ++ " " ++ String.ofList op.symbol ++ " " ++ r).toList =
      compared op l.toList r.toList := by simp [compared]
  have hatom := isAtom_compared hl.plain hr.plain op
  have hsubst : substitute vs (compared op l.toList r.toList) = compared op l.toList r.toList := by
    rw [substitute_compared, substitute_of_unbound hl.unbound, substitute_of_unbound hr.unbound]
  rw [evaluate_of_isAtom (by rwa [htext, hsubst]), htext, hsubst, hatom.flat_eq]
  refine congrArg Except.ok ?_
  -- with a blank operand in front, the sign of inequality begins the text and negates it
  by_cases hblank : op = .ne ∧ trim l.toList = []
  · obtain ⟨rfl, hblank⟩ := hblank
    simp [negations_trim_of_blank hblank hr.plain, hblank]
  · rw [negations_trim_compared hl.plain hr.plain (not_and_or.mp hblank)]
    simp [hblank]

/-- Every comparison of two operands has a value. The orders agree with their strict forms and with
equality unless the operands, trimmed and without quotes, write the same flag in two ways, the first
of which is on the wrong side of the second. Inequality is the negation of equality unless the left
operand is blank and the right one is not empty. -/
theorem comparisons_agree_iff {l r : String} (hl : IsOperand vs l.toList)
    (hr : IsOperand vs r.toList) :
    ∃ value : Comparison → Bool,
      (∀ op : Comparison,
        evaluate vs (l ++ " " ++ String.ofList op.symbol ++ " " ++ r) = .ok (value op)) ∧
      (value .le = (value .lt || value .eq) ↔
        ¬(SameFlag (operand l.toList) (operand r.toList) ∧
          precedes (operand r.toList) (operand l.toList) = true)) ∧
      (value .ge = (value .gt || value .eq) ↔
        ¬(SameFlag (operand l.toList) (operand r.toList) ∧
          precedes (operand l.toList) (operand r.toList) = true)) ∧
      (value .ne = !value .eq ↔ trim l.toList ≠ [] ∨ operand r.toList = []) := by
  refine ⟨_, evaluate_comparison hl hr, ?_, ?_, ?_⟩
  · simpa using Comparison.holds_le_iff _ _
  · simpa using Comparison.holds_ge_iff _ _
  · by_cases hblank : trim l.toList = []
    · have hempty : operand l.toList = [] := by rw [operand, hblank]; rfl
      have hequal : Comparison.eq.holds [] (operand r.toList) = decide (operand r.toList = []) := by
        rcases Comparison.holds_cases [] (operand r.toList) with
          ⟨x, -, hx, -⟩ | ⟨b, -, hb, -⟩ | ⟨-, h⟩
        · cases hx
        · cases hb
        · rw [h, Comparison.onTexts, decide_eq_decide]
          exact eq_comm
      simp [hblank, hempty, hequal]
    · simp [hblank, Comparison.holds_ne]

/-- Numbers, in the presence of a variable. -/
theorem comparisons_agree_scores :
    let vs : Variables := Variables.empty.set "score" (.int 3)
    (IsOperand vs " 10".toList ∧ IsOperand vs "\"9.5\"".toList) ∧
      ∃ value : Comparison → Bool,
        (∀ op : Comparison,
          evaluate vs (" 10" ++ " " ++ String.ofList op.symbol ++ " " ++ "\"9.5\"") =
            .ok (value op)) ∧
        value .le = (value .lt || value .eq) ∧ value .ge = (value .gt || value .eq) ∧
        value .ne = !value .eq := by
  intro vs
  have hl : IsOperand vs " 10".toList := ⟨by decide +kernel, by simp [signs]⟩
  have hr : IsOperand vs "\"9.5\"".toList := ⟨by decide +kernel, by simp [signs]⟩
  have hflag : ¬SameFlag (operand " 10".toList) (operand "\"9.5\"".toList) := by
    rintro ⟨b, hb, -⟩
    cases b <;> revert hb <;> decide +kernel
  have htrim : trim " 10".toList ≠ [] := by decide +kernel
  obtain ⟨value, hvalue, hle, hge, hne⟩ := comparisons_agree_iff hl hr
  exact ⟨⟨hl, hr⟩, value, hvalue, hle.mpr fun h => hflag h.1, hge.mpr fun h => hflag h.1,
    hne.mpr (.inl htrim)⟩

/-- Two ways of writing a flag are equal, but neither order holds between them both ways, and what
has no left operand is neither equal to a text nor different from it. -/
theorem not_comparisons_agree :
    (IsOperand Variables.empty "true".toList ∧ IsOperand Variables.empty "True".toList ∧
        evaluate Variables.empty "true == True" = .ok true ∧
        evaluate Variables.empty "true <= True" = .ok false ∧
        evaluate Variables.empty "True == true" = .ok true ∧
        evaluate Variables.empty "True >= true" = .ok false) ∧
      IsOperand Variables.empty "".toList ∧ IsOperand Variables.empty "tea".toList ∧
        evaluate Variables.empty " == tea" = .ok false ∧
        evaluate Variables.empty " != tea" = .ok false := by
  have hunbound (s : List Char) : ∀ w ∈ words s,
      Variables.empty.get? (String.ofList w) = none := fun _ _ => rfl
  exact ⟨⟨⟨hunbound _, by simp [signs]⟩, ⟨hunbound _, by simp [signs]⟩, by decide +kernel⟩,
    ⟨hunbound _, by simp [signs]⟩, ⟨hunbound _, by simp [signs]⟩, by decide +kernel⟩

end VisualNovel.Condition
