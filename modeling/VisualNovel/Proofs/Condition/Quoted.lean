import Mathlib
import VisualNovel.Proofs.Condition.Formula

/-!
# Texts that are compared with themselves

The value of a text variable is written between quotes before a condition is taken apart. The quotes
do not protect it: parentheses, connectives and comparison operators are looked for in the value as
well. So a variable is equal to itself only as long as its value has none of these, or by chance.

## Main definitions

* `Condition.compared`: two operands with an operator between them;
* `Condition.aside`: the parts of two joined texts that are not at the joint;
* `Condition.EqualByChance`: a text whose parts happen to make it equal to itself;
* `Condition.StandsForItself`: a text that survives being written in a condition.

## Main results

* `Condition.settle_compared`: groups are settled in either copy of a value by itself;
* `Condition.flat_compared`, `Condition.disjunction_compared`: connectives take the operands apart;
* `Condition.compare_of_occurs`: an operator in the value makes a comparison false;
* `Condition.self_compared_iff`: when a variable is equal to itself and not different from itself.
-/

namespace VisualNovel.Condition

open Text

variable {vs : Variables} {s t l r sep : List Char} {op other : Comparison}

/-! ### Comparing equal operands -/

/-- What is read as a number is one, so it is equal to itself. -/
theorem beq_self_of_readNumber? {x : Float} (h : Number.readNumber? s = some x) :
    (x == x) = true := by
  simp only [Number.readNumber?, Option.bind_eq_bind, Option.bind_eq_some_iff] at h
  obtain ⟨body, -, y, -, hy⟩ := h
  split at hy
  · cases hy
  · next hnan =>
    obtain rfl := Option.some.inj hy
    rw [Float.beq_self_iff]
    simpa using hnan

namespace Comparison

/-- A text is equal to itself, and not different from itself, whichever way it is read. -/
theorem holds_self (s : List Char) : eq.holds s s = true ∧ ne.holds s s = false := by
  unfold holds
  cases hnumber : Number.readNumber? s with
  | some x =>
    have hself := beq_self_of_readNumber? hnumber
    simp [onNumbers, bne, hself]
  | none => cases hflag : Value.readBool? s <;> simp [onFlags?, onTexts]

end Comparison

/-! ### Two operands with an operator between them -/

/-- Two operands with an operator between them. -/
def compared (op : Comparison) (l r : List Char) : List Char :=
  l ++ ' ' :: (op.symbol ++ ' ' :: r)

/-- The parts of two joined texts that are not at the joint. -/
def aside (sep l r : List Char) : List (List Char) :=
  (splitOn sep l).dropLast ++ (splitOn sep r).tail

/-- A separator occurs in one of the operands or in the operator between them. -/
theorem occurs_compared (hsep : sep ≠ []) (hblank : ' ' ∉ sep) (op : Comparison)
    (l r : List Char) :
    occurs sep (compared op l r) = (occurs sep l || (occurs sep op.symbol || occurs sep r)) := by
  rw [compared, occurs_append_cons hsep hblank, occurs_append_cons hsep hblank]

/-- A separator takes the operands apart, and the operator stays with what is next to it. -/
theorem splitOn_compared (hsep : sep ≠ []) (hblank : ' ' ∉ sep)
    (hop : occurs sep op.symbol = false) (l r : List Char) :
    splitOn sep (compared op l r) = (splitOn sep l).dropLast ++
      compared op (lastPart sep l) (firstPart sep r) :: (splitOn sep r).tail := by
  have hsymbol := splitOn_of_not_occurs hop
  have hright : splitOn sep (op.symbol ++ ' ' :: r) =
      (op.symbol ++ ' ' :: firstPart sep r) :: (splitOn sep r).tail := by
    rw [splitOn_append_cons hsep hblank, lastPart, hsymbol]
    rfl
  rw [compared, splitOn_append_cons hsep hblank, firstPart, hright]
  rfl

/-! ### Connectives -/

theorem not_mem_of_isBlank {c : Char} (h : isBlank c) : c ∉ ['|', '|'] := by
  rintro hmem
  obtain rfl : c = '|' := by simpa using hmem
  exact absurd h (by decide)

/-- A blank in front of a disjunction belongs to its first part. -/
theorem disjunction_cons {c : Char} (hc : isBlank c) (s : List Char) :
    disjunction (c :: s) = disjunction s := by
  have hfirst : trim (c :: firstPart ['|', '|'] s) = trim (firstPart ['|', '|'] s) :=
    trim_append_left (s := [c]) (by simpa using hc) _
  rw [disjunction, ← List.nil_append (c :: s),
    splitOn_append_cons (by decide) (not_mem_of_isBlank hc), disjunction,
    ← firstPart_cons_tail _ s]
  simp [splitOn, splitFrom, lastPart, hfirst]

/-- A blank behind a disjunction belongs to its last part. -/
theorem disjunction_concat {c : Char} (hc : isBlank c) (s : List Char) :
    disjunction (s ++ [c]) = disjunction s := by
  have hlast : trim (lastPart ['|', '|'] s ++ [c]) = trim (lastPart ['|', '|'] s) :=
    trim_append_right (t := [c]) (by simpa using hc) _
  rw [disjunction, splitOn_append_cons (by decide) (not_mem_of_isBlank hc), disjunction,
    ← dropLast_concat_lastPart _ s]
  simp [splitOn, splitFrom, firstPart, hlast]

/-- Blanks around a disjunction make no difference. -/
theorem disjunction_trim (s : List Char) : disjunction (trim s) = disjunction s :=
  apply_trim (fun _ s hc => disjunction_cons hc s) (fun s _ hc => disjunction_concat hc s) s

/-- The truth of a conjunction. -/
theorem flat_eq_all (s : List Char) : flat s = (splitOn ['&', '&'] s).all disjunction := by
  simp [flat, disjunction_trim]

/-- The conjuncts in the operands are beside the comparison. -/
theorem flat_compared (op : Comparison) (l r : List Char) :
    flat (compared op l r) = ((aside ['&', '&'] l r).all disjunction &&
      disjunction (compared op (lastPart ['&', '&'] l) (firstPart ['&', '&'] r))) := by
  rw [flat_eq_all, splitOn_compared (by decide) (by decide) (by cases op <;> rfl), aside,
    List.all_append, List.all_append, List.all_cons, Bool.and_assoc,
    Bool.and_comm (disjunction _)]

/-- The disjuncts in the operands are beside the comparison. -/
theorem disjunction_compared (op : Comparison) (l r : List Char) :
    disjunction (compared op l r) =
      ((aside ['|', '|'] l r).any (fun part => negations (trim part)) ||
        negations (trim (compared op (lastPart ['|', '|'] l) (firstPart ['|', '|'] r)))) := by
  rw [disjunction, splitOn_compared (by decide) (by decide) (by cases op <;> rfl), aside,
    List.any_append, List.any_append, List.any_cons, Bool.or_assoc, Bool.or_comm (negations _)]

/-! ### Values in quotes -/

/-- A value as it is written in a condition. -/
def quoted (s : List Char) : List Char := '"' :: (s ++ ['"'])

/-- The quotes add no separator. -/
theorem occurs_quoted (hsep : sep ≠ []) (hquote : '"' ∉ sep) (s : List Char) :
    occurs sep (quoted s) = occurs sep s := by
  have hnil : occurs sep [] = false := List.isEmpty_eq_false_iff.mpr hsep
  rw [quoted, ← List.nil_append ('"' :: _), occurs_append_cons hsep hquote,
    occurs_append_cons hsep hquote, hnil, Bool.false_or, Bool.or_false]

/-- A text that is settled stays so when a text without groups follows. -/
theorem settle_append_right (h : settle s = some t) (hr : '(' ∉ r) :
    settle (s ++ r) = some (t ++ r) := by
  induction s generalizing t with
  | nil =>
    obtain rfl : [] = t := by simpa [settle] using h
    exact settle_of_opening_notMem hr
  | cons c s ih =>
    cases hs : settle s with
    | none => simp [settle, hs] at h
    | some u =>
      by_cases hc : c = '('
      · -- the parenthesis is closed in the first text, so the second one plays no part
        subst hc
        rw [settle_opening hs, Option.map_eq_some_iff] at h
        obtain ⟨⟨inner, after⟩, hbreak, rfl⟩ := h
        obtain ⟨rfl, hinner⟩ := breakAt_eq_some_iff.mp hbreak
        rw [List.cons_append, settle_opening (ih hs), List.append_assoc, List.cons_append,
          breakAt_append hinner]
        simp
      · rw [settle_cons hc, hs] at h
        obtain rfl : c :: u = t := by simpa using h
        rw [List.cons_append, settle_cons hc, ih hs]
        rfl

/-- The groups of a value are settled between the quotes. -/
theorem settle_quoted (s : List Char) : settle (quoted s) = (settle s).map quoted := by
  rw [quoted, settle_cons (by decide)]
  cases hs : settle s with
  | some t =>
    rw [settle_append_right hs (by decide)]
    rfl
  | none =>
    have hopen := (unclosed_append_right (b := ['"']) (by decide) (by decide)).mpr
      (settle_eq_none_iff.mp hs)
    rw [settle_eq_none_iff.mpr hopen]
    rfl

/-- Each copy of a value is settled by itself, and a parenthesis that is not closed in one is not
closed in the other. -/
theorem settle_compared (op : Comparison) (s : List Char) :
    settle (compared op (quoted s) (quoted s)) =
      (settle s).map fun t => compared op (quoted t) (quoted t) := by
  have hsymbol : '(' ∉ ' ' :: (op.symbol ++ [' ']) := by cases op <;> decide
  have hcons (l r : List Char) : compared op l r = l ++ (' ' :: (op.symbol ++ [' ']) ++ r) := by
    simp [compared]
  rw [hcons, settle_append, settle_append_left hsymbol, settle_quoted]
  cases hs : settle s with
  | none => rfl
  | some t =>
    have hquoted : settle (quoted s) = some (quoted t) := by rw [settle_quoted, hs]; rfl
    have hright : '(' ∉ ' ' :: (op.symbol ++ [' ']) ++ quoted t := by
      have hopen : '(' ∉ quoted t := (counts_of_settle hquoted).1
      rw [List.mem_append]
      exact not_or.mpr ⟨hsymbol, hopen⟩
    simp only [Option.map_some, Option.bind_some]
    rw [settle_append_right hquoted hright, hcons]

/-- Operators have some characters, and neither blanks nor quotes. -/
theorem Comparison.symbol_spec (op : Comparison) :
    op.symbol ≠ [] ∧ ' ' ∉ op.symbol ∧ '"' ∉ op.symbol := by
  cases op <;> decide

/-- An operator that occurs in the value leaves more than two operands. -/
theorem compare_of_occurs (h : occurs op.symbol s = true) (other : Comparison) :
    compare op (compared other (quoted s) (quoted s)) = false := by
  obtain ⟨hne, hblank, hquote⟩ := op.symbol_spec
  have hparts := two_le_length_splitOn ((occurs_quoted hne hquote s).trans h) hne
  have hmiddle := List.length_pos_iff.mpr (splitOn_ne_nil op.symbol other.symbol)
  have hright := length_splitOn_append_cons hne hblank other.symbol (quoted s)
  have hwhole := length_splitOn_append_cons hne hblank (quoted s) (other.symbol ++ ' ' :: quoted s)
  -- each copy of the value has two parts at least, so the whole has three
  rw [compare, compared]
  generalize splitOn op.symbol (quoted s ++ ' ' :: (other.symbol ++ ' ' :: quoted s)) = ps
    at hwhole ⊢
  split
  · simp only [List.length_cons, List.length_nil] at hwhole
    omega
  · rfl

/-- An operator that occurs in neither operand separates them. -/
theorem compare_compared (hl : occurs op.symbol l = false) (hr : occurs op.symbol r = false) :
    compare op (compared op l r) = op.holds (operand l) (operand r) := by
  obtain ⟨hne, hblank, -⟩ := op.symbol_spec
  have hsymbol : splitOn op.symbol op.symbol = [[], []] := by cases op <;> rfl
  have hparts : splitOn op.symbol (compared op l r) = [l ++ [' '], ' ' :: r] := by
    rw [compared, splitOn_append_cons hne hblank, lastPart, firstPart,
      splitOn_append_cons hne hblank, lastPart, firstPart, splitOn_of_not_occurs hl,
      splitOn_of_not_occurs hr, hsymbol]
    rfl
  have hleft : operand (l ++ [' ']) = operand l := by
    rw [operand, trim_append_right (List.forall_mem_singleton.mpr rfl), operand]
  have hright : operand (' ' :: r) = operand r := by
    rw [operand, ← List.singleton_append, trim_append_left (List.forall_mem_singleton.mpr rfl),
      operand]
  rw [compare, hparts]
  exact congrArg₂ op.holds hleft hright

/-- Otherwise the operands are the value, twice. -/
theorem compare_of_not_occurs (h : occurs op.symbol s = false) :
    compare op (compared op (quoted s) (quoted s)) =
      op.holds (operand (quoted s)) (operand (quoted s)) := by
  obtain ⟨hne, -, hquote⟩ := op.symbol_spec
  have hwhole := (occurs_quoted hne hquote s).trans h
  exact compare_compared hwhole hwhole

/-- A comparison of a value with itself is made with the first operator that occurs. The value is
equal to itself if none is found in it, and not different from itself in any case. -/
theorem atom_compared_quoted (s : List Char) :
    (atom (compared .eq (quoted s) (quoted s)) = true ↔
      ∀ op ∈ [Comparison.ge, .le, .eq], occurs op.symbol s = false) ∧
    atom (compared .ne (quoted s) (quoted s)) = false := by
  have hoccurs (op other : Comparison) : occurs op.symbol (compared other (quoted s) (quoted s)) =
      (occurs op.symbol s || occurs op.symbol other.symbol) := by
    obtain ⟨hne, hblank, hquote⟩ := op.symbol_spec
    rw [occurs_compared hne hblank, occurs_quoted hne hquote, Bool.or_comm (occurs _ other.symbol),
      ← Bool.or_assoc, Bool.or_self]
  have hsymbol : ∀ op ∈ [Comparison.ge, .le, .eq, .ne], ∀ other ∈ [Comparison.eq, .ne],
      occurs op.symbol other.symbol = decide (op = other) := by decide
  simp only [List.forall_mem_cons, List.not_mem_nil, false_implies, implies_true,
    and_true] at hsymbol ⊢
  -- in the order in which the operators are looked for: the first one that is in the value leaves
  -- too many operands, and if there is none, the operands are the value itself
  cases hge : occurs Comparison.ge.symbol s with
  | true => simp [atom, Comparison.all, hoccurs, hge, compare_of_occurs]
  | false =>
    cases hle : occurs Comparison.le.symbol s with
    | true => simp [atom, Comparison.all, hoccurs, hge, hle, hsymbol, compare_of_occurs]
    | false =>
      cases heq : occurs Comparison.eq.symbol s with
      | true => simp [atom, Comparison.all, hoccurs, hge, hle, heq, hsymbol, compare_of_occurs]
      | false =>
        cases hne : occurs Comparison.ne.symbol s <;>
          simp [atom, Comparison.all, hoccurs, hge, hle, heq, hne, hsymbol, compare_of_occurs,
            compare_of_not_occurs, Comparison.holds_self]

/-- Quotes are no blanks. -/
theorem trim_compared_quoted (op : Comparison) (s : List Char) :
    trim (compared op (quoted s) (quoted s)) = compared op (quoted s) (quoted s) := by
  have hlast : (compared op (quoted s) (quoted s)).getLast? = some '"' := by
    simp [compared, quoted, List.getLast?_append, List.getLast?_cons]
  have hquote : ∀ c ∈ some '"', isBlank c = false := by
    rintro _ ⟨⟩
    rfl
  exact trim_eq_self_iff.mpr ⟨hquote, hlast ▸ hquote⟩

/-- A value without connectives is part of nothing but the comparison. -/
theorem flat_compared_quoted (hand : occurs ['&', '&'] s = false)
    (hor : occurs ['|', '|'] s = false) (op : Comparison) :
    flat (compared op (quoted s) (quoted s)) = atom (compared op (quoted s) (quoted s)) := by
  have hwhole {sep : List Char} (hne : sep ≠ []) (hblank : ' ' ∉ sep) (hquote : '"' ∉ sep)
      (hop : occurs sep op.symbol = false) (hs : occurs sep s = false) :
      splitOn sep (compared op (quoted s) (quoted s)) = [compared op (quoted s) (quoted s)] := by
    refine splitOn_of_not_occurs ?_
    rw [occurs_compared hne hblank, occurs_quoted hne hquote, hs, hop]
    rfl
  rw [flat_eq_all, hwhole (by decide) (by decide) (by decide) (by cases op <;> rfl) hand,
    List.all_cons, List.all_nil, Bool.and_true, disjunction,
    hwhole (by decide) (by decide) (by decide) (by cases op <;> rfl) hor, List.any_cons,
    List.any_nil, Bool.or_false, trim_compared_quoted]
  rfl

/-! ### Variables that are compared with themselves -/

/-- What stands before the operator when connectives have taken a comparison apart. -/
def lastPiece (s : List Char) : List Char := lastPart ['|', '|'] (lastPart ['&', '&'] (quoted s))

/-- What stands behind the operator when connectives have taken a comparison apart. -/
def firstPiece (s : List Char) : List Char := firstPart ['|', '|'] (firstPart ['&', '&'] (quoted s))

/-- What the connectives in a value leave makes it equal to itself and not different from itself. -/
structure EqualByChance (s : List Char) : Prop where
  /-- The conjuncts beside the comparison hold. -/
  conjuncts : ∀ part ∈ aside ['&', '&'] (quoted s) (quoted s), disjunction part = true
  /-- The disjuncts beside the comparison fail. -/
  disjuncts : ∀ part ∈ aside ['|', '|'] (lastPart ['&', '&'] (quoted s))
    (firstPart ['&', '&'] (quoted s)), negations (trim part) = false
  /-- The pieces at the operator count as equal. -/
  equal : negations (trim (compared .eq (lastPiece s) (firstPiece s))) = true
  /-- The pieces at the operator do not count as different. -/
  notDifferent : negations (trim (compared .ne (lastPiece s) (firstPiece s))) = false

theorem equalByChance_iff : EqualByChance s ↔ flat (compared .eq (quoted s) (quoted s)) = true ∧
    flat (compared .ne (quoted s) (quoted s)) = false := by
  simp only [flat_compared, disjunction_compared]
  constructor
  · rintro ⟨hconjuncts, hdisjuncts, hequal, hdifferent⟩
    have hall := List.all_eq_true.mpr hconjuncts
    have hany : ((aside ['|', '|'] (lastPart ['&', '&'] (quoted s))
        (firstPart ['&', '&'] (quoted s))).any fun part => negations (trim part)) = false :=
      List.any_eq_false.mpr fun part hpart => by simp [hdisjuncts part hpart]
    rw [hall, hany]
    exact ⟨hequal, hdifferent⟩
  · rintro ⟨hequal, hdifferent⟩
    obtain ⟨hall, hequal⟩ := Bool.and_eq_true_iff.mp hequal
    rw [hall, Bool.true_and, Bool.or_eq_false_iff] at hdifferent
    rw [hdifferent.1, Bool.false_or] at hequal
    exact ⟨List.all_eq_true.mp hall, fun part hpart => by
      simpa using List.any_eq_false.mp hdifferent.1 part hpart, hequal, hdifferent.2⟩

/-- A value that survives being written in a condition: its groups can be settled, and either no
connective and none of the operators that are looked for up to the equality sign occur in what is
left, or it has a connective and is equal to itself by chance. -/
def StandsForItself (s : List Char) : Prop :=
  ∃ t, settle s = some t ∧
    ((occurs ['&', '&'] t = false ∧ occurs ['|', '|'] t = false ∧
        ∀ op ∈ [Comparison.ge, .le, .eq], occurs op.symbol t = false) ∨
      ((occurs ['&', '&'] t = true ∨ occurs ['|', '|'] t = true) ∧ EqualByChance t))

/-- A single word is substituted as a whole. -/
theorem substitute_word (hne : s ≠ []) (hword : ∀ c ∈ s, isWord c) :
    substitute vs s = substituteWord vs s := by
  suffices h : ∀ word, substituteFrom vs word s =
      if (word.reverse ++ s).isEmpty then [] else substituteWord vs (word.reverse ++ s) by
    rw [substitute, h, List.reverse_nil, List.nil_append,
      List.isEmpty_eq_false_iff.mpr hne]
    rfl
  clear hne
  induction s with
  | nil => simp [substituteFrom]
  | cons c s ih =>
    intro word
    obtain ⟨hc, hs⟩ := List.forall_mem_cons.mp hword
    rw [substituteFrom, if_pos hc, ih hs]
    simp

/-- Variables are substituted in each operand. -/
theorem substitute_compared (op : Comparison) (l r : List Char) :
    substitute vs (compared op l r) = compared op (substitute vs l) (substitute vs r) := by
  have hsymbol : substitute vs (op.symbol ++ ' ' :: r) = op.symbol ++ ' ' :: substitute vs r := by
    cases op <;> simp (disch := decide) only [Comparison.symbol, List.cons_append, List.nil_append,
      substitute_cons]
  rw [compared, substitute_append_cons (by decide), hsymbol, compared]

/-- A comparison of a variable with itself is one of its value in quotes with itself. -/
theorem evaluate_self (op : Comparison) {x e s : String} (hx : x ≠ "")
    (hword : ∀ c ∈ x.toList, isWord c) (hs : vs.get? x = some (.str s))
    (he : e.toList = compared op x.toList x.toList) :
    evaluate vs e = match settle s.toList with
      | some t => .ok (flat (compared op (quoted t) (quoted t)))
      | none => .error .unmatchedParentheses := by
  have hne : x.toList ≠ [] := by simpa using hx
  have hliteral : substitute vs x.toList = quoted s.toList := by
    rw [substitute_word hne hword, substituteWord, String.ofList_toList, hs]
    rfl
  have hblank : (trim e.toList).isEmpty = false := by
    obtain ⟨c, hc⟩ := List.exists_mem_of_ne_nil _ hne
    have hmem : c ∈ e.toList := by rw [he, compared]; exact List.mem_append_left _ hc
    refine List.isEmpty_eq_false_iff.mpr (trim_ne_nil hmem (Bool.eq_false_iff.mpr fun h => ?_))
    simpa [isWord_of_isBlank h] using hword c hc
  rw [evaluate, hblank, he, substitute_compared, hliteral, truth, trim_compared_quoted,
    settle_compared]
  cases settle s.toList <;> rfl

/-- A variable that holds a text is equal to itself and not different from itself exactly if the
text stands for itself. Quotes in the text make no difference. -/
theorem self_compared_iff {x s : String} (hx : x ≠ "") (hword : ∀ c ∈ x.toList, isWord c)
    (hs : vs.get? x = some (.str s)) :
    (evaluate vs (x ++ " == " ++ x) = .ok true ∧ evaluate vs (x ++ " != " ++ x) = .ok false) ↔
      StandsForItself s.toList := by
  have heq := evaluate_self .eq (e := x ++ " == " ++ x) hx hword hs (by
    simp [compared, Comparison.symbol])
  have hne := evaluate_self .ne (e := x ++ " != " ++ x) hx hword hs (by
    simp [compared, Comparison.symbol])
  rw [heq, hne, StandsForItself]
  cases settle s.toList with
  | none => simp
  | some t =>
    simp only [Except.ok.injEq, Option.some.injEq, exists_eq_left', ← equalByChance_iff]
    by_cases hplain : occurs ['&', '&'] t = false ∧ occurs ['|', '|'] t = false
    · obtain ⟨hand, hor⟩ := hplain
      obtain ⟨hequal, hdifferent⟩ := atom_compared_quoted t
      simp [equalByChance_iff, flat_compared_quoted, hand, hor, hequal, hdifferent]
    · have hplain' : ¬(occurs ['&', '&'] t = false ∧ occurs ['|', '|'] t = false ∧
          ∀ op ∈ [Comparison.ge, .le, .eq], occurs op.symbol t = false) :=
        fun ⟨hand, hor, _⟩ => hplain ⟨hand, hor⟩
      rw [not_and_or, Bool.not_eq_false, Bool.not_eq_false] at hplain
      simp only [hplain', false_or, hplain, true_and, equalByChance_iff]

/-- A value with groups, a connective sign that stands alone, and operators that are looked for
behind the equality sign. -/
theorem self_compared_guest :
    let vs : Variables := Variables.empty.set "guest" (.str "Dr. (May & Son) != <no one>!")
    ("guest" ≠ "" ∧ (∀ c ∈ "guest".toList, isWord c) ∧
        vs.get? "guest" = some (.str "Dr. (May & Son) != <no one>!")) ∧
      evaluate vs "guest == guest" = .ok true ∧ evaluate vs "guest != guest" = .ok false := by
  intro vs
  have hword : ∀ c ∈ "guest".toList, isWord c := List.all_eq_true.mp (by decide +kernel)
  have hstands : StandsForItself "Dr. (May & Son) != <no one>!".toList :=
    ⟨"Dr. true != <no one>!".toList, by decide +kernel, .inl (by decide +kernel)⟩
  exact ⟨⟨by decide, hword, rfl⟩, (self_compared_iff (by decide) hword rfl).mpr hstands⟩

/-- An equality sign, a parenthesis or a disjunction in the value makes a variable differ from
itself. -/
theorem not_self_compared :
    let bound (s : String) : Variables := Variables.empty.set "x" (.str s)
    evaluate (bound "a == b") "x == x" = .ok false ∧
      evaluate (bound ":(") "x == x" = .error .unmatchedParentheses ∧
      evaluate (bound "A || B") "x != x" = .ok true := by
  decide +kernel

/-- The conjunct beside the comparison holds, and so do the pieces at the operator. -/
example : StandsForItself "Tea && Tea".toList :=
  ⟨_, rfl, .inr ⟨.inl (by decide +kernel), equalByChance_iff.mpr (by decide +kernel)⟩⟩

end VisualNovel.Condition
