import VisualNovel.Proofs.Condition.Groups

/-!
# Conditions written as formulas

A formula that is written with a pair of parentheses around every operand has the truth of the
formula as a tree. Variables are substituted in the whole text at once; as a word ends at every
parenthesis, this is the same as to substitute them in each leaf.

## Main definitions

* `Condition.Formula`: trees over conjunction, disjunction and negation;
* `Condition.Formula.render`: a formula as the text of a condition;
* `Condition.IsAtom`: a text without parentheses and connectives.

## Main results

* `Condition.substitute_append_cons`: words end at a character that belongs to no word;
* `Condition.Formula.settle_written`: what remains of a formula once its groups are settled;
* `Condition.Formula.evaluate_render`: the truth of a formula is found from its text.
-/

namespace VisualNovel.Condition

open Text

variable {vs : Variables} {s : List Char}

/-! ### Words that are substituted -/

theorem substituteFrom_append_cons {c : Char} (hc : isWord c = false) (word s t : List Char) :
    substituteFrom vs word (s ++ c :: t) =
      substituteFrom vs word s ++ c :: substituteFrom vs [] t := by
  induction s generalizing word with
  | nil => simp [substituteFrom, hc]
  | cons d s ih =>
    simp only [List.cons_append, substituteFrom, ih]
    split <;> simp

/-- A word ends at a character that belongs to no word. -/
theorem substitute_append_cons {c : Char} (hc : isWord c = false) (s t : List Char) :
    substitute vs (s ++ c :: t) = substitute vs s ++ c :: substitute vs t :=
  substituteFrom_append_cons hc [] s t

theorem substitute_cons {c : Char} (hc : isWord c = false) (s : List Char) :
    substitute vs (c :: s) = c :: substitute vs s :=
  substitute_append_cons hc [] s

/-- A text without words is left as it is. -/
theorem substitute_of_no_words (h : ∀ c ∈ s, isWord c = false) : substitute vs s = s := by
  induction s with
  | nil => rfl
  | cons c s ih =>
    rw [substitute_cons (h c (List.mem_cons_self ..)),
      ih fun d hd => h d (List.mem_cons_of_mem _ hd)]

/-! ### Leaves -/

/-- A text without parentheses and connectives. -/
structure IsAtom (s : List Char) : Prop where
  /-- No group starts in it. -/
  opening : '(' ∉ s
  /-- No group ends in it. -/
  closing : ')' ∉ s
  /-- It is no conjunction. -/
  conjunction : occurs ['&', '&'] s = false
  /-- It is no disjunction. -/
  disjunction : occurs ['|', '|'] s = false

instance (s : List Char) : Decidable (IsAtom s) :=
  decidable_of_iff
    ('(' ∉ s ∧ ')' ∉ s ∧ occurs ['&', '&'] s = false ∧ occurs ['|', '|'] s = false)
    ⟨fun ⟨h₁, h₂, h₃, h₄⟩ => ⟨h₁, h₂, h₃, h₄⟩, fun h =>
      ⟨h.opening, h.closing, h.conjunction, h.disjunction⟩⟩

namespace IsAtom

theorem trim (h : IsAtom s) : IsAtom (trim s) where
  opening := fun hmem => h.opening (mem_of_mem_trim hmem)
  closing := fun hmem => h.closing (mem_of_mem_trim hmem)
  conjunction := not_occurs_of_isInfix h.conjunction (trim_isInfix s)
  disjunction := not_occurs_of_isInfix h.disjunction (trim_isInfix s)

/-- Without connectives there are only negations to look at. -/
theorem flat_eq (h : IsAtom s) : flat s = negations (Text.trim s) := by
  simp [flat, Condition.disjunction, splitOn_of_not_occurs h.conjunction,
    splitOn_of_not_occurs h.trim.disjunction]

/-- The truth of a leaf is found without settling anything. -/
theorem truth_eq (h : IsAtom s) : truth s = .ok (flat s) := by
  rw [truth, settle_of_opening_notMem h.trim.opening, h.flat_eq]
  exact congrArg Except.ok (by rw [h.trim.flat_eq, trim_trim])

end IsAtom

/-- The value of a leaf, be it blank or not, is the truth of what it becomes. -/
theorem evaluate_of_isAtom {a : String} (h : IsAtom (substitute vs a.toList)) :
    evaluate vs a = .ok (flat (substitute vs a.toList)) := by
  rw [evaluate]
  split
  · next hblank =>
    -- nothing is substituted in blanks, and they count as false in a formula as well
    have hblanks : ∀ c ∈ a.toList, isBlank c := by
      obtain ⟨front, back, heq, hfront, hback⟩ := exists_eq_append_trim a.toList
      rw [List.isEmpty_iff.mp hblank, List.append_nil] at heq
      rw [heq]
      simpa [or_imp, forall_and] using ⟨hfront, hback⟩
    rw [substitute_of_no_words fun c hc => isWord_of_isBlank (hblanks c hc)] at h ⊢
    rw [h.flat_eq, List.isEmpty_iff.mp hblank]
    rfl
  · exact h.truth_eq

/-! ### Formulas -/

/-- A formula over the texts of its leaves. -/
inductive Formula where
  | leaf (text : String)
  | and (l r : Formula)
  | or (l r : Formula)
  | not (t : Formula)

/-- A text in parentheses. -/
def grouped (s : List Char) : List Char := '(' :: (s ++ [')'])

namespace Formula

/-- The texts of the leaves. -/
def leaves : Formula → List String
  | leaf a => [a]
  | and l r | or l r => l.leaves ++ r.leaves
  | not t => t.leaves

/-- The truth of a formula, given the truth of its leaves. -/
def value (v : String → Bool) : Formula → Bool
  | leaf a => v a
  | and l r => l.value v && r.value v
  | or l r => l.value v || r.value v
  | not t => !t.value v

/-- A formula with every operand in parentheses, given how a leaf is written. -/
def written (f : String → List Char) : Formula → List Char
  | leaf a => f a
  | and l r => grouped (l.written f) ++ [' ', '&', '&', ' '] ++ grouped (r.written f)
  | or l r => grouped (l.written f) ++ [' ', '|', '|', ' '] ++ grouped (r.written f)
  | not t => '!' :: grouped (t.written f)

/-- A formula as the text of a condition. -/
def render (t : Formula) : String := String.ofList (t.written String.toList)

/-- What is left of a formula when its groups have been settled. -/
def settled (f : String → List Char) : Formula → List Char
  | leaf a => f a
  | and l r =>
    truthWord (flat (l.settled f)) ++ [' ', '&', '&', ' '] ++ truthWord (flat (r.settled f))
  | or l r =>
    truthWord (flat (l.settled f)) ++ [' ', '|', '|', ' '] ++ truthWord (flat (r.settled f))
  | not t => '!' :: truthWord (flat (t.settled f))

variable {f : String → List Char} {t : Formula}

/-- Variables are substituted in each leaf, as no word goes on across a parenthesis. -/
theorem substitute_written (t : Formula) :
    substitute vs (t.written f) = t.written fun a => substitute vs (f a) := by
  induction t with
  | leaf a => rfl
  | and l r ihl ihr | or l r ihl ihr =>
    simp (disch := decide) only [written, grouped, List.cons_append, List.nil_append,
      List.append_assoc, substitute_cons, substitute_append_cons, ihl, ihr]
    rfl
  | not t ih =>
    simp (disch := decide) only [written, grouped, substitute_cons, substitute_append_cons, ih]
    rfl

/-- What is left of a formula has no parentheses if its leaves have none. -/
theorem parentheses_notMem_settled (h : ∀ a ∈ t.leaves, '(' ∉ f a ∧ ')' ∉ f a) :
    '(' ∉ t.settled f ∧ ')' ∉ t.settled f := by
  have hword (b : Bool) : '(' ∉ truthWord b ∧ ')' ∉ truthWord b :=
    ⟨opening_notMem_truthWord b, closing_notMem_truthWord b⟩
  cases t with
  | leaf a => exact h a (List.mem_singleton_self a)
  | and l r | or l r => simp [settled, hword]
  | not t => simp [settled, hword]

/-- A group around a text that is settled to one without parentheses becomes a word, whatever
stands behind it. -/
theorem settle_grouped {r : List Char} (hclosed : ')' ∉ r)
    (h : ∀ rest, settle (s ++ rest) = (settle rest).map (r ++ ·)) (rest : List Char) :
    settle (grouped s ++ rest) = (settle rest).map (truthWord (flat r) ++ ·) := by
  have hcons : grouped s ++ rest = '(' :: (s ++ ')' :: rest) := by simp [grouped]
  have hrest : settle (s ++ ')' :: rest) = (settle rest).map fun u => r ++ ')' :: u := by
    rw [h, settle_cons (by decide), Option.map_map]
    rfl
  rw [hcons]
  cases hr : settle rest with
  | none => simp [settle, hrest, hr]
  | some u =>
    rw [settle_opening (t := r ++ ')' :: u) (by rw [hrest, hr]; rfl), breakAt_append hclosed]
    rfl

/-- What is settled in a formula does not depend on what stands behind it. -/
theorem settle_written (h : ∀ a ∈ t.leaves, '(' ∉ f a ∧ ')' ∉ f a) (rest : List Char) :
    settle (t.written f ++ rest) = (settle rest).map (t.settled f ++ ·) := by
  induction t generalizing rest with
  | leaf a => exact settle_append_left (h a (List.mem_singleton_self a)).1 rest
  | and l r ihl ihr | or l r ihl ihr =>
    obtain ⟨hl, hr⟩ := List.forall_mem_append.mp h
    have hleft := settle_grouped (parentheses_notMem_settled hl).2 (ihl hl)
    have hright := settle_grouped (parentheses_notMem_settled hr).2 (ihr hr)
    rw [written, List.append_assoc, List.append_assoc, hleft, settle_append_left (by decide),
      hright, Option.map_map, Option.map_map]
    simp [settled, Function.comp_def]
  | not t ih =>
    rw [written, List.cons_append, settle_cons (by decide),
      settle_grouped (parentheses_notMem_settled (t := t) h).2 (ih h), Option.map_map]
    rfl

/-- The text that is left of a formula has the truth of the formula. -/
theorem flat_settled (f : String → List Char) (t : Formula) :
    flat (t.settled f) = t.value fun a => flat (f a) := by
  have hand (a b : Bool) :
      flat (truthWord a ++ [' ', '&', '&', ' '] ++ truthWord b) = (a && b) := by
    cases a <;> cases b <;> decide +kernel
  have hor (a b : Bool) :
      flat (truthWord a ++ [' ', '|', '|', ' '] ++ truthWord b) = (a || b) := by
    cases a <;> cases b <;> decide +kernel
  have hnot (b : Bool) : flat ('!' :: truthWord b) = !b := by
    cases b <;> decide +kernel
  induction t with
  | leaf a => rfl
  | and l r ihl ihr => rw [settled, hand, ihl, ihr]; rfl
  | or l r ihl ihr => rw [settled, hor, ihl, ihr]; rfl
  | not t ih => rw [settled, hnot, ih]; rfl

/-- A formula that is no leaf starts and ends with a character that is no blank. -/
theorem trim_written (ht : ∀ a, t ≠ .leaf a) : trim (t.written f) = t.written f := by
  rw [trim_eq_self_iff]
  cases t with
  | leaf a => exact absurd rfl (ht a)
  | and l r | or l r | not t =>
    simp [written, grouped, List.getLast?_append, List.getLast?_cons]
    decide

/-- The text of a formula, in which every operand is in parentheses, has the truth of the formula
over the truth of its leaves. -/
theorem evaluate_render (vs : Variables) (t : Formula)
    (h : ∀ a ∈ t.leaves, IsAtom (substitute vs a.toList)) :
    ∃ v : String → Bool, (∀ a ∈ t.leaves, evaluate vs a = .ok (v a)) ∧
      evaluate vs t.render = .ok (t.value v) := by
  refine ⟨fun a => flat (substitute vs a.toList), fun a ha => evaluate_of_isAtom (h a ha), ?_⟩
  have hleaf : (∃ a, t = .leaf a) ∨ ∀ a, t ≠ .leaf a := by
    rw [← not_exists]
    exact em _
  rcases hleaf with ⟨a, rfl⟩ | hleaf
  · simpa [render, written, value] using evaluate_of_isAtom (h a (List.mem_singleton_self a))
  · have hne : (trim (t.written String.toList)).isEmpty = false := by
      rw [trim_written hleaf]
      cases t <;> first | exact absurd rfl (hleaf _) | rfl
    have hsettled := settle_written (f := fun a => substitute vs a.toList)
      (fun a ha => ⟨(h a ha).opening, (h a ha).closing⟩) []
    rw [List.append_nil] at hsettled
    rw [evaluate, render, String.toList_ofList, hne, substitute_written, truth,
      trim_written hleaf, hsettled]
    simp [settle, flat_settled]

/-- A variable, a negated comparison and a blank leaf. -/
theorem evaluate_render_greeting :
    let vs : Variables := Variables.empty.set "met" (.bool true) |>.set "name" (.str "Alice")
    let t := and (leaf "met") (or (not (leaf "name == Bob")) (leaf " "))
    (∀ a ∈ t.leaves, IsAtom (substitute vs a.toList)) ∧
      t.render = "(met) && ((!(name == Bob)) || ( ))" ∧ evaluate vs t.render = .ok true := by
  intro vs t
  have hatoms : ∀ a ∈ t.leaves, IsAtom (substitute vs a.toList) := by decide +kernel
  obtain ⟨v, hv, hvalue⟩ := evaluate_render vs t hatoms
  refine ⟨hatoms, by decide +kernel, ?_⟩
  -- the leaves have the values true, false and false
  have hmet : v "met" = true := by
    simpa using (hv "met" (by decide)).symm.trans (show evaluate vs "met" = .ok true by rfl)
  have hname : v "name == Bob" = false := by
    simpa using (hv "name == Bob" (by decide)).symm.trans
      (show evaluate vs "name == Bob" = .ok false by rfl)
  have hblank : v " " = false := by
    simpa using (hv " " (by decide)).symm.trans (show evaluate vs " " = .ok false by rfl)
  rw [hvalue]
  simp [t, value, hmet, hname, hblank]

end Formula

end VisualNovel.Condition
