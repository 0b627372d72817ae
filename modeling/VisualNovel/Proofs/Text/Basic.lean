import Mathlib.Data.List.DropRight
import Mathlib.Data.List.TakeDrop
import VisualNovel.Text.Blank
import VisualNovel.Text.Line
import VisualNovel.Text.Split
import VisualNovel.Text.Word

/-!
# Trimmed texts and the lines of a text

A text is trimmed if neither end of it is a blank. A text that is put together from lines without
line feeds has these lines again.

## Main results

* `Text.trim_eq_self_iff`: what it means for a text to be trimmed;
* `Text.trim_trim`: trimming once is enough;
* `Text.newline_notMem_of_mem_lines` and `Text.lines_join`: lines have no line feed, and any texts
  without line feeds are the lines of some text.
-/

namespace VisualNovel.Text

section Trimming

variable {s t : List Char}

/-- Trimming at the right leaves a beginning. -/
theorem trimRight_isPrefix (p : Char → Bool) (s : List Char) : trimRight p s <+: s :=
  List.rdropWhile_prefix p s

/-- Trimming at the right leaves a text as it is that does not end with such a character. -/
theorem trimRight_eq_self_iff {p : Char → Bool} :
    trimRight p s = s ↔ ∀ c ∈ s.getLast?, p c = false := by
  refine (List.rdropWhile_eq_self_iff (p := p) (l := s)).trans ?_
  rcases List.eq_nil_or_concat s with rfl | ⟨init, c, rfl⟩ <;> simp

/-- Trimming at the left leaves a text as it is that does not start with such a character. -/
theorem trimLeft_eq_self_iff {p : Char → Bool} :
    trimLeft p s = s ↔ ∀ c ∈ s.head?, p c = false := by
  cases s with
  | nil => simp [trimLeft]
  | cons c s => simp [trimLeft, List.dropWhile_eq_self_iff]

/-- What is left of a text that is trimmed at the left does not start with such a character. -/
theorem head?_trimLeft (p : Char → Bool) (s : List Char) :
    ∀ c ∈ (trimLeft p s).head?, p c = false :=
  trimLeft_eq_self_iff.mp (List.dropWhile_idempotent p s)

/-- What is left of a text that is trimmed at the right does not end with such a character. -/
theorem getLast?_trimRight (p : Char → Bool) (s : List Char) :
    ∀ c ∈ (trimRight p s).getLast?, p c = false :=
  trimRight_eq_self_iff.mp (List.rdropWhile_idempotent p s)

/-- A beginning that is not empty starts as the text does. -/
theorem head?_of_isPrefix (h : s <+: t) {c : Char} (hc : c ∈ s.head?) : c ∈ t.head? := by
  obtain ⟨rest, rfl⟩ := h
  cases s with
  | nil => cases hc
  | cons d s => exact hc

/-- A text is trimmed if neither its first nor its last character is a blank. -/
theorem trim_eq_self_iff :
    trim s = s ↔ (∀ c ∈ s.head?, isBlank c = false) ∧ ∀ c ∈ s.getLast?, isBlank c = false := by
  rw [← trimLeft_eq_self_iff, ← trimRight_eq_self_iff]
  unfold trim trimBy
  constructor
  · intro h
    -- neither of the two steps can have shortened the text
    have hright : (trimRight isBlank (trimLeft isBlank s)).length ≤ (trimLeft isBlank s).length :=
      (trimRight_isPrefix _ _).length_le
    have hleft : trimLeft isBlank s = s :=
      (List.dropWhile_suffix _).eq_of_length_le (by rw [h] at hright; exact hright)
    exact ⟨hleft, by rwa [hleft] at h⟩
  · rintro ⟨hleft, hright⟩
    rw [hleft, hright]

/-- A text that is trimmed at the right only, and starts with no blank, is trimmed. -/
theorem trim_trimRight (h : ∀ c ∈ s.head?, isBlank c = false) :
    trim (trimRight isBlank s) = trimRight isBlank s :=
  trim_eq_self_iff.mpr ⟨fun c hc => h c (head?_of_isPrefix (trimRight_isPrefix _ _) hc),
    getLast?_trimRight _ _⟩

/-- Trimming once is enough. -/
@[simp]
theorem trim_trim (s : List Char) : trim (trim s) = trim s :=
  trim_trimRight (head?_trimLeft _ _)

/-- Trimming takes blanks away from both ends. -/
theorem exists_eq_append_trim (s : List Char) :
    ∃ a b, s = a ++ trim s ++ b ∧ (∀ c ∈ a, isBlank c) ∧ ∀ c ∈ b, isBlank c := by
  refine ⟨s.takeWhile isBlank, (trimLeft isBlank s).rtakeWhile isBlank, ?_,
    fun c hc => List.mem_takeWhile_imp hc, fun c hc => List.mem_rtakeWhile_imp hc⟩
  calc s = s.takeWhile isBlank ++ trimLeft isBlank s := List.takeWhile_append_dropWhile.symm
    _ = s.takeWhile isBlank ++ (trim s ++ (trimLeft isBlank s).rtakeWhile isBlank) := by
        rw [trim, trimBy, trimRight, ← List.rdropWhile, List.rdropWhile_append_rtakeWhile]
    _ = _ := (List.append_assoc ..).symm

/-- A text with a character that is no blank is not trimmed away. -/
theorem trim_ne_nil {c : Char} (hmem : c ∈ s) (hc : isBlank c = false) : trim s ≠ [] := by
  obtain ⟨a, b, hs, ha, hb⟩ := exists_eq_append_trim s
  intro hnil
  rw [hs, hnil, List.append_nil] at hmem
  rcases List.mem_append.mp hmem with h | h
  · simp [ha c h] at hc
  · simp [hb c h] at hc

/-- Blanks in front make no difference. -/
theorem trim_append_left (h : ∀ c ∈ s, isBlank c) (t : List Char) : trim (s ++ t) = trim t := by
  rw [trim, trimBy, trimLeft, List.dropWhile_append_of_pos h]
  rfl

/-- Blanks behind make no difference. -/
theorem trim_append_right (h : ∀ c ∈ t, isBlank c) (s : List Char) : trim (s ++ t) = trim s := by
  have hend (u : List Char) : trimRight isBlank (u ++ t) = trimRight isBlank u := by
    rw [trimRight, List.reverse_append, List.dropWhile_append_of_pos (by simpa using h)]
    rfl
  rw [trim, trimBy, trimLeft, List.dropWhile_append]
  split
  · next hblank =>
    -- nothing is left of either text
    have hall : t.dropWhile isBlank = [] := List.dropWhile_eq_nil_iff.mpr h
    rw [trim, trimBy, trimLeft, List.isEmpty_iff.mp hblank, hall]
  · exact hend _

/-- Trimming at the right ends at a character that is none of those to be taken away. -/
theorem trimRight_append_cons {p : Char → Bool} {c : Char} (hc : p c = false) (s t : List Char) :
    trimRight p (s ++ c :: t) = s ++ c :: trimRight p t := by
  have hrev : (s ++ c :: t).reverse = t.reverse ++ c :: s.reverse := by simp
  have hkept : (c :: s.reverse).dropWhile p = c :: s.reverse := by simp [hc]
  rw [trimRight, hrev, List.dropWhile_append, hkept, trimRight]
  split
  · next hnil => simp [List.isEmpty_iff.mp hnil]
  · simp

theorem trim_cons {c : Char} (hc : isBlank c = false) (s : List Char) :
    trim (c :: s) = c :: trimRight isBlank s := by
  have hleft : trimLeft isBlank (c :: s) = c :: s := by simp [trimLeft, hc]
  rw [trim, trimBy, hleft]
  exact trimRight_append_cons hc [] s

/-- Trimming leaves a part of a text. -/
theorem trim_isInfix (s : List Char) : trim s <:+: s :=
  (trimRight_isPrefix _ _).isInfix.trans (List.dropWhile_suffix _).isInfix

/-- Trimming adds no characters. -/
theorem mem_of_mem_trim {c : Char} (h : c ∈ trim s) : c ∈ s :=
  (trim_isInfix s).subset h

/-- What no blank at either end makes a difference to depends on the trimmed text only. -/
theorem apply_trim {α : Type*} {f : List Char → α}
    (hcons : ∀ c s, isBlank c → f (c :: s) = f s)
    (hconcat : ∀ s c, isBlank c → f (s ++ [c]) = f s) (s : List Char) : f (trim s) = f s := by
  have hleft {a : List Char} (ha : ∀ c ∈ a, isBlank c) (t : List Char) : f (a ++ t) = f t := by
    induction a with
    | nil => rfl
    | cons c a ih =>
      obtain ⟨hc, ha⟩ := List.forall_mem_cons.mp ha
      rw [List.cons_append, hcons c _ hc, ih ha]
  have hright {b : List Char} (hb : ∀ c ∈ b, isBlank c) (t : List Char) : f (t ++ b) = f t := by
    induction b generalizing t with
    | nil => rw [List.append_nil]
    | cons c b ih =>
      obtain ⟨hc, hb⟩ := List.forall_mem_cons.mp hb
      rw [List.append_cons, ih hb, hconcat _ c hc]
  obtain ⟨a, b, hs, ha, hb⟩ := exists_eq_append_trim s
  conv_rhs => rw [hs, List.append_assoc, hleft ha, hright hb]

end Trimming

section Words

/-- The code points of the blanks. -/
def blanks : List Nat :=
  List.range' 9 5 ++ List.range' 28 5 ++ [0x85, 0xA0, 0x1680] ++ List.range' 0x2000 11 ++
    [0x2028, 0x2029, 0x202F, 0x205F, 0x3000]

theorem toNat_mem_blanks {c : Char} (h : isBlank c) : c.toNat ∈ blanks := by
  simp [isBlank, isSpace] at h
  simp [blanks]
  omega

/-- A blank belongs to no word. -/
theorem isWord_of_isBlank {c : Char} (h : isBlank c) : isWord c = false := by
  have hall : ∀ n ∈ blanks, isWord (Char.ofNat n) = false := by decide +kernel
  rw [← Char.ofNat_toNat c]
  exact hall _ (toNat_mem_blanks h)

/-- The characters of a word are no blanks. -/
theorem isBlank_of_isWord {c : Char} (h : isWord c) : isBlank c = false :=
  Bool.eq_false_iff.mpr fun hblank => by simp [isWord_of_isBlank hblank] at h

/-- Decimal digits belong to words. -/
theorem isWord_of_isDigit {c : Char} (h : c.isDigit) : isWord c := by
  simp [isWord, Char.isAlphanum, h]

/-- A word ends at a character that belongs to no word. -/
theorem spanWord_append_cons {c : Char} {s : List Char} (hs : ∀ d ∈ s, isWord d)
    (hc : isWord c = false) (rest : List Char) :
    spanWord (s ++ c :: rest) = (s, c :: rest) := by
  rw [spanWord, List.span_eq_takeWhile_dropWhile, List.takeWhile_append_of_pos hs,
    List.dropWhile_append_of_pos hs]
  simp [hc]

end Words

section Lines

/-- A text without line feeds is a single line. -/
theorem lines_of_newline_notMem {l : List Char} (h : '\n' ∉ l) : lines l = [l] := by
  induction l with
  | nil => rfl
  | cons c l ih =>
    obtain ⟨hc, hl⟩ := not_or.mp (mt List.mem_cons.mpr h)
    simp [lines, ih hl, Ne.symm hc]

/-- A line feed ends the first line. -/
theorem lines_append_newline {l : List Char} (h : '\n' ∉ l) (rest : List Char) :
    lines (l ++ '\n' :: rest) = l :: lines rest := by
  induction l with
  | nil => simp [lines]
  | cons c l ih =>
    obtain ⟨hc, hl⟩ := not_or.mp (mt List.mem_cons.mpr h)
    simp [lines, ih hl, Ne.symm hc]

/-- A text has a line. -/
theorem lines_ne_nil (s : List Char) : lines s ≠ [] := by
  cases s with
  | nil => simp [lines]
  | cons c s =>
    rw [lines]
    split
    · simp
    · split <;> simp

/-- The lines of two texts that stand one below the other are those of both. -/
theorem lines_append_newline_append (s t : List Char) :
    lines (s ++ '\n' :: t) = lines s ++ lines t := by
  induction s with
  | nil => simp [lines]
  | cons c s ih =>
    rw [List.cons_append, lines, lines, ih]
    split
    · rfl
    · cases hs : lines s with
      | nil => exact absurd hs (lines_ne_nil s)
      | cons l ls => rfl

/-- A line has no line feed. -/
theorem newline_notMem_of_mem_lines {s l : List Char} (h : l ∈ lines s) : '\n' ∉ l := by
  induction s generalizing l with
  | nil =>
    obtain rfl : l = [] := by simpa [lines] using h
    simp
  | cons c s ih =>
    rw [lines] at h
    split at h
    · rcases List.mem_cons.mp h with rfl | h
      · simp
      · exact ih h
    · next hc =>
      split at h
      · obtain rfl : l = [c] := by simpa using h
        simpa using Ne.symm hc
      · next first others heq =>
        rw [heq] at ih
        rcases List.mem_cons.mp h with rfl | h
        · simpa [Ne.symm hc] using ih (List.mem_cons_self ..)
        · exact ih (List.mem_cons_of_mem _ h)

/-- Texts without line feeds are the lines of the text that has them one below the other. -/
theorem lines_join {ls : List (List Char)} (hne : ls ≠ []) (h : ∀ l ∈ ls, '\n' ∉ l) :
    lines (join ['\n'] ls) = ls := by
  induction ls with
  | nil => exact absurd rfl hne
  | cons l ls ih =>
    have hl := h l (List.mem_cons_self ..)
    cases ls with
    | nil => exact lines_of_newline_notMem hl
    | cons m ls =>
      have hrest := ih (by simp) fun l hl => h l (List.mem_cons_of_mem _ hl)
      simp only [join, List.append_assoc, List.singleton_append]
      rw [lines_append_newline hl, hrest]

end Lines

end VisualNovel.Text
