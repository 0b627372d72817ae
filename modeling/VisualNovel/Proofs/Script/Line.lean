import VisualNovel.Proofs.Text.Basic
import VisualNovel.Script.Line

/-!
# Comments and content lines

Two slashes start a comment unless they stand inside double quotes, that is, behind an odd number of
them. What is left of a line without its comment is trimmed and has no comment, so that reading it
once more changes nothing.

## Main definitions

* `Script.Uncommented`: a text without a comment;
* `Script.isMarker`: a line that gives a node its structure;
* `Script.IsContent`: a line as it stands in a node.

## Main results

* `Script.stripComment_eq_self_iff`: a text without a comment is left alone, any other is not;
* `Script.isContent_iff_read?`: the content lines are what is read from the lines of a text.
-/

namespace VisualNovel.Script

open Text

/-- No comment starts in a text: two slashes in a row stand behind an odd number of double
quotes. -/
def Uncommented (s : List Char) : Prop :=
  ∀ before after, s = before ++ '/' :: '/' :: after → before.count '"' % 2 = 1

/-- A beginning of a text without a comment has none. -/
theorem Uncommented.of_isPrefix {s t : List Char} (hs : Uncommented s) (h : t <+: s) :
    Uncommented t := by
  obtain ⟨rest, rfl⟩ := h
  rintro before after rfl
  exact hs before (after ++ rest) (by simp)

section Comments

variable {quoted : Bool} {s u : List Char}

/-- No comment is found if all pairs of slashes are inside quotes. A text that starts inside quotes
counts as having one quote more. -/
theorem beforeComment?_eq_none_iff :
    beforeComment? quoted s = none ↔ ∀ before after, s = before ++ '/' :: '/' :: after →
      (before.count '"' + quoted.toNat) % 2 = 1 := by
  -- by induction as slashes are looked for, at each character from the quotes before it
  fun_induction beforeComment? quoted s with
  | case1 => simp
  | case2 quoted c =>
    refine iff_of_true rfl fun before after h => ?_
    have := congrArg List.length h
    simp only [List.length_cons, List.length_nil, List.length_append] at this
    omega
  | case3 quoted c d s inside h =>
    -- a comment starts here
    simp only [Bool.and_eq_true, Bool.not_eq_true', decide_eq_true_eq] at h
    obtain ⟨⟨hinside, rfl⟩, rfl⟩ := h
    have hquoted : quoted = false := hinside
    refine iff_of_false (by simp) fun hall => ?_
    have := hall [] s rfl
    simp [hquoted] at this
  | case4 quoted c d s inside h ih =>
    rw [Option.map_eq_none_iff, ih]
    have hcount : ∀ before : List Char, ((c :: before).count '"' + quoted.toNat) % 2 =
        (before.count '"' + inside.toNat) % 2 := by
      intro before
      simp only [inside]
      split <;> cases quoted <;> grind
    constructor
    · intro hrest before after heq
      cases before with
      | nil =>
        obtain ⟨rfl, rfl, rfl⟩ : c = '/' ∧ d = '/' ∧ s = after := by simpa using heq
        have hinside : inside = quoted := rfl
        cases quoted <;> simp_all
      | cons c' before =>
        obtain ⟨rfl, hrest'⟩ := List.cons.inj heq
        rw [hcount]
        exact hrest before after hrest'
    · intro hall before after heq
      rw [← hcount]
      exact hall (c :: before) after (by rw [heq]; rfl)

/-- What stands before a comment is a beginning of the text, and no comment is found in it. -/
theorem beforeComment?_eq_some (h : beforeComment? quoted s = some u) :
    u <+: s ∧ beforeComment? quoted u = none := by
  induction s generalizing quoted u with
  | nil => cases h
  | cons c s ih =>
    cases s with
    | nil => cases h
    | cons d s =>
      simp only [beforeComment?] at h
      generalize hinside : (if c = '"' then !quoted else quoted) = inside at h
      split at h
      · cases h
        exact ⟨List.nil_prefix, rfl⟩
      · next hstart =>
        obtain ⟨v, hv, rfl⟩ := Option.map_eq_some_iff.mp h
        obtain ⟨hbegin, hnone⟩ := ih hv
        refine ⟨List.cons_prefix_cons.mpr ⟨rfl, hbegin⟩, ?_⟩
        -- if anything is left behind the character, it starts as the text goes on
        cases v with
        | nil => rfl
        | cons e v =>
          obtain ⟨rfl, -⟩ := List.cons_prefix_cons.mp hbegin
          simp only [beforeComment?, hinside, if_neg hstart, hnone, Option.map_none]

/-- The search for a comment finds nothing in exactly the texts that have none. -/
theorem uncommented_iff : Uncommented s ↔ beforeComment? false s = none := by
  simp [beforeComment?_eq_none_iff, Uncommented]

instance (s : List Char) : Decidable (Uncommented s) := decidable_of_iff _ uncommented_iff.symm

/-- A text without its comment has no comment. -/
theorem uncommented_stripComment (s : List Char) : Uncommented (stripComment s) := by
  unfold stripComment
  split
  · next u hu =>
    exact (uncommented_iff.mpr (beforeComment?_eq_some hu).2).of_isPrefix (trimRight_isPrefix _ _)
  · next hnone => exact uncommented_iff.mpr hnone

/-- Exactly a text without a comment is left as it is. -/
theorem stripComment_eq_self_iff : stripComment s = s ↔ Uncommented s := by
  constructor
  · intro h
    rw [← h]
    exact uncommented_stripComment s
  · intro h
    rw [stripComment, uncommented_iff.mp h]

/-- A trimmed text is still trimmed without its comment. -/
theorem trim_stripComment (h : trim s = s) : trim (stripComment s) = stripComment s := by
  unfold stripComment
  split
  · next u hu =>
    refine trim_trimRight fun c hc => ?_
    exact (trim_eq_self_iff.mp h).1 c (head?_of_isPrefix (beforeComment?_eq_some hu).1 hc)
  · exact h

/-- What is left without a comment is a beginning of the text. -/
theorem stripComment_isPrefix (s : List Char) : stripComment s <+: s := by
  unfold stripComment
  split
  · next u hu => exact (trimRight_isPrefix _ _).trans (beforeComment?_eq_some hu).1
  · exact List.prefix_rfl

end Comments

/-- A line that opens, continues or closes a node, a decision or a conditional. -/
def isMarker (s : List Char) : Bool :=
  endNodeMarker.isPrefixOf s || nodeMarker.isPrefixOf s || startDecisionMarker.isPrefixOf s ||
    endDecisionMarker.isPrefixOf s || s.head? = some '-' || isElseIf s || s = "else".toList ||
    s = "endif".toList || isStartIf s

/-- A line of a script as it stands among the lines of a node. -/
structure IsContent (s : List Char) : Prop where
  /-- There is something in the line. -/
  nonempty : s ≠ []
  /-- It is a single line. -/
  one_line : '\n' ∉ s
  /-- There are no blanks at its ends. -/
  trimmed : trim s = s
  /-- It has no comment. -/
  uncommented : Uncommented s
  /-- It sets no variable. -/
  no_declaration : declaration? s = none
  /-- It gives the node no structure. -/
  no_marker : isMarker s = false

instance (s : List Char) : Decidable (IsContent s) :=
  decidable_of_iff (s ≠ [] ∧ '\n' ∉ s ∧ trim s = s ∧ Uncommented s ∧ declaration? s = none ∧
    isMarker s = false)
    ⟨fun ⟨h₁, h₂, h₃, h₄, h₅, h₆⟩ => ⟨h₁, h₂, h₃, h₄, h₅, h₆⟩,
      fun ⟨h₁, h₂, h₃, h₄, h₅, h₆⟩ => ⟨h₁, h₂, h₃, h₄, h₅, h₆⟩⟩

section Reading

variable {s raw : List Char} {line : Line}

/-- Only a line that is no declaration and no marker is content, and it is kept as it is. -/
theorem classify_eq_content_iff {t : List Char} :
    Line.classify s = .content t ↔ s = t ∧ declaration? s = none ∧ isMarker s = false := by
  constructor
  · intro h
    unfold Line.classify at h
    split at h
    · cases h
    · next hnone =>
      -- of all the kinds of lines only the last one is content
      repeat' split at h
      all_goals cases h
      exact ⟨rfl, hnone, by simp only [isMarker, *, decide_false, Bool.or_self]⟩
  · rintro ⟨rfl, hnone, h⟩
    simp only [isMarker, Bool.or_eq_false_iff, decide_eq_false_iff_not] at h
    simp only [Line.classify, hnone, h, Bool.false_eq_true, if_false]

/-- What is read from a line is what is left of it without blanks and comment. -/
theorem read?_eq_some_iff :
    Line.read? raw = some line ↔
      stripComment (trim raw) ≠ [] ∧ Line.classify (stripComment (trim raw)) = line := by
  unfold Line.read?
  split
  · next h => simp [h]
  · next h => simp only [Option.some.injEq, ne_eq, show stripComment (trim raw) ≠ [] from h,
      not_false_eq_true, true_and]

/-- A trimmed line without a comment is read as it is. -/
theorem read?_of_trimmed (hne : s ≠ []) (htrim : trim s = s) (hs : Uncommented s) :
    Line.read? s = some (Line.classify s) := by
  rw [read?_eq_some_iff, htrim, stripComment_eq_self_iff.mpr hs]
  exact ⟨hne, rfl⟩

/-- Content that is read from a line is a content line. -/
theorem isContent_of_read? (hraw : '\n' ∉ raw) (h : Line.read? raw = some (.content s)) :
    IsContent s := by
  obtain ⟨hne, hclassify⟩ := read?_eq_some_iff.mp h
  obtain ⟨rfl, hdeclaration, hmarker⟩ := classify_eq_content_iff.mp hclassify
  have htrim : trim (trim raw) = trim raw := trim_trim raw
  refine ⟨hne, fun hmem => ?_, trim_stripComment htrim, uncommented_stripComment _, hdeclaration,
    hmarker⟩
  exact hraw (mem_of_mem_trim ((stripComment_isPrefix _).subset hmem))

/-- A content line is read as content. -/
theorem IsContent.read? (h : IsContent s) : Line.read? s = some (.content s) := by
  rw [read?_of_trimmed h.nonempty h.trimmed h.uncommented,
    classify_eq_content_iff.mpr ⟨rfl, h.no_declaration, h.no_marker⟩]

/-- The content lines are what is read from lines. -/
theorem isContent_iff_read? :
    IsContent s ↔ ∃ raw, '\n' ∉ raw ∧ Line.read? raw = some (.content s) :=
  ⟨fun h => ⟨s, h.one_line, h.read?⟩, fun ⟨_, hraw, h⟩ => isContent_of_read? hraw h⟩

end Reading

end VisualNovel.Script
