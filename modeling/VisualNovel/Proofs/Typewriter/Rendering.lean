import VisualNovel.Proofs.Typewriter.Progress
import VisualNovel.Text.Tag

/-!
# What a text shows while it is typed

What is not yet revealed is shown in a transparent colour, every character between tags of its own.
Once the tags are taken out, the text is the same all the time, so its layout does not shift. Three
notions of a tag meet here. The scan takes everything from an opening bracket to the next closing
one as a tag; a tag that is taken out has no further opening bracket in it; and a bracket that is
never closed is a character like any other. They agree where the scan arrives, and a typewriter stops
nowhere else.

## Main results

* `Typewriter.dropTags_tag`: a tag of the scan is taken out on its own;
* `Typewriter.dropTags_hidden`: hiding a text leaves what it shows as it is;
* `Typewriter.Arrives.dropTags_visible`: so does hiding it from where the scan arrives;
* `Typewriter.dropTags_visibleText`: typing does not shift the layout.
-/

namespace VisualNovel.Typewriter

open Text

variable {c : Char} {s v : List Char} {n : Nat}

/-! ### Tags that are taken out -/

/-- Characters that have been passed over do not matter. -/
theorem dropTagsFrom_eq (st : TagStyle) (k : Nat) (s : List Char) :
    dropTagsFrom st k s = dropTags st (s.drop k) := by
  induction k generalizing s with
  | zero => rfl
  | succ k ih =>
    cases s with
    | nil => rfl
    | cons c s => exact ih s

/-- How the end of a tag in angle brackets is looked for. -/
theorem afterTag?_cons (c : Char) (s : List Char) : afterTag? .angle (c :: s) =
    if c = '>' then some s else if c = '<' then none else afterTag? .angle s := rfl

/-- A character that opens no tag is kept. -/
theorem dropTags_cons (hc : c = '<' → afterTag? .angle s = none) :
    dropTags .angle (c :: s) = c :: dropTags .angle s := by
  rw [dropTags, dropTagsFrom]
  split
  · next hopen => rw [hc hopen]; rfl
  · rfl

/-- A tag is taken out. -/
theorem dropTags_of_afterTag? (v : List Char) (h : afterTag? .angle (v ++ s) = some s) :
    dropTags .angle ('<' :: (v ++ s)) = dropTags .angle s := by
  rw [dropTags, dropTagsFrom, if_pos (show '<' = TagStyle.angle.opening from rfl), h]
  dsimp only
  rw [dropTagsFrom_eq, List.length_append, Nat.add_sub_cancel, List.drop_left]

/-- Characters that are no opening brackets are kept. -/
theorem dropTags_append (hs : '<' ∉ s) (t : List Char) :
    dropTags .angle (s ++ t) = s ++ dropTags .angle t := by
  induction s with
  | nil => rfl
  | cons c s ih =>
    obtain ⟨hc, hs⟩ := not_or.mp (mt List.mem_cons.mpr hs)
    rw [List.cons_append, dropTags_cons fun h => absurd h.symm hc, ih hs, List.cons_append]

/-- What stands in front of the first bracket does not matter for what the bracket makes of a
tag. -/
theorem afterTag?_append (hclose : '>' ∉ s) (hopen : '<' ∉ s) (t : List Char) :
    afterTag? .angle (s ++ t) = afterTag? .angle t := by
  induction s with
  | nil => rfl
  | cons c s ih =>
    obtain ⟨hc, hclose⟩ := not_or.mp (mt List.mem_cons.mpr hclose)
    obtain ⟨hc', hopen⟩ := not_or.mp (mt List.mem_cons.mpr hopen)
    rw [List.cons_append, afterTag?_cons, if_neg (Ne.symm hc), if_neg (Ne.symm hc'),
      ih hclose hopen]

/-- A tag of the scan is taken out on its own, whatever stands behind it. -/
theorem dropTags_tag (hv : '>' ∉ v) (s : List Char) :
    dropTags .angle ('<' :: (v ++ '>' :: s)) =
      dropTags .angle ('<' :: (v ++ ['>'])) ++ dropTags .angle s := by
  -- on what stands inside: only what follows the last opening bracket in it is a tag
  induction hlen : v.length using Nat.strong_induction_on generalizing v with
  | _ k ih =>
    subst hlen
    cases hopen : breakAt '<' v with
    | none =>
      have hplain (t : List Char) : dropTags .angle ('<' :: (v ++ '>' :: t)) =
          dropTags .angle t := by
        rw [List.append_cons]
        refine dropTags_of_afterTag? (v ++ ['>']) ?_
        rw [← List.append_cons, afterTag?_append hv (breakAt_eq_none_iff.mp hopen)]
        rfl
      rw [hplain, hplain]
      rfl
    | some x =>
      obtain ⟨rfl, hfront⟩ := breakAt_eq_some_iff.mp hopen
      simp only [List.mem_append, List.mem_cons, not_or] at hv
      have hrest := ih x.2.length (by simp; omega) hv.2.2 rfl
      -- the brackets in front of the last one are kept
      have hkept (t : List Char) :
          dropTags .angle ('<' :: ((x.1 ++ '<' :: x.2) ++ '>' :: t)) =
            '<' :: (x.1 ++ dropTags .angle ('<' :: (x.2 ++ '>' :: t))) := by
        rw [List.append_assoc, List.cons_append, dropTags_cons, dropTags_append hfront]
        intro _
        rw [afterTag?_append hv.1 hfront]
        rfl
      rw [hkept, hkept, hrest]
      simp

/-! ### Characters that are hidden -/

/-- The rest of a tag is copied. -/
theorem hidden_eq (k : Nat) (s : List Char) : hidden k s = s.take k ++ hidden 0 (s.drop k) := by
  induction k generalizing s with
  | zero => simp
  | succ k ih =>
    cases s with
    | nil => simp [hidden]
    | cons c s => simp [hidden, ih s]

/-- A tag is not hidden. -/
theorem hidden_tag (hv : '>' ∉ v) (s : List Char) :
    hidden 0 ('<' :: (v ++ '>' :: s)) = '<' :: (v ++ '>' :: hidden 0 s) := by
  rw [hidden, if_pos rfl, tagLength?_eq, breakAt_append hv]
  simp only [Option.map_some]
  rw [hidden_eq, List.take_length_add_append, List.drop_length_add_append]
  simp

/-- A character that starts no tag is hidden. -/
theorem hidden_char (hc : c = '<' → '>' ∉ s) : hidden 0 (c :: s) = hide c ++ hidden 0 s := by
  rw [hidden]
  split
  · next h => rw [tagLength?_eq, breakAt_eq_none_iff.mpr (hc h)]; rfl
  · rfl

/-- What is hidden starts with a tag. -/
theorem afterTag?_hidden (s : List Char) : afterTag? .angle (hidden 0 s) = none := by
  cases s with
  | nil => rfl
  | cons c s =>
    rcases tag_or_char c s with ⟨v, rest, rfl, rfl, hv⟩ | hc
    · rw [hidden_tag hv]
      rfl
    · rw [hidden_char hc]
      rfl

/-- A bracket that is not closed in front of what is hidden opens no tag. -/
theorem afterTag?_append_hidden (hs : '>' ∉ s) (t : List Char) :
    afterTag? .angle (s ++ hidden 0 t) = none := by
  induction s with
  | nil => exact afterTag?_hidden t
  | cons c s ih =>
    obtain ⟨hc, hs⟩ := not_or.mp (mt List.mem_cons.mpr hs)
    rw [List.cons_append, afterTag?_cons, if_neg (Ne.symm hc), ih hs, ite_self]

/-- A bracket behind which none is closed opens no tag. -/
theorem afterTag?_of_notMem (hs : '>' ∉ s) : afterTag? .angle s = none := by
  simpa [hidden] using afterTag?_append_hidden hs []

/-- A hidden character is shown as the character. -/
theorem dropTags_hide (c : Char) (s : List Char) :
    dropTags .angle (hide c ++ s) = c :: dropTags .angle s := by
  have hopen (t : List Char) : dropTags .angle (hiddenOpen ++ t) = dropTags .angle t :=
    dropTags_of_afterTag? "color=#00000000>".toList rfl
  have hclose : dropTags .angle (hiddenClose ++ s) = dropTags .angle s :=
    dropTags_of_afterTag? "/color>".toList rfl
  rw [hide, List.append_assoc, hopen, List.cons_append, dropTags_cons fun _ => rfl, hclose]

/-- Hiding a text leaves what it shows as it is. -/
theorem dropTags_hidden (s : List Char) :
    dropTags .angle (hidden 0 s) = dropTags .angle s := by
  induction s using scan_induction with
  | nil => rfl
  | tag v s hv ih => rw [hidden_tag hv, dropTags_tag hv, ih, ← dropTags_tag hv]
  | char c s hc ih =>
    rw [hidden_char hc, dropTags_hide, ih, dropTags_cons fun h => afterTag?_of_notMem (hc h)]

/-- Hiding a text from where the scan arrives leaves what it shows as it is. -/
theorem Arrives.dropTags_visible (h : Arrives s n) :
    dropTags .angle (visible s n) = dropTags .angle s := by
  induction h with
  | start s => exact dropTags_hidden s
  | @tag v s n hv _ ih =>
    have hvisible : visible ('<' :: (v ++ '>' :: s)) (v.length + 2 + n) =
        '<' :: (v ++ '>' :: visible s n) := by
      rw [visible, drop_tag, show v.length + 2 + n = (v.length + (1 + n)) + 1 by omega,
        List.take_succ_cons, List.take_length_add_append, Nat.add_comm 1 n, List.take_succ_cons]
      simp [visible]
    rw [hvisible, dropTags_tag hv, ih, ← dropTags_tag hv]
  | @char c s n hc _ ih =>
    have hvisible : visible (c :: s) (n + 1) = c :: visible s n := rfl
    rw [hvisible, dropTags_cons, ih, dropTags_cons fun h => afterTag?_of_notMem (hc h)]
    -- neither the revealed part nor the hidden one closes a bracket
    exact fun h => afterTag?_append_hidden (fun hmem => hc h (List.mem_of_mem_take hmem)) _

/-- Typing does not shift the layout: whatever strokes a typewriter has taken, at whatever pace, the
text that it shows is the whole text once the tags are taken out of both. -/
theorem dropTags_visibleText (text : String) (secondsPerCharacter : Float) (ks : List Stroke) :
    dropTags .angle (typed text secondsPerCharacter ks).1.visibleText.toList =
      dropTags .angle text.toList := by
  obtain ⟨⟨htext, harrives, -⟩, -⟩ := stopped_typed text secondsPerCharacter ks
  unfold visibleText
  split
  · rw [htext]
  · rw [String.toList_ofList, htext, harrives.dropTags_visible]

end VisualNovel.Typewriter
