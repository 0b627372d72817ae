import VisualNovel.Proofs.Json.Reading
import VisualNovel.Text.Line

/-!
# Printed values are plain text

Reading a file as text changes its carriage returns. None is printed, since those in strings are
escaped, so a printed value is read from the bytes of its text.

## Main results

* `Text.decode?_toUTF8`: a text without carriage returns is read from its bytes;
* `Json.decode?_render`: so is a printed value.
-/

namespace VisualNovel

namespace Text

/-- Without carriage returns, line ends are as they should be. -/
theorem unifyNewlines_of_notMem {s : List Char} (h : '\r' ∉ s) : unifyNewlines s = s := by
  induction s with
  | nil => rfl
  | cons c s ih =>
    rw [List.mem_cons, not_or] at h
    have hc : c ≠ '\r' := Ne.symm h.1
    rw [unifyNewlines, if_neg hc, ih h.2]
    -- the other equation is about a carriage return in front
    rintro s' rfl
    exact absurd rfl hc

/-- A text without carriage returns is read from its bytes. -/
theorem decode?_toUTF8 {s : String} (h : '\r' ∉ s.toList) : decode? s.toUTF8 = some s := by
  have hvalid : s.toUTF8.IsValidUTF8 := s.isValidUTF8
  have hbytes : String.fromUTF8? s.toUTF8 = some s := by
    rw [String.fromUTF8?, dif_pos hvalid]
    rfl
  rw [decode?, hbytes, Option.map_some, unifyNewlines_of_notMem h, String.ofList_toList]

end Text

namespace Json

variable {st : Style}

theorem cr_notMem_escapeUnit (n : Nat) : '\r' ∉ escapeUnit n := by
  have hdigit : ∀ d < 16, '\r' ≠ Text.hexDigit d := by decide
  have hhex (k n : Nat) : '\r' ∉ Text.hex k n := by
    induction k generalizing n with
    | zero => simp [Text.hex]
    | succ k ih =>
      rw [Text.hex, List.mem_append, not_or]
      exact ⟨ih _, by simpa using hdigit (n % 16) (Nat.mod_lt _ (by decide))⟩
  simp [escapeUnit, hhex]

/-- A carriage return in a text is escaped. -/
theorem cr_notMem_escape (asciiOnly : Bool) (s : List Char) : '\r' ∉ escape asciiOnly s := by
  rw [escape, List.mem_flatMap]
  rintro ⟨c, -, hc⟩
  unfold escapeChar at hc
  -- seven characters have an escape of their own, and the carriage return is one of them
  iterate 7
    split at hc
    · simp at hc
  split at hc
  · exact cr_notMem_escapeUnit _ hc
  · split at hc
    · unfold escapePoint at hc
      split at hc
      · exact cr_notMem_escapeUnit _ hc
      · exact (List.mem_append.mp hc).elim (cr_notMem_escapeUnit _) (cr_notMem_escapeUnit _)
    · next hcr _ _ _ =>
      exact hcr (List.mem_singleton.mp hc).symm

theorem cr_notMem_printString (asciiOnly : Bool) (s : String) :
    '\r' ∉ printString asciiOnly s := by
  simp [printString, cr_notMem_escape]

theorem cr_notMem_formatInt (n : Int) : '\r' ∉ Number.formatInt n := by
  have hdecimal (k : Nat) : '\r' ∉ Number.decimal k := fun hcr =>
    absurd (Number.isDigit_of_mem_decimal hcr) (by decide)
  cases n with
  | ofNat k => exact hdecimal k
  | negSucc k => simpa [Number.formatInt] using hdecimal (k + 1)

theorem cr_notMem_newline (level : Nat) : '\r' ∉ st.newline level := by
  unfold Style.newline
  split
  · simp
  · simp [List.mem_replicate]

theorem cr_notMem_colon : '\r' ∉ st.colon := by
  unfold Style.colon
  split <;> simp

mutual
/-- No carriage return is printed. -/
theorem cr_notMem_print : ∀ (v : Json) (level : Nat), v.isExact → '\r' ∉ print st level v
  | .null, _, _ => by simp [print]
  | .bool b, _, _ => by cases b <;> simp [print]
  | .int n, _, _ => cr_notMem_formatInt n
  | .wide n, _, _ => cr_notMem_formatInt n
  | .real _, _, hv => by cases hv
  | .broken _, _, hv => by cases hv
  | .str s, _, _ => cr_notMem_printString _ s
  | .arr [], _, _ => by simp [print]
  | .arr (v :: vs), level, hv => by
    obtain ⟨hv, hvs⟩ := Bool.and_eq_true_iff.mp hv
    simp [print, cr_notMem_newline, cr_notMem_print v _ hv, cr_notMem_printItems vs _ hvs]
  | .obj [], _, _ => by simp [print]
  | .obj ((k, v) :: ms), level, hv => by
    obtain ⟨hv, hms⟩ := Bool.and_eq_true_iff.mp hv
    simp [print, cr_notMem_newline, cr_notMem_printString, cr_notMem_colon,
      cr_notMem_print v _ hv, cr_notMem_printMembers ms _ hms]
/-- None is printed in items. -/
theorem cr_notMem_printItems :
    ∀ (vs : List Json) (level : Nat), itemsExact vs → '\r' ∉ printItems st level vs
  | [], _, _ => by simp [printItems]
  | v :: vs, level, hv => by
    obtain ⟨hv, hvs⟩ := Bool.and_eq_true_iff.mp hv
    simp [printItems, cr_notMem_newline, cr_notMem_print v _ hv, cr_notMem_printItems vs _ hvs]
/-- None is printed in members. -/
theorem cr_notMem_printMembers :
    ∀ (ms : List (String × Json)) (level : Nat), membersExact ms → '\r' ∉ printMembers st level ms
  | [], _, _ => by simp [printMembers]
  | (k, v) :: ms, level, hv => by
    obtain ⟨hv, hms⟩ := Bool.and_eq_true_iff.mp hv
    simp [printMembers, cr_notMem_newline, cr_notMem_printString, cr_notMem_colon,
      cr_notMem_print v _ hv, cr_notMem_printMembers ms _ hms]
end

/-- A printed value is read from the bytes of its text. -/
theorem decode?_render {v : Json} (hv : v.isExact) :
    Text.decode? (v.render st).toUTF8 = some (v.render st) := by
  refine Text.decode?_toUTF8 ?_
  rw [show (v.render st).toList = print st 0 v by simp [render]]
  exact cr_notMem_print v 0 hv

mutual
/-- All strings are texts. -/
theorem broken?_of_isExact : ∀ v : Json, v.isExact → v.broken? = none
  | .null, _ | .bool _, _ | .int _, _ | .wide _, _ | .str _, _ => rfl
  | .real _, hv => by cases hv
  | .broken _, hv => by cases hv
  | .arr items, hv => brokenItem?_of_itemsExact items hv
  | .obj members, hv => brokenMember?_of_membersExact members hv
theorem brokenItem?_of_itemsExact : ∀ vs : List Json, itemsExact vs → brokenItem? vs = none
  | [], _ => rfl
  | v :: vs, hv => by
    obtain ⟨hv, hvs⟩ := Bool.and_eq_true_iff.mp hv
    rw [brokenItem?, broken?_of_isExact v hv, brokenItem?_of_itemsExact vs hvs]
    rfl
theorem brokenMember?_of_membersExact :
    ∀ ms : List (String × Json), membersExact ms → brokenMember? ms = none
  | [], _ => rfl
  | (k, v) :: ms, hv => by
    obtain ⟨hv, hms⟩ := Bool.and_eq_true_iff.mp hv
    rw [brokenMember?, broken?_of_isExact v hv, brokenMember?_of_membersExact ms hms]
    rfl
end

end Json

end VisualNovel
