import VisualNovel.Proofs.Number.Integer
import VisualNovel.Variable.Value

/-!
# Literals are read as the values that they write

A flag is written as a word, an integer as digits behind an optional sign, and a text between double
quotes. Which of the three a literal is can be told from it, and so can the value, unless an integer
has more digits than are read as a number: it becomes a text then.

## Main definitions

* `Value.IsLiteral`: the literals of a value;
* `Value.isOverlong`, `Value.readBack`: a literal has too many digits; what it is read as.

## Main results

* `Value.isLiteral_literal`: a value is written as one of its literals;
* `Value.ofLiteral_of_isLiteral`: what a literal is read as.
-/

namespace VisualNovel.Value

open Number Text

/-- A literal of a value: the word for a flag, decimal digits behind an optional sign for an
integer, and for a text the text between double quotes, with no double quote and no line feed in
it. -/
inductive IsLiteral : Value → List Char → Prop where
  | flag (b : Bool) : IsLiteral (.bool b) (literal (.bool b))
  | number {sign ds : List Char} (hsign : sign ∈ [[], ['+'], ['-']]) (hne : ds ≠ [])
      (hds : ∀ c ∈ ds, c.isDigit) :
      IsLiteral (.int (signed (sign = ['-']) (ofDigits (ds.map fun c => c.toNat - 48))))
        (sign ++ ds)
  | text {s : String} (hquote : '"' ∉ s.toList) (hline : '\n' ∉ s.toList) :
      IsLiteral (.str s) (literal (.str s))

/-- The literal of an integer has more digits than are read as a number. -/
def isOverlong (v : Value) (text : List Char) : Bool :=
  match v with
  | .int _ => maxDigits < text.countP Char.isDigit
  | _ => false

/-- What a literal of a value is read as: the value, or the text of a literal that is too long. -/
def readBack (v : Value) (text : List Char) : Value :=
  if v.isOverlong text then .str (String.ofList text) else v

variable {v : Value} {text sign ds : List Char}

/-- The literal of an integer is one of its literals. -/
theorem isLiteral_formatInt (n : Int) : IsLiteral (.int n) (formatInt n) := by
  have hsign : (if n < 0 then ['-'] else []) ∈ [[], ['+'], ['-']] := by split <;> simp
  have hminus : decide ((if n < 0 then ['-'] else []) = ['-']) = decide (n < 0) := by
    split <;> simp_all
  have hvalue : ofDigits ((decimal n.natAbs).map fun c => c.toNat - 48) = n.natAbs :=
    ofDigits_digits
  have hliteral := IsLiteral.number hsign decimal_ne_nil
    fun _ hc => isDigit_of_mem_decimal (n := n.natAbs) hc
  rwa [hminus, hvalue, signed_natAbs, ← formatInt_eq] at hliteral

/-- A value is written as one of its literals. -/
theorem isLiteral_literal (h : ∀ s, v = .str s → '"' ∉ s.toList ∧ '\n' ∉ s.toList) :
    v.IsLiteral v.literal := by
  cases v with
  | bool b => exact .flag b
  | int n => exact isLiteral_formatInt n
  | str s => exact .text (h s rfl).1 (h s rfl).2

section Shape

/-- The characters of a number are its sign and digits. -/
theorem mem_sign_append {c : Char} (hsign : sign ∈ [[], ['+'], ['-']]) (hds : ∀ c ∈ ds, c.isDigit)
    (hc : c ∈ sign ++ ds) : c = '+' ∨ c = '-' ∨ c.isDigit := by
  rcases List.mem_append.mp hc with hc | hc
  · exact (eq_of_mem_sign hsign hc).imp_right .inl
  · exact .inr (.inr (hds c hc))

theorem IsLiteral.ne_nil (h : v.IsLiteral text) : text ≠ [] := by
  cases h with
  | flag b => cases b <;> simp [literal]
  | number _ hne _ => simp [hne]
  | text => simp [literal]

/-- A literal is a single line. -/
theorem IsLiteral.newline_notMem (h : v.IsLiteral text) : '\n' ∉ text := by
  cases h with
  | flag b => cases b <;> decide
  | number hsign _ hds =>
    intro hmem
    have := mem_sign_append hsign hds hmem
    simp at this
  | text _ hline => simpa [literal] using hline

/-- A literal has no blanks at its ends; those of a text are inside the quotes. -/
theorem IsLiteral.trimmed (h : v.IsLiteral text) : trim text = text := by
  cases h with
  | flag b => cases b <;> decide
  | number hsign _ hds => exact trim_sign_append hsign hds
  | text =>
    refine trim_eq_self_iff.mpr ⟨fun c hc => ?_, fun c hc => ?_⟩
    · obtain rfl : '"' = c := by simpa [literal] using hc
      rfl
    · rw [literal, ← List.cons_append, List.getLast?_concat] at hc
      obtain rfl := Option.mem_some.mp hc
      rfl

end Shape

section Reading

/-- What stands between two double quotes is found. -/
theorem unquoted?_literal (s : String) : unquoted? (literal (.str s)) = some s.toList := by
  simp [unquoted?, literal]

theorem unquoted?_of_notMem (h : '"' ∉ text) : unquoted? text = none := by
  unfold unquoted?
  split
  · simp at h
  · rfl

/-- A text with a digit in it is no flag. -/
theorem readBool?_of_isDigit {c : Char} (hc : c ∈ trim text) (hdigit : c.isDigit) :
    readBool? text = none := by
  have hlower : c.toLower = c := by
    unfold Char.toLower
    split
    · next hupper =>
      -- capital letters stand behind the digits
      have hle : 65 ≤ c.toNat := UInt32.le_iff_toNat_le.mp hupper.1
      have hge : c.toNat ≤ 57 := (Char.isDigit_iff_toNat.mp hdigit).2
      omega
    · rfl
  have hmem : c ∈ foldCase (trim text) := List.mem_map.mpr ⟨c, hc, hlower⟩
  have hword : ∀ word ∈ ["true".toList, "false".toList], foldCase (trim text) ≠ word := by
    rintro word hword rfl
    have hall : ∀ word ∈ ["true".toList, "false".toList], word.all (!·.isDigit) := by decide
    have hnone := List.all_eq_true.mp (hall _ hword) c hmem
    simp [hdigit] at hnone
  simp [readBool?, hword]

/-- A literal is read as its value. Only an integer with too many digits is read as the text of the
literal. -/
theorem ofLiteral_of_isLiteral (h : v.IsLiteral text) :
    ofLiteral text = v.readBack text := by
  cases h with
  | flag b => cases b <;> rfl
  | @number sign ds hsign hne hds =>
    -- there is no quote in it, so it is no text, and a digit, so it is no flag
    have hquote : '"' ∉ sign ++ ds := fun hmem => by
      have := mem_sign_append hsign hds hmem
      simp at this
    have hbool : readBool? (sign ++ ds) = none := by
      obtain ⟨c, hc⟩ := List.exists_mem_of_ne_nil ds hne
      refine readBool?_of_isDigit (c := c) ?_ (hds c hc)
      rw [trim_sign_append hsign hds]
      exact List.mem_append_right _ hc
    have hcount : (sign ++ ds).countP Char.isDigit = ds.length := by
      have hsigns : ∀ s ∈ [[], ['+'], ['-']], s.countP Char.isDigit = 0 := by decide
      rw [List.countP_append, hsigns sign hsign, Nat.zero_add, List.countP_eq_length.mpr hds]
    rw [ofLiteral, unquoted?_of_notMem hquote, hbool, readInt?_append hsign hne hds]
    by_cases hlong : maxDigits < ds.length
    · simp [readBack, isOverlong, hcount, hlong, Nat.not_le.mpr hlong]
    · simp [readBack, isOverlong, hcount, hlong, Nat.not_lt.mp hlong]
  | text => simp [ofLiteral, unquoted?_literal, readBack, isOverlong]

end Reading

end VisualNovel.Value
