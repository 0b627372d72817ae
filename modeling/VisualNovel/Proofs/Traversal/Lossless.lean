import VisualNovel.Proofs.Json.Bounded
import VisualNovel.Proofs.Traversal.Stored

/-!
# Every traversal that is read can be stored

A text may write a traversal in many ways: members may be left out, and integers may be written as
flags, as real numbers or as texts. Whatever is accepted is a traversal that can be stored and read
again, since no way of writing an integer gets past the bound on its digits.

## Main definitions

* `Cursor.numbers`, `Traversal.numbers`: the integers of a traversal;
* `Schema.Grants`: a check accepts only values with a property.

## Main results

* `Traversal.storable_iff`: which traversals can be read again;
* `Schema.Grants.traversal`: a traversal that is accepted can be stored;
* `Traversal.read_again`: stored traversals are read as they were, and so is everything that has
  been read.
-/

namespace VisualNovel

open Json (numbers numbersOfItems numbersOfMembers Dialect)

/-- The integers of a cursor. -/
def Cursor.numbers (c : Cursor) : List Int :=
  c.line :: (c.decisions ++ c.choices ++ c.conditionals ++ c.branches)

/-- The integer that a value is, if it is one. -/
def Value.numbers : Value → List Int
  | .int n => [n]
  | _ => []

/-- The integers of a traversal: those of its cursors and its variables. -/
def Traversal.numbers (t : Traversal) : List Int :=
  t.frames.flatMap (·.suspended.numbers) ++ t.cursor.numbers ++ t.vars.flatMap (·.2.numbers)

namespace Json

theorem numbersOfItems_map {α : Type} (toJson : α → Json) (as : List α) :
    numbersOfItems (as.map toJson) = as.flatMap fun a => (toJson a).numbers := by
  induction as with
  | nil => rfl
  | cons a as ih => rw [List.map_cons, numbersOfItems, ih, List.flatMap_cons]

@[simp]
theorem numbers_ints (ns : List Int) : (Json.ints ns).numbers = ns := by
  rw [Json.ints, numbers, numbersOfItems_map]
  exact List.flatMap_singleton' ns

@[simp]
theorem numbers_strs (ss : List String) : (Json.strs ss).numbers = [] := by
  rw [Json.strs, numbers, numbersOfItems_map]
  exact List.flatMap_eq_nil_iff.mpr fun _ _ => rfl

theorem numbers_frame (f : Frame) : f.toJson.numbers = f.suspended.numbers := by
  simp [Frame.toJson, numbers, numbersOfMembers, Cursor.numbers]

theorem numbers_value (v : Value) : v.toJson.numbers = v.numbers := by
  cases v <;> rfl

/-- The integers of a stored traversal are those of the traversal. -/
theorem numbers_traversal (t : Traversal) : t.toJson.numbers = t.numbers := by
  have hframes : numbersOfItems (t.frames.map Frame.toJson) =
      t.frames.flatMap (·.suspended.numbers) := by
    rw [numbersOfItems_map]
    simp only [numbers_frame]
  have hvars : numbersOfItems (t.vars.map Variables.entryToJson) =
      t.vars.flatMap (·.2.numbers) := by
    rw [numbersOfItems_map]
    simp [Variables.entryToJson, numbers, numbersOfMembers, numbers_value]
  have htranscript : numbersOfItems (t.transcript.map Spoken.toJson) = [] := by
    rw [numbersOfItems_map]
    exact List.flatMap_eq_nil_iff.mpr fun _ _ => rfl
  simp [Traversal.toJson, Traversal.members, numbers, numbersOfMembers, Traversal.numbers,
    Cursor.numbers, hframes, hvars, htranscript]

/-- The integers of a member are among those of the object. -/
theorem numbers_subset_of_member? {name : String} {v : Json} {ms : List (String × Json)}
    (h : member? name ms = some v) : v.numbers ⊆ numbersOfMembers ms := by
  induction ms with
  | nil => cases h
  | cons m ms ih =>
    obtain ⟨k, w⟩ := m
    rw [member?] at h
    rw [numbersOfMembers]
    -- the last member of the name counts
    cases hrest : member? name ms with
    | some u =>
      rw [hrest] at h ih
      exact fun n hn => List.mem_append_right _ (ih h hn)
    | none =>
      rw [hrest] at h
      obtain ⟨-, rfl⟩ : k = name ∧ w = v := by simpa using h
      exact List.subset_append_left _ _

/-- Integers that fit into a machine word are never too long. -/
theorem Dialect.reads_of_isWordSized {d : Dialect} {n : Int} (hn : Schema.isWordSized n) :
    d.Reads n := by
  have hlt : n.natAbs < Nat.pow 2 63 := of_decide_eq_true hn
  have hlength : (Number.decimal n.natAbs).length ≤ 19 :=
    (Nat.length_toDigits_le_iff (by decide) (by decide)).mpr (hlt.trans (by decide))
  have hbound : 19 + 1 ≤ Number.maxDigits := by decide
  cases d with
  | model =>
    simp only [Dialect.Reads, Dialect.admits, decide_eq_true_eq]
    split <;> omega
  | slot =>
    simp only [Dialect.Reads, Dialect.admits, Bool.not_true, Bool.false_or, decide_eq_true_eq]
    omega

end Json

namespace Number

/-- An integer that a text writes is not too long for a stored model. -/
theorem reads_of_readBareInt {s : List Char} {n : Int} (h : readBareInt s = .ok n) :
    Dialect.model.Reads n := by
  unfold readBareInt at h
  split at h
  next negative body _ =>
  have hdigits := lt_ten_of_mem_spanDigits (s := body)
  split at h
  next ds rest hspan =>
  rw [hspan] at hdigits
  split at h
  · cases h
  · split at h
    · rw [← Except.ok.inj h]
      exact Dialect.reads_of_isWordSized (by decide)
    · cases h
  · cases h
  · -- the digits are counted before they are put together
    next hne _ _ =>
    by_cases hbound : maxDigits < ds.length + (if negative then 1 else 0)
    · rw [if_pos hbound] at h
      cases h
    · rw [if_neg hbound] at h
      split at h
      · rw [← Except.ok.inj h]
        exact Dialect.reads_signed hne hdigits (decide_eq_true (Nat.le_of_not_lt hbound))
      · cases h

theorem reads_of_readStoredInt {s : List Char} {n : Int} (h : readStoredInt s = .ok n) :
    Dialect.model.Reads n := by
  unfold readStoredInt at h
  split at h
  · split at h
    · exact reads_of_readBareInt h
    · cases h
  · exact reads_of_readBareInt h

end Number

namespace Checked

variable {α β : Type}

theorem valid_of_both {f : Checked (α → β)} {x : Checked α} {b : β} (h : both f x = valid b) :
    ∃ g a, f = valid g ∧ x = valid a ∧ g a = b := by
  unfold both at h
  split at h
  · exact ⟨_, _, rfl, rfl, valid.inj h⟩
  all_goals cases h

theorem valid_of_map {f : α → β} {x : Checked α} {b : β} (h : map f x = valid b) :
    ∃ a, x = valid a ∧ f a = b := by
  cases x with
  | valid a => exact ⟨a, rfl, valid.inj h⟩
  | invalid ps => cases h

theorem valid_of_within {name : String} {x : Checked α} {a : α} (h : x.within name = valid a) :
    x = valid a := by
  cases x with
  | valid a' => exact h
  | invalid ps => cases h

end Checked

namespace Schema

/-- A check accepts only values with a property, provided that no integer of what it looks at is too
long. -/
def Grants {α β : Type} (ns : α → List Int) (check : α → Checked β) (P : β → Prop) : Prop :=
  ∀ a b, (∀ n ∈ ns a, Dialect.model.Reads n) → check a = .valid b → P b

namespace Grants

variable {α β : Type} {check : Json → Checked α} {P : α → Prop} {Q : β → Prop}

section Combined

variable {ns : Members → List Int} {f : Members → Checked (α → β)} {x : Members → Checked α}

theorem map {g : α → β} (hg : ∀ a, P a → Q (g a)) (hx : Grants ns x P) :
    Grants ns (fun ms => g <$> x ms) Q := by
  intro ms b hns hb
  obtain ⟨a, ha, rfl⟩ := Checked.valid_of_map hb
  exact hg a (hx ms a hns ha)

theorem seq (hf : Grants ns f fun g => ∀ a, P a → Q (g a)) (hx : Grants ns x P) :
    Grants ns (fun ms => f ms <*> x ms) Q := by
  intro ms b hns hb
  obtain ⟨g, a, hg, ha, rfl⟩ := Checked.valid_of_both hb
  exact hf ms g hns hg a (hx ms a hns ha)

end Combined

theorem required {name : String} (h : Grants numbers check P) :
    Grants numbersOfMembers (Schema.required name check) P := by
  intro ms a hns ha
  rw [Schema.required] at ha
  split at ha
  · next v hv =>
    exact h v a (fun n hn => hns n (Json.numbers_subset_of_member? hv hn))
      (Checked.valid_of_within ha)
  · cases ha

theorem optional {name : String} {default : α} (hdefault : P default) (h : Grants numbers check P) :
    Grants numbersOfMembers (Schema.optional name default check) P := by
  intro ms a hns ha
  rw [Schema.optional] at ha
  split at ha
  · next v hv =>
    exact h v a (fun n hn => hns n (Json.numbers_subset_of_member? hv hn))
      (Checked.valid_of_within ha)
  · exact Checked.valid.inj ha ▸ hdefault

theorem model {names : List String} {check : Members → Checked α}
    (h : Grants numbersOfMembers check P) : Grants numbers (Schema.model names check) P := by
  intro v a hns ha
  cases v with
  | obj ms =>
    obtain ⟨g, u, hg, -, rfl⟩ := Checked.valid_of_both ha
    obtain ⟨b, hb, rfl⟩ := Checked.valid_of_map hg
    exact h ms b hns hb
  | _ => cases ha

theorem items (h : Grants numbers check P) (i : Nat) :
    Grants numbersOfItems (Schema.items check i) fun as => ∀ a ∈ as, P a := by
  intro vs
  induction vs generalizing i with
  | nil =>
    intro as _ has
    obtain rfl := Checked.valid.inj has
    simp
  | cons v vs ih =>
    intro as hns has
    obtain ⟨g, bs, hg, hbs, rfl⟩ := Checked.valid_of_both has
    obtain ⟨b, hb, rfl⟩ := Checked.valid_of_map hg
    have hfirst : P b := h v b (fun n hn => hns n (List.mem_append_left _ hn))
      (Checked.valid_of_within hb)
    have hothers := ih (i + 1) bs (fun n hn => hns n (List.mem_append_right _ hn)) hbs
    exact List.forall_mem_cons.mpr ⟨hfirst, hothers⟩

theorem list (h : Grants numbers check P) :
    Grants numbers (Schema.list check) fun as => ∀ a ∈ as, P a := by
  intro v as hns has
  cases v with
  | arr vs => exact h.items 0 vs as hns has
  | _ => cases has

/-- What is accepted from a text has the property: there, no integer is too long. -/
theorem text (h : Grants numbers check P) {s : String} {a : α}
    (ha : Schema.text check s = .valid a) : P a := by
  rw [Schema.text] at ha
  split at ha
  · next v hv => exact h v a (Json.reads_of_readModel? hv) ha
  · cases ha

/-- However an integer is written, it is not too long. -/
theorem int : Grants numbers int Dialect.model.Reads := by
  intro v n hns hn
  unfold Schema.int at hn
  -- an integer of either size, a flag, a broken text, a real number and a text
  split at hn
  · obtain rfl := Checked.valid.inj hn
    exact hns _ (List.mem_singleton_self _)
  · obtain rfl := Checked.valid.inj hn
    exact hns _ (List.mem_singleton_self _)
  · rw [← Checked.valid.inj hn]
    split <;> exact Dialect.reads_of_isWordSized (by decide)
  · cases hn
  · split at hn
    · cases hn
    · split at hn
      · split at hn
        · next hword => exact Checked.valid.inj hn ▸ Dialect.reads_of_isWordSized hword
        · cases hn
      · cases hn
  · split at hn
    · next hread => exact Checked.valid.inj hn ▸ Number.reads_of_readStoredInt hread
    all_goals cases hn
  · cases hn

theorem ints : Grants numbers ints fun ns => ∀ n ∈ ns, Dialect.model.Reads n := list int

/-- Nothing is asked of a value. -/
theorem any : Grants numbers check fun _ => True := fun _ _ _ _ => trivial

theorem value : Grants numbers value fun v => ∀ n ∈ v.numbers, Dialect.model.Reads n := by
  intro v x hns hx
  unfold Schema.value at hx
  split at hx
  · next y hy =>
    obtain rfl := Checked.valid.inj hx
    cases v with
    | int n | wide n =>
      obtain rfl := Option.some.inj hy
      exact hns
    | bool b | str s | broken points =>
      obtain rfl := Option.some.inj hy
      simp [Value.numbers]
    | null | real x | arr items | obj members => cases hy
  · cases hx

/-- A cursor is put together from a line and its open blocks. -/
theorem cursor {line decisions choices conditionals branches : Members → Checked _}
    (hline : Grants numbersOfMembers line Dialect.model.Reads)
    (hdecisions : Grants numbersOfMembers decisions fun ns => ∀ n ∈ ns, Dialect.model.Reads n)
    (hchoices : Grants numbersOfMembers choices fun ns => ∀ n ∈ ns, Dialect.model.Reads n)
    (hconditionals : Grants numbersOfMembers conditionals fun ns => ∀ n ∈ ns, Dialect.model.Reads n)
    (hbranches : Grants numbersOfMembers branches fun ns => ∀ n ∈ ns, Dialect.model.Reads n) :
    Grants numbersOfMembers (fun ms => Cursor.mk <$> line ms <*> decisions ms <*> choices ms <*>
      conditionals ms <*> branches ms) fun c => ∀ n ∈ c.numbers, Dialect.model.Reads n := by
  refine ((((map ?_ hline).seq hdecisions).seq hchoices).seq hconditionals).seq hbranches
  intro line hline decisions hdecisions choices hchoices conditionals hconditionals branches
    hbranches n hn
  simp only [Cursor.numbers, List.mem_cons, List.mem_append] at hn
  obtain rfl | ((hn | hn) | hn) | hn := hn
  · exact hline
  · exact hdecisions n hn
  · exact hchoices n hn
  · exact hconditionals n hn
  · exact hbranches n hn

theorem frame :
    Grants numbers frame fun f => ∀ n ∈ f.suspended.numbers, Dialect.model.Reads n := by
  have hzero : Dialect.model.Reads 0 := Dialect.reads_of_isWordSized (by decide)
  have hnil : ∀ n ∈ ([] : List Int), Dialect.model.Reads n := by simp
  refine model (((map ?_ (required any)).seq (optional trivial any)).seq
    (cursor (optional hzero int) (optional hnil ints) (optional hnil ints) (optional hnil ints)
      (optional hnil ints)))
  exact fun _ _ _ _ c hc => hc

theorem variable_ :
    Grants numbers variable_ fun e => ∀ n ∈ e.2.numbers, Dialect.model.Reads n :=
  model ((map (fun _ _ _ hv => hv) (required any)).seq (required value))

/-- A traversal that is accepted has no integer that is too long. -/
theorem traversal :
    Grants numbers traversal fun t => ∀ n ∈ t.numbers, Dialect.model.Reads n := by
  have hzero : Dialect.model.Reads 0 := Dialect.reads_of_isWordSized (by decide)
  have hnil : ∀ n ∈ ([] : List Int), Dialect.model.Reads n := by simp
  refine model ((((((map ?_ (optional (by simp) (list frame))).seq
    (cursor (optional hzero int) (optional hnil ints) (optional hnil ints) (optional hnil ints)
      (optional hnil ints))).seq (optional trivial any)).seq (optional trivial any)).seq
    (optional (by simp) (list variable_))).seq (optional trivial any))
  intro frames hframes c hc _ _ _ _ vars hvars _ _ n hn
  simp only [Traversal.numbers, List.mem_append, List.mem_flatMap] at hn
  obtain (⟨f, hf, hn⟩ | hn) | ⟨e, he, hn⟩ := hn
  · exact hframes f hf n hn
  · exact hc n hn
  · exact hvars e he n hn

end Grants

end Schema

namespace Traversal

/-- A traversal can be stored if the reader of stored models can read all its integers. -/
theorem storable_iff {t : Traversal} : t.Storable ↔ ∀ n ∈ t.numbers, Dialect.model.Reads n := by
  rw [Storable, Json.numbers_traversal]
  exact forall₂_congr fun n _ => Dialect.model_reads_iff.symm

/-- A traversal that has been read can be stored. -/
theorem storable_of_ofText {s : String} {t : Traversal} (h : ofText s = .valid t) : t.Storable :=
  storable_iff.mpr (Schema.Grants.traversal.text h)

/-- A stored traversal is read as it was, with every variable of its own kind, unless an integer in
it has too many digits; then it is not read at all. Whatever text has been accepted, the traversal
read from it is stored and read again without loss. -/
theorem read_again :
    (∀ t : Traversal, ofText t.toText = if t.Storable then .valid t else .fail .malformed) ∧
    ∀ (s : String) (t : Traversal), ofText s = .valid t → ofText t.toText = .valid t := by
  refine ⟨fun t => ?_, fun s t h => ofText_toText (storable_of_ofText h)⟩
  split
  · next h => exact ofText_toText h
  · next h => exact ofText_toText_of_not h

/-- A text that leaves out most members and writes an integer as a real number. -/
private def looseText : String :=
  "\x7b\"current_line\": 2.0, \"variables\": [\x7b\"name\": \"seen\", \"value\": true\x7d, \x7b\"value\": 1, \"name\": \"n\"\x7d]\x7d"

theorem read_again_loose :
    ofText looseText =
        .valid { cursor := { line := 2 }, vars := [("seen", .bool true), ("n", .int 1)] } ∧
      ofText (Traversal.toText
          { cursor := { line := 2 }, vars := [("seen", .bool true), ("n", .int 1)] }) =
        .valid { cursor := { line := 2 }, vars := [("seen", .bool true), ("n", .int 1)] } := by
  have hread : ofText looseText =
      .valid { cursor := { line := 2 }, vars := [("seen", .bool true), ("n", .int 1)] } := by
    decide +kernel
  exact ⟨hread, read_again.2 _ _ hread⟩

/-- A minus sign counts as a digit: with all 4300 digits a negative number is too long. -/
theorem exists_not_read_again : ¬∀ t : Traversal, ofText t.toText = .valid t := by
  intro hall
  have hlong : ¬Storable { vars := [("x", .int (-(10 ^ 4300 - 1)))] } := by
    intro hstorable
    have hlow : -(10 : Int) ^ 4299 < -(10 ^ 4300 - 1) := by
      refine (hstorable _ ?_).1
      rw [Json.numbers_traversal]
      exact List.mem_append_right _ (List.mem_singleton_self _)
    have hpos : (0 : Int) < 10 ^ 4299 := Int.pow_pos (by decide)
    rw [Int.pow_succ] at hlow
    generalize (10 : Int) ^ 4299 = a at hlow hpos
    omega
  have hread := hall { vars := [("x", .int (-(10 ^ 4300 - 1)))] }
  rw [ofText_toText_of_not hlong] at hread
  cases hread

end Traversal

end VisualNovel
