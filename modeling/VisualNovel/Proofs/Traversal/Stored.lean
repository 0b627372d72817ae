import Mathlib.Order.Lattice
import VisualNovel.Proofs.Json.Reading
import VisualNovel.Traversal.Stored

/-!
# Stored traversals are read as they have been written

A traversal is stored as text and read from it again. Nothing is lost on the way: numbers, flags and
texts stay apart, and every list keeps its order. The only thing that can go wrong is an integer
with too many digits.

## Main definitions

* `Traversal.Storable`: no integer is too long.

## Main results

* `Traversal.ofText_toText`: what has been stored is read again;
* `Traversal.ofText_toText_of_not`: a traversal with an integer that is too long is not read.
-/

namespace VisualNovel

open Json (asRead itemsAsRead membersAsRead)

namespace Schema

variable {α : Type} {check : Json → Checked α} {d : Json.Dialect}

@[simp]
theorem membersAsRead_cons (name : String) (v : Json) (ms : Members) :
    membersAsRead d ((name, v) :: ms) = (name, v.asRead d) :: membersAsRead d ms := rfl

@[simp]
theorem membersAsRead_nil : membersAsRead d [] = [] := rfl

/-- A member that is present is checked. -/
theorem required_of_member? {name : String} {ms : Members} {v : Json}
    (hv : Json.member? name ms = some v) {a : α} (ha : check v = .valid a) :
    required name check ms = .valid a := by
  rw [required, hv]
  simp only [ha]
  rfl

/-- A member with a default that is present is checked. -/
theorem optional_of_member? {name : String} {default : α} {ms : Members} {v : Json}
    (hv : Json.member? name ms = some v) {a : α} (ha : check v = .valid a) :
    optional name default check ms = .valid a := by
  rw [optional, hv]
  simp only [ha]
  rfl

/-- A model without further members is valid if its members are. -/
theorem model_of_members {names : List String} {check : Members → Checked α} {ms : Members} {a : α}
    (ha : check ms = .valid a) (hnames : ms.map Prod.fst = names) :
    model names check (.obj ms) = .valid a := by
  have hclosed : closed names ms = .valid () := by
    have hnone : (ms.filter fun m => !names.contains m.1) = [] := by
      rw [List.filter_eq_nil_iff]
      intro m hm
      have hmem : m.1 ∈ names := hnames ▸ List.mem_map_of_mem hm
      simpa using hmem
    rw [closed, hnone]
  simp only [model, ha, hclosed]
  rfl

variable (d)

/-- An integer is an integer, wide or not. -/
theorem int_asRead (n : Int) : int (asRead d (.int n)) = .valid n := by
  rw [asRead]
  unfold Json.Dialect.int
  split
  · split <;> rfl
  · rfl

theorem str_asRead (s : String) : str (asRead d (.str s)) = .valid s := rfl

/-- The items of a list are checked one by one. -/
theorem list_asRead {toJson : α → Json} (h : ∀ a, check ((toJson a).asRead d) = .valid a)
    (as : List α) : list check (asRead d (.arr (as.map toJson))) = .valid as := by
  have hitems (i : Nat) : items check i (itemsAsRead d (as.map toJson)) = .valid as := by
    induction as generalizing i with
    | nil => rfl
    | cons a as ih =>
      simp only [List.map_cons, itemsAsRead, items, h, ih]
      rfl
  exact hitems 0

theorem ints_asRead (ns : List Int) : ints (asRead d (.ints ns)) = .valid ns :=
  list_asRead d (int_asRead d) ns

theorem strs_asRead (ss : List String) : strs (asRead d (.strs ss)) = .valid ss :=
  list_asRead d (str_asRead d) ss

theorem value_asRead (v : Value) : value (asRead d v.toJson) = .valid v := by
  cases v with
  | bool b => rfl
  | int n =>
    rw [Value.toJson, asRead]
    unfold Json.Dialect.int
    split
    · split <;> rfl
    · rfl
  | str s => rfl

theorem variable_asRead (e : String × Value) :
    variable_ (asRead d (Variables.entryToJson e)) = .valid e := by
  rw [Variables.entryToJson, Json.asRead_obj d (by simp)]
  refine model_of_members ?_ rfl
  simp only [membersAsRead_cons, membersAsRead_nil]
  rw [required_of_member? (by simp [Json.member?]) (str_asRead d e.1),
    required_of_member? (by simp [Json.member?]) (value_asRead d e.2)]
  rfl

theorem spoken_asRead (l : Spoken) : spoken (asRead d l.toJson) = .valid l := by
  rw [Spoken.toJson, Json.asRead_obj d (by simp)]
  refine model_of_members ?_ rfl
  simp only [membersAsRead_cons, membersAsRead_nil]
  rw [optional_of_member? (by simp [Json.member?]) (str_asRead d l.speaker),
    optional_of_member? (by simp [Json.member?]) (str_asRead d l.text)]
  rfl

theorem frame_asRead (f : Frame) : frame (asRead d f.toJson) = .valid f := by
  rw [Frame.toJson, Json.asRead_obj d (by simp)]
  refine model_of_members ?_ rfl
  simp only [membersAsRead_cons, membersAsRead_nil]
  rw [required_of_member? (by simp [Json.member?]) (str_asRead d f.node),
    optional_of_member? (by simp [Json.member?]) (str_asRead d f.context),
    optional_of_member? (by simp [Json.member?]) (int_asRead d f.suspended.line),
    optional_of_member? (by simp [Json.member?]) (ints_asRead d f.suspended.decisions),
    optional_of_member? (by simp [Json.member?]) (ints_asRead d f.suspended.choices),
    optional_of_member? (by simp [Json.member?]) (ints_asRead d f.suspended.conditionals),
    optional_of_member? (by simp [Json.member?]) (ints_asRead d f.suspended.branches)]
  rfl

theorem traversal_asRead (t : Traversal) : traversal (asRead d t.toJson) = .valid t := by
  rw [Traversal.toJson, Json.asRead_obj d (by simp [Traversal.members])]
  refine model_of_members ?_ rfl
  simp only [Traversal.members, membersAsRead_cons, membersAsRead_nil]
  rw [optional_of_member? (by simp [Json.member?]) (list_asRead d (frame_asRead d) t.frames),
    optional_of_member? (by simp [Json.member?]) (int_asRead d t.cursor.line),
    optional_of_member? (by simp [Json.member?]) (ints_asRead d t.cursor.decisions),
    optional_of_member? (by simp [Json.member?]) (ints_asRead d t.cursor.choices),
    optional_of_member? (by simp [Json.member?]) (ints_asRead d t.cursor.conditionals),
    optional_of_member? (by simp [Json.member?]) (ints_asRead d t.cursor.branches),
    optional_of_member? (by simp [Json.member?]) (strs_asRead d t.history),
    optional_of_member? (by simp [Json.member?]) (strs_asRead d t.completed),
    optional_of_member? (by simp [Json.member?]) (list_asRead d (variable_asRead d) t.vars),
    optional_of_member? (by simp [Json.member?]) (list_asRead d (spoken_asRead d) t.transcript)]
  rfl

end Schema

namespace Json

theorem itemsExact_map {α : Type} {toJson : α → Json} (h : ∀ a, (toJson a).isExact) (as : List α) :
    itemsExact (as.map toJson) := by
  induction as with
  | nil => rfl
  | cons a as ih => simp [itemsExact, h a, ih]

theorem depthItems_le {α : Type} {toJson : α → Json} {k : Nat}
    (h : ∀ a, ((toJson a).asRead .model).depth ≤ k) (as : List α) :
    depthItems (itemsAsRead .model (as.map toJson)) ≤ k := by
  induction as with
  | nil => exact Nat.zero_le k
  | cons a as ih => exact max_le (h a) ih

theorem depth_arr_le (items : List Json) : depth (.arr items) ≤ depthItems items + 1 := by
  cases items with
  | nil => exact Nat.zero_le _
  | cons v vs => exact le_rfl

theorem depth_obj_le (members : List (String × Json)) :
    depth (.obj members) ≤ depthMembers members + 1 := by
  cases members with
  | nil => exact Nat.zero_le _
  | cons m ms => exact le_rfl

theorem depth_arr_asRead_le {α : Type} {toJson : α → Json} {k : Nat}
    (h : ∀ a, ((toJson a).asRead .model).depth ≤ k) (as : List α) :
    ((Json.arr (as.map toJson)).asRead .model).depth ≤ k + 1 :=
  (depth_arr_le _).trans (Nat.succ_le_succ (depthItems_le h as))

theorem depth_int_asRead (n : Int) : ((Json.int n).asRead .model).depth = 0 := by
  simp only [asRead, Dialect.int]
  split <;> rfl

theorem depth_ints_asRead_le (ns : List Int) : ((Json.ints ns).asRead .model).depth ≤ 1 :=
  depth_arr_asRead_le (fun n => (depth_int_asRead n).le) ns

theorem depth_strs_asRead_le (ss : List String) : ((Json.strs ss).asRead .model).depth ≤ 1 :=
  depth_arr_asRead_le (fun s => show ((Json.str s).asRead .model).depth ≤ 0 from le_rfl) ss

end Json

namespace Traversal

theorem isExact_toJson (t : Traversal) : t.toJson.isExact := by
  have hints (ns : List Int) : (Json.ints ns).isExact := Json.itemsExact_map (fun _ => rfl) ns
  have hstrs (ss : List String) : (Json.strs ss).isExact := Json.itemsExact_map (fun _ => rfl) ss
  have hframe (f : Frame) : f.toJson.isExact := by
    simp [Frame.toJson, Json.isExact, Json.membersExact, hints]
  have hvalue (v : Value) : v.toJson.isExact := by cases v <;> rfl
  have hentry (e : String × Value) : (Variables.entryToJson e).isExact := by
    simp [Variables.entryToJson, Json.isExact, Json.membersExact, hvalue]
  have hspoken (l : Spoken) : l.toJson.isExact := rfl
  simp [toJson, members, Json.isExact, Json.membersExact, hints, hstrs,
    Json.itemsExact_map hframe, Json.itemsExact_map hentry, Json.itemsExact_map hspoken]

theorem depth_asRead_le (t : Traversal) : (t.toJson.asRead .model).depth ≤ 4 := by
  have hint (n : Int) (k : Nat) : ((Json.int n).asRead .model).depth ≤ k := by
    rw [Json.depth_int_asRead]
    exact Nat.zero_le k
  have hints (ns : List Int) (k : Nat) : ((Json.ints ns).asRead .model).depth ≤ k + 1 :=
    (Json.depth_ints_asRead_le ns).trans (by omega)
  have hstrs (ss : List String) (k : Nat) : ((Json.strs ss).asRead .model).depth ≤ k + 1 :=
    (Json.depth_strs_asRead_le ss).trans (by omega)
  have hstr (s : String) (k : Nat) : ((Json.str s).asRead .model).depth ≤ k := Nat.zero_le k
  have hframe (f : Frame) : (f.toJson.asRead .model).depth ≤ 2 := by
    refine (Json.depth_obj_le _).trans (Nat.succ_le_succ ?_)
    simp [Json.membersAsRead, Json.depthMembers, hint, hints _ 0, hstr]
  have hentry (e : String × Value) : ((Variables.entryToJson e).asRead .model).depth ≤ 1 := by
    refine (Json.depth_obj_le _).trans (Nat.succ_le_succ ?_)
    simp only [Json.membersAsRead, Json.depthMembers]
    cases e.2 with
    | bool b => exact Nat.le_refl 0
    | int n => exact max_le (hstr e.1 0) (max_le (hint n 0) le_rfl)
    | str s => exact Nat.le_refl 0
  have hspoken (l : Spoken) : (l.toJson.asRead .model).depth ≤ 1 := le_rfl
  -- the frames are nested deepest: lists of numbers in objects in a list
  refine (Json.depth_obj_le _).trans (Nat.succ_le_succ ?_)
  simp only [members, Json.membersAsRead, Json.depthMembers, Nat.max_le]
  refine ⟨Json.depth_arr_asRead_le hframe _, hint _ 3, hints _ 2, hints _ 2, hints _ 2, hints _ 2,
    hstrs _ 2, hstrs _ 2, ?_, ?_, Nat.zero_le 3⟩
  · exact (Json.depth_arr_asRead_le hentry _).trans (by decide)
  · exact (Json.depth_arr_asRead_le hspoken _).trans (by decide)

/-- No integer of the traversal is too long to be read again after it has been stored: it has so few
digits, the minus sign counted. -/
def Storable (t : Traversal) : Prop :=
  ∀ n ∈ t.toJson.numbers,
    -(10 : Int) ^ (Number.maxDigits - 1) < n ∧ n < 10 ^ Number.maxDigits

instance (t : Traversal) : Decidable t.Storable :=
  inferInstanceAs (Decidable (∀ n ∈ t.toJson.numbers, _ ∧ _))

/-- A stored traversal is read as it was. -/
theorem ofText_toText {t : Traversal} (h : t.Storable) : ofText t.toText = .valid t := by
  have hmodel : Json.readModel? t.toText = some (t.toJson.asRead .model) :=
    Json.readModel?_render t.isExact_toJson
      (fun n hn => Json.Dialect.model_reads_iff.mpr (h n hn))
      (t.depth_asRead_le.trans (by decide))
  rw [ofText, Schema.text, hmodel]
  exact Schema.traversal_asRead .model t

/-- A traversal with an integer that is too long cannot be read. -/
theorem ofText_toText_of_not {t : Traversal} (h : ¬t.Storable) :
    ofText t.toText = .fail .malformed := by
  have hlong : ∃ n ∈ t.toJson.numbers, ¬Json.Dialect.model.Reads n := by
    by_contra hnone
    refine h fun n hn => ?_
    by_contra hnot
    exact hnone ⟨n, hn, fun hreads => hnot (Json.Dialect.model_reads_iff.mp hreads)⟩
  obtain ⟨n, hn, hnot⟩ := hlong
  obtain ⟨k, hread⟩ : ∃ k, Json.read .model t.toText = .error (.oversized k) :=
    Json.read_render_error t.isExact_toJson hn hnot
  rw [ofText, Schema.text, Json.readModel?, hread]
  rfl

end Traversal

end VisualNovel
