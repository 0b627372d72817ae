import VisualNovel.Proofs.Json.Plain
import VisualNovel.Proofs.Traversal.Stored
import VisualNovel.Save.Slot

/-!
# A slot file holds the save that was written

What is read from a slot file are the members that were written, in their order and with their
integers as they are. So the checksum is taken of the same text again, and it holds.

## Main results

* `Json.asRead_slot_traversal`: in a slot file a traversal is read as it has been written;
* `Save.check_members`: the members of a slot make the slot;
* `Save.ofText_toText`: the text of a slot file is read as the save that was written.
-/

namespace VisualNovel

namespace Json

theorem itemsAsRead_map {α : Type} {d : Dialect} {toJson : α → Json}
    (h : ∀ a, (toJson a).asRead d = toJson a) (as : List α) :
    itemsAsRead d (as.map toJson) = as.map toJson := by
  induction as with
  | nil => rfl
  | cons a as ih => rw [List.map_cons, itemsAsRead, h, ih]

theorem asRead_slot_ints (ns : List Int) : (Json.ints ns).asRead .slot = .ints ns := by
  rw [Json.ints, asRead, itemsAsRead_map fun _ => rfl]

theorem asRead_slot_strs (ss : List String) : (Json.strs ss).asRead .slot = .strs ss := by
  rw [Json.strs, asRead, itemsAsRead_map fun _ => rfl]

/-- In a slot file the integers can be read that can be written out. -/
theorem Dialect.slot_reads {v : Json} (h : v.numbers.all Number.isShort) :
    ∀ n ∈ v.numbers, Dialect.slot.Reads n := by
  intro n hn
  have hshort : Number.isShort n := List.all_eq_true.mp h n hn
  rwa [Dialect.Reads, Dialect.admits, Bool.not_true, Bool.false_or]

/-- In a slot file a traversal is read as it has been written. -/
theorem asRead_slot_traversal (t : Traversal) : t.toJson.asRead .slot = t.toJson := by
  have hint (n : Int) : (Json.int n).asRead .slot = .int n := rfl
  have hstr (s : String) : (Json.str s).asRead .slot = .str s := rfl
  have hframe (f : Frame) : f.toJson.asRead .slot = f.toJson := by
    rw [Frame.toJson, asRead_obj .slot (by simp)]
    simp [asRead_slot_ints, hint, hstr]
  have hentry (e : String × Value) :
      (Variables.entryToJson e).asRead .slot = Variables.entryToJson e := by
    have hvalue : e.2.toJson.asRead .slot = e.2.toJson := by cases e.2 <;> rfl
    rw [Variables.entryToJson, asRead_obj .slot (by simp)]
    simp [hvalue, hstr]
  have hspoken (l : Spoken) : l.toJson.asRead .slot = l.toJson := by
    rw [Spoken.toJson, asRead_obj .slot (by simp)]
    simp [hstr]
  have harr {α : Type} {toJson : α → Json} (h : ∀ a, (toJson a).asRead .slot = toJson a)
      (as : List α) : (Json.arr (as.map toJson)).asRead .slot = .arr (as.map toJson) := by
    rw [asRead, itemsAsRead_map h]
  -- no two members have one name, so each of them is read for itself
  rw [Traversal.toJson, asRead_obj .slot (by simp [Traversal.members])]
  simp [Traversal.members, asRead_slot_ints, asRead_slot_strs, hint, harr hframe, harr hentry,
    harr hspoken]

end Json

theorem Schema.saveType_stem (type : SaveType) : saveType (.str type.stem) = .valid type := by
  cases type <;> decide

namespace Save

variable {s : Save} {text : String}

theorem isExact_toJson (s : Save) : s.toJson.isExact := by
  simp [toJson, members, Json.isExact, Json.membersExact, s.traversal.isExact_toJson]

/-- The members of a slot are read as they have been written. -/
theorem membersAsRead_slot (s : Save) : Json.membersAsRead .slot s.members = s.members := by
  simp [members, Json.asRead_slot_traversal, Json.asRead, Json.Dialect.int]

/-- What a slot file holds is read as it has been written. -/
theorem asRead_slot_toJson (s : Save) : s.toJson.asRead .slot = s.toJson := by
  rw [toJson, Json.asRead_obj .slot (by simp [members, checksumName])]
  have happend (ms ns : List (String × Json)) : Json.membersAsRead .slot (ms ++ ns) =
      Json.membersAsRead .slot ms ++ Json.membersAsRead .slot ns := by
    induction ms with
    | nil => rfl
    | cons m ms ih => rw [List.cons_append, Json.membersAsRead, Json.membersAsRead, ih]; rfl
  rw [happend, membersAsRead_slot]
  rfl

/-- The members of a slot are checked one by one. -/
theorem check_members (s : Save) : Schema.save (.obj s.members) = .valid s := by
  have htraversal : Schema.traversal s.traversal.toJson = .valid s.traversal := by
    rw [← Json.asRead_slot_traversal]
    exact Schema.traversal_asRead .slot s.traversal
  have hint : Schema.int (.int s.slot) = .valid s.slot := rfl
  have hstr (t : String) : Schema.str (.str t) = .valid t := rfl
  refine Schema.model_of_members ?_ rfl
  simp only [members]
  rw [Schema.required_of_member? (by simp [Json.member?]) hint,
    Schema.required_of_member? (by simp [Json.member?]) (Schema.saveType_stem s.type),
    Schema.required_of_member? (by simp [Json.member?]) (hstr s.time),
    Schema.optional_of_member? (by simp [Json.member?]) (hstr s.thumbnail),
    Schema.required_of_member? (by simp [Json.member?]) htraversal]
  rfl

/-- Without its checksum, a slot has the members that the checksum is taken of. -/
theorem dropMember_checksum (s : Save) :
    Json.dropMember checksumName (s.members ++ [(checksumName, .str (checksum s.members))]) =
      s.members := by
  simp [Json.dropMember, members, checksumName]

/-- The text of a slot file is read from its bytes. -/
theorem decode?_of_toText (h : s.toText = .ok text) : Text.decode? text.toUTF8 = some text := by
  unfold toText at h
  split at h
  · rw [← Except.ok.inj h]
    exact Json.decode?_render s.isExact_toJson
  · cases h

/-- The text of a slot file is read as the save that was written, and its checksum holds. -/
theorem ofText_toText (h : s.toText = .ok text) (fileName : String) (checked : Bool) :
    ofText fileName checked text = .ok ⟨s, none⟩ := by
  unfold toText at h
  split at h
  · next hshort =>
    have hread : Json.read .slot text = .ok s.toJson := by
      rw [← Except.ok.inj h, Json.read_render s.isExact_toJson (Json.Dialect.slot_reads hshort),
        asRead_slot_toJson]
    have hchecksum : Json.member? checksumName (s.members ++
        [(checksumName, .str (checksum s.members))]) = some (.str (checksum s.members)) := by
      simp [Json.member?, members, checksumName]
    have hstate : Json.member? "state" s.members = some s.traversal.toJson := by
      simp [Json.member?, members]
    rw [ofText, hread, toJson]
    -- the checksum has been taken of what is left when it is dropped again
    simp only [dropMember_checksum, hchecksum, checksumHolds, check_members, hstate,
      beq_self_eq_true, Bool.or_true, Bool.not_true, Bool.and_false, Bool.false_eq_true, if_false,
      Option.bind_some, Json.broken?_of_isExact _ s.traversal.isExact_toJson]
  · cases h

end Save

end VisualNovel
