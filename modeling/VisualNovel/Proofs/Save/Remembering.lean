import Mathlib.Data.List.Nodup
import Mathlib.Data.List.Perm.Subperm
import VisualNovel.Proofs.Files.Model
import VisualNovel.Proofs.Save.Rotating

/-!
# The memory of the last automatic slot

The file that remembers the last automatic slot is read and, if it has to be, repaired at every
automatic save, and written after a save that has succeeded. Once it can be read or made at all, it
can always be, since what is written to it can be read again. So the memory goes one slot on with
every save, and a save of which nothing comes is tried again in the same slot.

A session that can be read again is saved if no folder is in the way.

## Main definitions

* `Rotation.turn`: the automatic slots in the order in which they are written next;
* `SaveFolder.Remembers`: what is remembered can be read;
* `SaveFolder.Unobstructed`: no folder is where the automatic slots go.

## Main results

* `Rotation.lossless`: a memory is read as it has been written;
* `Act.autoSave_turns`: what an automatic save makes of the memory;
* `Act.autoSave_writes`: when automatic saves succeed.
-/

namespace VisualNovel

namespace Rotation

variable {r : Rotation} {i j : Nat}

/-- The automatic slot that is written after as many others from now on. -/
def slotAfter (r : Rotation) (i : Nat) : Int := (r.lastSlot + i) % SaveType.auto.capacity + 1

/-- The automatic slots in the order in which they are written next. -/
def turn (r : Rotation) : List Int := (List.range SaveType.auto.capacity).map r.slotAfter

/-- The memory when the next slot has been written. -/
def advance (r : Rotation) : Rotation := { r with lastSlot := r.nextSlot }

theorem slotAfter_zero (r : Rotation) : r.slotAfter 0 = r.nextSlot := by
  simp [slotAfter, nextSlot]

theorem capacity_auto : SaveType.auto.capacity = 6 := rfl

/-- When a slot has been written, it is the turn of the one after it. -/
theorem slotAfter_advance (r : Rotation) (i : Nat) :
    r.advance.slotAfter i = r.slotAfter (i + 1) := by
  simp only [slotAfter, advance, nextSlot, capacity_auto]
  omega

/-- After all others it is the turn of the first one again. -/
theorem slotAfter_capacity (r : Rotation) : r.slotAfter SaveType.auto.capacity = r.nextSlot := by
  simp only [slotAfter, nextSlot, capacity_auto]
  omega

/-- No two slots of a turn are the same. -/
theorem slotAfter_inj (hi : i < SaveType.auto.capacity) (hj : j < SaveType.auto.capacity)
    (h : r.slotAfter i = r.slotAfter j) : i = j := by
  simp only [slotAfter, capacity_auto] at *
  omega

/-- A slot of a turn is one of the six. -/
theorem slotAfter_mem (r : Rotation) (i : Nat) : 1 ≤ r.slotAfter i ∧ r.slotAfter i ≤ 6 := by
  simp only [slotAfter, capacity_auto]
  omega

theorem isWordSized_nextSlot (r : Rotation) : Schema.isWordSized r.nextSlot := by
  have hsix : r.nextSlot.natAbs ≤ 6 := by
    have hmem := r.slotAfter_mem 0
    rw [slotAfter_zero] at hmem
    omega
  exact decide_eq_true (Nat.lt_of_le_of_lt hsix (by decide))

/-- Every one of the six slots has its turn. -/
theorem turn_perm (r : Rotation) : r.turn.Perm [1, 2, 3, 4, 5, 6] := by
  have hnodup : r.turn.Nodup := by
    refine List.Nodup.map_on (fun i hi j hj h => ?_) List.nodup_range
    exact slotAfter_inj (List.mem_range.mp hi) (List.mem_range.mp hj) h
  have hsubset : r.turn ⊆ [1, 2, 3, 4, 5, 6] := by
    intro slot hslot
    obtain ⟨i, -, rfl⟩ := List.mem_map.mp hslot
    have hmem := r.slotAfter_mem i
    simp only [List.mem_cons, List.not_mem_nil, or_false]
    omega
  exact (List.subperm_of_subset hnodup hsubset).perm_of_length_le (by simp [turn, capacity_auto])

/-- A memory whose number is not long is read again from its text. -/
theorem lossless (h : Schema.isWordSized r.lastSlot) : model.Lossless r where
  exact := rfl
  text := by
    have hreads (n : Int) (hn : n ∈ r.toJson.numbers) : Json.Dialect.model.Reads n := by
      obtain rfl : n = r.lastSlot := by
        simpa [toJson, Json.numbers, Json.numbersOfMembers] using hn
      exact Json.Dialect.reads_of_isWordSized h
    have hbool : Schema.bool ((Json.bool r.firstRun).asRead .model) = .valid r.firstRun := rfl
    have hboolDepth : ((Json.bool r.firstRun).asRead .model).depth = 0 := rfl
    have hdepth : (r.toJson.asRead .model).depth ≤ Json.maxDepth := by
      simp [toJson, Json.asRead_obj, Json.membersAsRead, Json.depth, Json.depthMembers,
        Json.depth_int_asRead, hboolDepth, Json.maxDepth]
    show Schema.text check (r.toJson.render .storedIndented) = .valid r
    rw [Schema.text, Json.readModel?_render rfl hreads hdepth]
    dsimp only
    rw [toJson, Json.asRead_obj _ (by simp)]
    refine Schema.model_of_members ?_ rfl
    simp only [Schema.membersAsRead_cons, Schema.membersAsRead_nil]
    rw [Schema.optional_of_member? (by simp [Json.member?]) hbool,
      Schema.optional_of_member? (by simp [Json.member?]) (Schema.int_asRead .model r.lastSlot)]
    rfl

end Rotation

/-- An integer that can be read is not too long to be written. -/
theorem Json.Dialect.isShort_of_reads {n : Int} (h : Json.Dialect.model.Reads n) :
    Number.isShort n := by
  rw [Reads, admits, decide_eq_true_eq] at h
  exact decide_eq_true (Nat.le_of_add_right_le h)

namespace Save

/-- A save of a traversal that can be read again has a text. -/
theorem toText_of_storable {s : Save} (hslot : Number.isShort s.slot)
    (h : s.traversal.Storable) : ∃ text, s.toText = .ok text := by
  refine ⟨_, if_pos (List.all_eq_true.mpr fun n hn => ?_)⟩
  obtain rfl | hn : n = s.slot ∨ n ∈ s.traversal.toJson.numbers := by
    simpa [toJson, members, Json.numbers, Json.numbersOfMembers] using hn
  · exact hslot
  · exact Json.Dialect.isShort_of_reads (Json.Dialect.model_reads_iff.mpr (h n hn))

end Save

namespace SaveFolder

variable {k : SaveFolder} {t t' : Files.Tree} {r : Rotation}

/-- The folder is there, and what is remembered can be read. -/
structure Remembers (k : SaveFolder) (t : Files.Tree) (r : Rotation) : Prop where
  folder : t.hasFolder k.path
  read : Rotation.model.read t k.rotationPath = .ok r

/-- What is remembered can be read the next time. -/
theorem Remembers.load (h : k.Remembers t r) :
    Rotation.model.load t k.rotationPath = ⟨.ok r, t, []⟩ :=
  Files.Model.load_of_read h.folder h.read

/-- After a slot has been written, the next one can be remembered. -/
theorem Remembers.advance (h : k.Remembers t r) :
    ∃ t', Rotation.model.save t k.rotationPath r.advance = ⟨.ok (), t', []⟩ ∧
      k.Remembers t' r.advance := by
  have hlossless : Rotation.model.Lossless r.advance := Rotation.lossless r.isWordSized_nextSlot
  obtain ⟨t', hsave, hchanged, hread⟩ :=
    Files.Model.save_of_read h.folder (by decide) hlossless h.read
  exact ⟨t', hsave, hchanged.folder, hread⟩

/-- What has been read or made is remembered. -/
theorem remembers_load (hdir : t.hasFolder k.path)
    (h : (Rotation.model.load t k.rotationPath).result = .ok r) :
    t.ChangedAt k.path "persistent.json" (Rotation.model.load t k.rotationPath).tree ∧
      k.Remembers (Rotation.model.load t k.rotationPath).tree r := by
  have hdefaults (r : Rotation) (hr : Rotation.model.defaults = .ok r) :
      Rotation.model.Lossless r := by
    obtain rfl : ({} : Rotation) = r := Except.ok.inj hr
    exact Rotation.lossless (by decide)
  have hload := Files.Model.load_spec hdir (by decide) hdefaults h
  exact ⟨hload.1, hload.1.folder, hload.2⟩

/-- No folder is where the automatic slots and the memory of the last one go. -/
structure Unobstructed (k : SaveFolder) (t : Files.Tree) : Prop where
  folder : t.hasFolder k.path
  memory : t.Writable k.path "persistent.json"
  slots : ∀ slot : Int, 1 ≤ slot → slot ≤ 6 → t.Writable k.path (fileName .auto slot)

theorem Unobstructed.of_sameFolders (h : k.Unobstructed t) (hsame : t.SameFolders t') :
    k.Unobstructed t' where
  folder := hsame.holds.hasFolder h.folder
  memory := h.memory.of_sameFolders hsame
  slots slot hlow hhigh := (h.slots slot hlow hhigh).of_sameFolders hsame

/-- A save with a text is written if no folder is in the way, and no folder is made then. -/
theorem write_of_writable {s : Save} {text : String} (hdir : t.hasFolder k.path)
    (htext : s.toText = .ok text) (hshort : Number.isShort s.slot)
    (h : t.Writable k.path (fileName s.type s.slot)) :
    ∃ t', k.write t s = ⟨.ok s, t', []⟩ ∧ t.SameFolders t' := by
  refine ⟨_, ?_, Files.Tree.storeText_sameFolders hdir (fileName s.type s.slot) text⟩
  rw [write, htext, slotPath, if_pos hshort]
  simp only [Files.Change.result, h.storeText hdir]
  rfl

end SaveFolder

namespace Act

variable {σ : Type} {st : Stage σ} {k : SaveFolder} {type : SaveType} {slot : Int} {r : Rotation}

/-- An automatic save writes the slot whose turn it is and goes on to the next one. If nothing comes
of it, the turn stays, and nothing has changed but the file that remembers it, which may have been
made. It never fails. -/
theorem autoSave_turns (o : Observer σ) (hdir : st.files.hasFolder k.path)
    (hload : (Rotation.model.load st.files k.rotationPath).result = .ok r)
    (thumbnail : Option String) : Ends (autoSave o.hear k thumbnail) st
      (fun saved st' => match saved with
        | some v => v.slot = r.nextSlot ∧ k.Remembers st'.files r.advance
        | none => st.files.ChangedAt k.path "persistent.json" st'.files ∧
            k.Remembers st'.files r)
      fun _ _ => False := by
  obtain ⟨hchanged, hremembers⟩ := SaveFolder.remembers_load hdir hload
  simp only [autoSave, ends_bind, ends_get, ends_ofOutcome]
  rw [hload]
  dsimp only
  refine (save_ends o (by exact hchanged.folder) thumbnail none).imp ?_ fun _ _ hno => hno
  rintro (_ | v) st₁ hr
  · have hfiles : st₁.files = _ := hr
    rw [ends_pure, hfiles]
    exact ⟨hchanged, hremembers⟩
  · -- the save leaves the memory alone, so it can be written once more
    obtain ⟨-, hslot, -, -, hkept, -⟩ := hr
    have hremembers₁ : k.Remembers st₁.files r :=
      ⟨hkept.folder, (Files.Model.read_congr hkept.rotation).trans hremembers.read⟩
    obtain ⟨t', hsave, hadvanced⟩ := hremembers₁.advance
    simp only [ends_bind, ends_get, ends_ofOutcome, ends_pure]
    rw [show ({ r with lastSlot := r.nextSlot } : Rotation) = r.advance from rfl, hsave]
    exact ⟨hslot, hadvanced⟩

/-- What is saved of an attached session that can be read again is the session itself. -/
theorem traversalToSave_of_storable (hattached : k.attached)
    (hstorable : st.session.snapshot.Storable) {Q : Traversal → Stage σ → Prop}
    {E : Failure → Stage σ → Prop} (h : Q st.session.snapshot st) :
    Ends (traversalToSave k none) st Q E := by
  simp only [traversalToSave, hattached, Bool.not_true, Bool.false_eq_true, if_false, ends_bind,
    ends_session, ends_ofExcept, Session.stored, Traversal.ofText_toText hstorable]
  exact h

/-- A session that can be read again is saved if no folder is in the way. -/
theorem save_writes (o : Observer σ) (hdir : st.files.hasFolder k.path)
    (h : st.files.Writable k.path (SaveFolder.fileName type slot)) (hslot : Number.isShort slot)
    (hattached : k.attached) (hstorable : st.session.snapshot.Storable)
    (thumbnail : Option String) : Ends (save o.hear k type slot thumbnail none) st
      (fun saved st' => saved.isSome ∧ st.files.SameFolders st'.files) fun _ _ => False := by
  simp only [save, writeSave, ends_bind, ends_attempt, ends_get]
  apply traversalToSave_of_storable hattached hstorable
  obtain ⟨text, htext⟩ : ∃ text, Save.toText ⟨slot, type, st.setup.now.format,
      thumbnail.getD k.thumbnail, st.session.snapshot⟩ = .ok text :=
    Save.toText_of_storable hslot hstorable
  obtain ⟨t', hwrite, hsame⟩ := SaveFolder.write_of_writable hdir htext hslot h
  rw [ends_ofOutcome, hwrite]
  refine announce_ends o _ fun st' hfiles => ?_
  rw [ends_pure, hfiles]
  exact ⟨rfl, hsame⟩

/-- An automatic save of a session that can be read again succeeds if no folder is in the way, and
then none is in the way of the next one. -/
theorem autoSave_writes (o : Observer σ) (h : k.Unobstructed st.files) (hattached : k.attached)
    (hstorable : st.session.snapshot.Storable) (thumbnail : Option String) :
    Ends (autoSave o.hear k thumbnail) st
      (fun saved st' => saved.isSome ∧ k.Unobstructed st'.files) fun _ _ => False := by
  -- the memory of the last slot is made if it is missing, and that puts no folder in the way
  obtain ⟨⟨r, hload⟩, hmade⟩ :
      (∃ r, (Rotation.model.load st.files k.rotationPath).result = .ok r) ∧
        st.files.SameFolders (Rotation.model.load st.files k.rotationPath).tree :=
    Files.Model.load_of_writable h.folder h.memory rfl
  have hloaded := h.of_sameFolders hmade
  have hnext := r.slotAfter_mem 0
  rw [Rotation.slotAfter_zero] at hnext
  have hshort : Number.isShort r.nextSlot :=
    Json.Dialect.isShort_of_reads (Json.Dialect.reads_of_isWordSized r.isWordSized_nextSlot)
  simp only [autoSave, ends_bind, ends_get, ends_ofOutcome]
  rw [hload]
  dsimp only
  refine (save_writes o ?_ ?_ hshort hattached ?_ thumbnail).imp ?_ fun _ _ hno => hno
  · exact hloaded.folder
  · exact hloaded.slots r.nextSlot hnext.1 hnext.2
  · exact hstorable
  rintro (_ | v) st₁ ⟨hsome, hsame⟩
  · cases hsome
  · have hsaved := hloaded.of_sameFolders hsame
    have hstore : (Rotation.model.save st₁.files k.rotationPath
        { r with lastSlot := r.nextSlot }).result = .ok () :=
      Files.Model.save_of_writable hsaved.folder hsaved.memory _
    simp only [ends_bind, ends_get, ends_ofOutcome, ends_pure, hstore]
    exact ⟨rfl, hsaved.of_sameFolders (Files.Model.save_sameFolders hsaved.folder _)⟩

end Act

end VisualNovel
