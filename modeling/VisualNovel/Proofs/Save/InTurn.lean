import Mathlib.Data.List.Induction
import VisualNovel.Proofs.Save.Remembering

/-!
# Automatic slots are written in turn

The automatic slots are a ring, which holds the states that have been saved last, and the oldest of
them is where the next one goes. That is so whatever file there was at first to remember the last
slot, if only it can be read or made; after a failed attempt, which leaves the ring as it is; and
whether it is one folder that saves or one after the other at the same place.

## Main definitions

* `SaveFolder.held?`: the state that an automatic slot holds;
* `SaveFolder.AutoSaves`: one automatic save after the other, by whichever folder;
* `SaveFolder.Turning`: what is remembered, and what the slots hold.

## Main results

* `SaveFolder.Turning.autoSave`: what a single automatic save makes of the ring;
* `SaveFolder.AutoSaves.turning`: what holds after any number of automatic saves;
* `SaveFolder.AutoSaves.last_six_in_turn`: the automatic slots hold the last states;
* `SaveFolder.exists_autoSaves`: any number of states can be saved if no folder is in the way.
-/

namespace VisualNovel

namespace SaveFolder

variable {σ : Type} {st : Stage σ} {k k' : SaveFolder} {t t' : Files.Tree} {r : Rotation}
  {ss : List Traversal}

/-- The state that an automatic slot holds, if it can be read. -/
def held? (k : SaveFolder) (t : Files.Tree) (slot : Int) : Option Traversal :=
  (k.read t .auto slot true).toOption.join.map fun v => v.save.traversal

/-- One automatic save after the other, each with any session, listeners, settings and time, through
folders at the same place that are taken anew as often as may be. The states are those that have
been saved. -/
inductive AutoSaves (k : SaveFolder) (t : Files.Tree) : List Traversal → Files.Tree → Prop
  /-- The folder is taken for the first time. -/
  | taken : AutoSaves k t [] (t.makeFolders k.path).tree
  /-- It is taken again. -/
  | retaken {ss : List Traversal} {t' : Files.Tree} (h : AutoSaves k t ss t') :
      AutoSaves k t ss (t'.makeFolders k.path).tree
  /-- The state of the session is saved. -/
  | saved {σ : Type} (o : Observer σ) {ss : List Traversal} {st st' : Stage σ}
      (h : AutoSaves k t ss st.files) {k' : SaveFolder} (hpath : k'.path = k.path)
      {thumbnail : Option String} {v : Save}
      (hsave : Act.autoSave o.hear k' thumbnail st = .ok (some v) st') :
      AutoSaves k t (ss ++ [st.session.snapshot]) st'.files
  /-- Nothing comes of saving. -/
  | refused {σ : Type} (o : Observer σ) {ss : List Traversal} {st st' : Stage σ}
      (h : AutoSaves k t ss st.files) {k' : SaveFolder} (hpath : k'.path = k.path)
      {thumbnail : Option String} (hsave : Act.autoSave o.hear k' thumbnail st = .ok none st') :
      AutoSaves k t ss st'.files

/-- The memory can be read or made, and the automatic slots hold the states that have been saved
last, in the order of their turn. -/
structure Turning (k : SaveFolder) (t : Files.Tree) (ss : List Traversal) (r : Rotation) :
    Prop where
  folder : t.hasFolder k.path
  memory : (Rotation.model.load t k.rotationPath).result = .ok r
  held : ∀ i < SaveType.auto.capacity, SaveType.auto.capacity ≤ ss.length + i →
    k.held? t (r.slotAfter i) = ss[ss.length + i - SaveType.auto.capacity]?

theorem held?_of_read {v : Save.Reading} {slot : Int}
    (h : k.read t .auto slot true = .ok (some v)) :
    k.held? t slot = some v.save.traversal := by
  rw [held?, h]
  rfl

theorem held?_congr {slot : Int} (h : k.read t' .auto slot true = k.read t .auto slot true) :
    k.held? t' slot = k.held? t slot := by
  rw [held?, held?, h]

/-- Folders at the same place are the same for reading. -/
theorem read_of_path (h : k'.path = k.path) : k'.read = k.read := by
  funext t type slot checked
  simp only [read, slotPath, h]

theorem held?_of_path (h : k'.path = k.path) (t : Files.Tree) (slot : Int) :
    k'.held? t slot = k.held? t slot := by
  rw [held?, held?, read_of_path h]

namespace Turning

/-- Folders at the same place are the same. -/
theorem of_path (h : k.Turning t ss r) (hpath : k'.path = k.path) : k'.Turning t ss r where
  folder := hpath ▸ h.folder
  memory := by
    rw [rotationPath, hpath]
    exact h.memory
  held i hi hlength := (held?_of_path hpath t _).trans (h.held i hi hlength)

/-- Nothing has to be made for a folder that is there. -/
theorem retaken (h : k.Turning t ss r) : k.Turning (t.makeFolders k.path).tree ss r := by
  rw [Files.Tree.makeFolders_of_hasFolder h.folder]
  exact h

/-- The turn stays if only the memory has been made. -/
theorem refused (h : k.Turning t ss r) (hchanged : t.ChangedAt k.path "persistent.json" t')
    (hremembers : k.Remembers t' r) : k.Turning t' ss r where
  folder := hchanged.folder
  memory := by rw [hremembers.load]
  held i hi hlength := by
    rw [← h.held i hi hlength]
    apply held?_congr
    exact read_congr (hchanged.sibling _ fileName_ne_persistent)

/-- When the slot whose turn it is has received a state, that state is the last one, and all others
have moved up. -/
theorem saved (h : k.Turning t ss r) {s : Session} {v : Save} (hslot : v.slot = r.nextSlot)
    (hreceives : k.Receives s t t' v) (hremembers : k.Remembers t' r.advance) :
    k.Turning t' (ss ++ [s.snapshot]) r.advance where
  folder := hremembers.folder
  memory := by rw [hremembers.load]
  held i hi hlength := by
    rw [Rotation.slotAfter_advance]
    rw [List.length_append, List.length_singleton] at hlength ⊢
    by_cases hlast : i + 1 = SaveType.auto.capacity
    · -- the slot that has been written is the last whose turn it is
      have hread := hreceives.read true
      rw [hreceives.type, hslot] at hread
      have hindex : ss.length + 1 + i - SaveType.auto.capacity = ss.length := by omega
      rw [hlast, Rotation.slotAfter_capacity, held?_of_read hread, hreceives.traversal, hindex,
        List.getElem?_concat_length]
    · -- every other slot is as it was
      have hne : (SaveType.auto, r.slotAfter (i + 1)) ≠ (v.type, v.slot) := by
        intro heq
        have hsame : r.slotAfter (i + 1) = r.slotAfter 0 := by
          rw [Rotation.slotAfter_zero, ← hslot]
          exact (Prod.mk.inj heq).2
        have hzero := Rotation.slotAfter_inj (by omega) (by decide) hsame
        omega
      have hindex : ss.length + 1 + i - SaveType.auto.capacity < ss.length := by omega
      rw [held?_congr (hreceives.others _ _ true hne), h.held (i + 1) (by omega) (by omega),
        List.getElem?_append_left hindex]
      congr 1
      omega

/-- An automatic save puts the state of the session into the slot whose turn it is. If nothing comes
of it, all slots are as they were, and so is the turn. -/
theorem autoSave (o : Observer σ) (h : k.Turning st.files ss r) (thumbnail : Option String) :
    Act.Ends (Act.autoSave o.hear k thumbnail) st
      (fun saved st' => match saved with
        | some v => v.slot = r.nextSlot ∧ k.Receives st.session st.files st'.files v ∧
            k.Turning st'.files (ss ++ [st.session.snapshot]) r.advance
        | none => st.files.ChangedAt k.path "persistent.json" st'.files ∧ k.Turning st'.files ss r)
      fun _ _ => False := by
  refine ((Act.autoSave_turns o h.folder h.memory thumbnail).and
    (Act.autoSave_ends o h.folder thumbnail)).imp ?_ fun _ _ hno => hno.1
  rintro (_ | v) st' ⟨hturn, hslots⟩
  · exact ⟨hturn.1, h.refused hturn.1 hturn.2⟩
  · exact ⟨hturn.1, hslots, h.saved hturn.1 hslots hturn.2⟩

/-- In the order of their turn the slots hold the last states. -/
theorem map_held? (h : k.Turning t ss r) (hlength : SaveType.auto.capacity ≤ ss.length) :
    r.turn.map (k.held? t) = (ss.drop (ss.length - SaveType.auto.capacity)).map some := by
  apply List.ext_getElem
  · simp only [Rotation.turn, List.length_map, List.length_range, List.length_drop]
    omega
  · intro i hi hi'
    have hlt : i < SaveType.auto.capacity := by simpa [Rotation.turn] using hi
    have hstate : i + (ss.length - SaveType.auto.capacity) < ss.length := by omega
    have hindex : ss.length + i - SaveType.auto.capacity =
        ss.length - SaveType.auto.capacity + i := by omega
    rw [List.getElem_map, List.getElem_map, List.getElem_drop]
    simp only [Rotation.turn, List.getElem_map, List.getElem_range]
    rw [h.held i hlt (by omega), hindex, List.getElem?_eq_getElem]

end Turning

/-- What the first automatic save finds is what is there before the folder is taken. -/
theorem load_makeFolders (h : (Rotation.model.load t k.rotationPath).result = .ok r) :
    (t.makeFolders k.path).tree.hasFolder k.path ∧
      (Rotation.model.load (t.makeFolders k.path).tree k.rotationPath).result = .ok r := by
  have hparent : k.rotationPath.parent = k.path := Files.Path.parent_child k.path _
  have hfault : (t.makeFolders k.path).fault = none := by
    cases hfault : (t.makeFolders k.path).fault with
    | none => rfl
    | some f =>
      have hfailed : (Rotation.model.load t k.rotationPath).result = .error (.file f) := by
        rw [Files.Model.load, hparent]
        simp [Files.Change.result, hfault, Except.bind]
      rw [hfailed] at h
      cases h
  have hfolder := Files.Tree.hasFolder_makeFolders hfault
  refine ⟨hfolder, ?_⟩
  rw [← h, Files.Model.load, Files.Model.load, hparent, Files.Tree.makeFolders_of_hasFolder hfolder]
  simp [Files.Change.result, hfault]

/-- After any number of automatic saves the memory can be read or made, if it could at first, and
the slots hold the states that have been saved last. -/
theorem AutoSaves.turning {r₀ : Rotation}
    (hload : (Rotation.model.load t k.rotationPath).result = .ok r₀) (h : k.AutoSaves t ss t') :
    ∃ r, k.Turning t' ss r := by
  induction h with
  | taken =>
    obtain ⟨hfolder, hmemory⟩ := load_makeFolders hload
    exact ⟨r₀, hfolder, hmemory, fun i hi hlength => absurd hlength (by simpa using hi)⟩
  | retaken _ ih =>
    obtain ⟨r, hr⟩ := ih
    exact ⟨r, hr.retaken⟩
  | saved o _ hpath hsave ih =>
    obtain ⟨r, hr⟩ := ih
    have hturn := ((hr.of_path hpath).autoSave o _).of_ok hsave
    exact ⟨r.advance, hturn.2.2.of_path hpath.symm⟩
  | refused o _ hpath hsave ih =>
    obtain ⟨r, hr⟩ := ih
    have hturn := ((hr.of_path hpath).autoSave o _).of_ok hsave
    exact ⟨r, hturn.2.of_path hpath.symm⟩

/-- Any number of sessions that can be read again are saved one after the other if no folder is in
the way. -/
theorem exists_autoSaves (o : Observer σ) (st : Stage σ) (h : k.Unobstructed t)
    (hattached : k.attached) (sessions : List Session)
    (hstorable : ∀ s ∈ sessions, s.snapshot.Storable) :
    ∃ t', k.AutoSaves t (sessions.map Session.snapshot) t' ∧ k.Unobstructed t' := by
  induction sessions using List.reverseRecOn with
  | nil =>
    refine ⟨t, ?_, h⟩
    have htaken := AutoSaves.taken (k := k) (t := t)
    rwa [Files.Tree.makeFolders_of_hasFolder h.folder] at htaken
  | append_singleton sessions s ih =>
    obtain ⟨t₁, hsaves, hclear⟩ := ih fun s hs => hstorable s (List.mem_append_left _ hs)
    have hwrites : Act.Ends (Act.autoSave o.hear k none) { st with files := t₁, session := s }
        (fun saved st' => saved.isSome ∧ k.Unobstructed st'.files) fun _ _ => False :=
      Act.autoSave_writes o hclear hattached (hstorable s (by simp)) none
    obtain ⟨saved, st', hsave, hsome, hclear'⟩ := hwrites.exists_ok
    obtain ⟨v, rfl⟩ := Option.isSome_iff_exists.mp hsome
    refine ⟨st'.files, ?_, hclear'⟩
    rw [List.map_append]
    exact hsaves.saved o rfl hsave

/-- The automatic slots hold the states that have been saved last, whatever file there was at first
to remember the last slot, if only it can be read or made. Every further automatic save writes the
slot whose turn it is, one of the six, and goes on to the next; or nothing comes of it, and then all
slot files are as they were, and the turn stays. After six saves or more the six slots hold exactly
the last six states, the oldest in the slot whose turn it is. -/
theorem AutoSaves.last_six_in_turn {r₀ : Rotation}
    (hload : (Rotation.model.load t k.rotationPath).result = .ok r₀) (h : k.AutoSaves t ss t') :
    ∃ r, (Rotation.model.load t' k.rotationPath).result = .ok r ∧
      (∀ {σ : Type} (o : Observer σ) (k' : SaveFolder) (thumbnail : Option String) (st : Stage σ),
        k'.path = k.path → st.files = t' →
        Act.Ends (Act.autoSave o.hear k' thumbnail) st
          (fun saved st' => match saved with
            | some v => v.slot = r.nextSlot ∧ 1 ≤ v.slot ∧ v.slot ≤ 6 ∧
                k.held? st'.files v.slot = some st.session.snapshot ∧
                (∀ type slot checked, (type, slot) ≠ (.auto, v.slot) →
                  k.read st'.files type slot checked = k.read t' type slot checked) ∧
                ∃ r', (Rotation.model.load st'.files k.rotationPath).result = .ok r' ∧
                  r'.nextSlot = v.slot % 6 + 1
            | none => (∀ type slot, st'.files.entry (k.path.child (fileName type slot)) =
                  t'.entry (k.path.child (fileName type slot))) ∧
                ∃ r', (Rotation.model.load st'.files k.rotationPath).result = .ok r' ∧
                  r'.nextSlot = r.nextSlot)
          fun _ _ => False) ∧
      r.turn.Perm [1, 2, 3, 4, 5, 6] ∧ r.turn.head? = some r.nextSlot ∧
      (6 ≤ ss.length → r.turn.map (k.held? t') = (ss.drop (ss.length - 6)).map some) := by
  obtain ⟨r, hr⟩ := h.turning hload
  refine ⟨r, hr.memory, ?_, r.turn_perm, ?_, hr.map_held?⟩
  · rintro σ o k' thumbnail st hpath rfl
    -- the folder of the further save may be another one with the same path
    refine ((hr.of_path hpath).autoSave o thumbnail).imp ?_ fun _ _ hno => hno
    rintro (_ | v) st' hturn
    · obtain ⟨hchanged, hturning⟩ := hturn
      rw [hpath] at hchanged
      exact ⟨fun type slot => hchanged.sibling _ fileName_ne_persistent, r,
        (hturning.of_path hpath.symm).memory, rfl⟩
    · obtain ⟨hslot, hreceives, hturning⟩ := hturn
      have hsix := r.slotAfter_mem 0
      rw [Rotation.slotAfter_zero, ← hslot] at hsix
      have hread := hreceives.read true
      rw [hreceives.type] at hread
      refine ⟨hslot, hsix.1, hsix.2, ?_, ?_, r.advance, (hturning.of_path hpath.symm).memory, ?_⟩
      · rw [← held?_of_path hpath, held?_of_read hread, hreceives.traversal]
      · intro type slot checked hne
        rw [← read_of_path hpath]
        exact hreceives.others type slot checked (by rwa [hreceives.type])
      · rw [hslot]
        rfl
  · rw [Rotation.turn, ← Rotation.slotAfter_zero]
    rfl

/-- A folder of slots. -/
private def drawer : SaveFolder := { path := ⟨.working, ["saves"]⟩ }

/-- The files of the folder: the memory of the last slot is spoilt. -/
private def spoilt : Files.Tree :=
  ⟨[(["saves"], .folder), (["saves", "persistent.json"], .file "last: four".toUTF8)]⟩

/-- A stage with these files. -/
private def study : Stage Unit where
  setup := ⟨⟨.working, ["dialogue"]⟩, [], ⟨2026, 1, 1, 0, 0⟩, 100⟩
  files := spoilt
  session := {}
  notices := []
  remarks := []
  host := ()

/-- A session at a line. -/
private def bookmark (line : Int) : Session := { traversal := { cursor := { line } } }

private theorem unobstructed_spoilt : drawer.Unobstructed spoilt where
  folder := by decide
  memory := ⟨["saves", "persistent.json"], by decide, by decide⟩
  slots slot hlow hhigh := by
    have hslots : ∀ slot ∈ [1, 2, 3, 4, 5, 6],
        spoilt.locate (drawer.path.child (fileName .auto slot)) =
          .ok (.inside ["saves", fileName .auto slot]) ∧
        spoilt.find? ["saves", fileName .auto slot] ≠ some .folder := by decide
    have hmem : slot ∈ [1, 2, 3, 4, 5, 6] := by
      simp only [List.mem_cons, List.not_mem_nil, or_false]
      omega
    exact ⟨_, hslots slot hmem⟩

theorem AutoSaves.last_six_in_turn_drawer :
    ∃ t' r, drawer.AutoSaves spoilt
        ([1, 2, 3, 4, 5, 6, 7].map fun line => (bookmark line).snapshot) t' ∧
      (Rotation.model.load t' drawer.rotationPath).result = .ok r ∧
      r.turn.map (drawer.held? t') =
        [2, 3, 4, 5, 6, 7].map fun line => some (bookmark line).snapshot := by
  obtain ⟨t', hsaves, -⟩ := exists_autoSaves .noting study unobstructed_spoilt rfl
    ([1, 2, 3, 4, 5, 6, 7].map bookmark) (by decide +kernel)
  rw [List.map_map] at hsaves
  obtain ⟨⟨r₀, hload⟩, -⟩ := Files.Model.load_of_writable (m := Rotation.model)
    unobstructed_spoilt.folder unobstructed_spoilt.memory rfl
  obtain ⟨r, hmemory, -, -, -, hheld⟩ := AutoSaves.last_six_in_turn hload hsaves
  exact ⟨t', r, hsaves, hmemory, hheld (by decide)⟩

end SaveFolder

end VisualNovel
