import Mathlib.Data.List.Basic
import VisualNovel.Files.Action

/-!
# Files beside each other

A change of one file leaves everything else in its folder as it was. Folders do not go away when a
file is written or removed, so paths lead to the same places as before, and two names in one folder
never lead to the same place.

## Main definitions

* `Tree.Holds`: every folder of a tree is one of another tree.

## Main results

* `Tree.entry_sibling`: what another name in the folder stands for;
* `Tree.storeText_child`, `Tree.remove_ok`: what comes of writing and of removing a file;
* `Tree.makeFolders_of_hasFolder`, `Tree.hasFolder_makeFolders`: a folder is made unless it is
  there;
* `Tree.run_holds`: folders do not go away.
-/

namespace VisualNovel.Files

/-- Something in a folder is in that folder. -/
@[simp]
theorem Path.parent_child (dir : Path) (name : String) : (dir.child name).parent = dir := by
  simp [Path.child, Path.parent]

namespace Tree

variable {t t' : Tree} {names names' : List String} {x : Entry} {dir p : Path} {name name' : String}

/-! ### Entries -/

theorem findIn_putIn_self (es : List (List String × Entry)) :
    findIn names (putIn names x es) = some x := by
  induction es with
  | nil => simp [putIn, findIn]
  | cons e es ih =>
    rw [putIn]
    split
    · simp [findIn]
    · next hne => rw [findIn, if_neg hne, ih]

theorem findIn_putIn_of_ne (h : names' ≠ names) (es : List (List String × Entry)) :
    findIn names' (putIn names x es) = findIn names' es := by
  induction es with
  | nil => simp [putIn, findIn, h.symm]
  | cons e es ih =>
    rw [putIn]
    split
    · next heq => rw [findIn, if_neg h.symm, findIn, if_neg (heq ▸ h.symm)]
    · rw [findIn, findIn, ih]

theorem findIn_filter_self (es : List (List String × Entry)) :
    findIn names (es.filter fun e => e.1 ≠ names) = none := by
  induction es with
  | nil => rfl
  | cons e es ih =>
    by_cases he : e.1 = names
    · simpa [he] using ih
    · rw [List.filter_cons_of_pos (by simpa using he), findIn, if_neg he, ih]

theorem findIn_filter_of_ne (h : names' ≠ names) (es : List (List String × Entry)) :
    findIn names' (es.filter fun e => e.1 ≠ names) = findIn names' es := by
  induction es with
  | nil => rfl
  | cons e es ih =>
    by_cases he : e.1 = names
    · rw [List.filter_cons_of_neg (by simpa using he), ih, findIn, if_neg (he ▸ h.symm)]
    · rw [List.filter_cons_of_pos (by simpa using he), findIn, findIn, ih]

/-- An entry that is put at names is found there. -/
theorem find?_put_self (hne : names ≠ []) : (t.put names x).find? names = some x := by
  rw [find?, if_neg (by simpa using hne)]
  exact findIn_putIn_self t.entries

/-- Other entries stay when one is put. -/
theorem find?_put_of_ne (h : names' ≠ names) : (t.put names x).find? names' = t.find? names' := by
  unfold find?
  split
  · rfl
  · exact findIn_putIn_of_ne h t.entries

/-- An entry that is removed is not found. -/
theorem find?_erase_self (hne : names ≠ []) : (t.erase names).find? names = none := by
  rw [find?, if_neg (by simpa using hne)]
  exact findIn_filter_self t.entries

/-- Other entries stay when one is removed. -/
theorem find?_erase_of_ne (h : names' ≠ names) : (t.erase names).find? names' = t.find? names' := by
  unfold find?
  split
  · rfl
  · exact findIn_filter_of_ne h t.entries

/-- Only the working folder has no names. -/
theorem ne_nil_of_find? (h : t.find? names ≠ some .folder) : names ≠ [] := by
  rintro rfl
  exact h rfl

/-! ### Folders stay -/

/-- Every folder of the tree is one of the other tree. -/
def Holds (t t' : Tree) : Prop :=
  ∀ names, t.find? names = some .folder → t'.find? names = some .folder

theorem Holds.refl (t : Tree) : t.Holds t := fun _ h => h

theorem Holds.trans {t'' : Tree} (h : t.Holds t') (h' : t'.Holds t'') : t.Holds t'' :=
  fun names hfolder => h' names (h names hfolder)

/-- Putting something where no folder is leaves all folders. -/
theorem holds_put (h : t.find? names ≠ some .folder) : t.Holds (t.put names x) := by
  intro names' hfolder
  have hne : names' ≠ names := by
    rintro rfl
    exact h hfolder
  rwa [find?_put_of_ne hne]

/-- Removing something that is no folder leaves all folders. -/
theorem holds_erase (h : t.find? names ≠ some .folder) : t.Holds (t.erase names) := by
  intro names' hfolder
  have hne : names' ≠ names := by
    rintro rfl
    exact h hfolder
  rwa [find?_erase_of_ne hne]

theorem Holds.at? (h : t.Holds t') {place : Place} (hfolder : t.at? place = some .folder) :
    t'.at? place = some .folder := by
  cases place with
  | inside names => exact h names hfolder
  | above => rfl

/-- Where folders stay, names lead to the same place. -/
theorem Holds.walk (h : t.Holds t') {place next : Place} {names : List String}
    (hwalk : t.walk place names = .ok next) : t'.walk place names = .ok next := by
  induction names generalizing place with
  | nil => exact hwalk
  | cons name names ih =>
    -- every name but the last leads to a folder, which is still there
    rw [Tree.walk] at hwalk ⊢
    split at hwalk
    · cases hwalk
    · cases hwalk
    · next hfolder =>
      rw [h.at? hfolder]
      dsimp only
      split at hwalk
      · cases hwalk
      · exact ih hwalk

theorem Holds.locate (h : t.Holds t') {place : Place} (hplace : t.locate p = .ok place) :
    t'.locate p = .ok place := by
  unfold Tree.locate at hplace ⊢
  -- whether a path is one at all, and whether it is too long, does not depend on the tree
  split
  · next hnull =>
    rw [if_pos hnull] at hplace
    cases hplace
  · next hnull =>
    rw [if_neg hnull] at hplace
    split
    · next hlong =>
      rw [if_pos hlong] at hplace
      cases hplace
    · next hlong =>
      rw [if_neg hlong] at hplace
      exact h.walk hplace

/-- A path at which a folder is leads to it. -/
theorem hasFolder_iff :
    t.hasFolder p = true ↔ ∃ place, t.locate p = .ok place ∧ t.at? place = some .folder := by
  unfold hasFolder entry
  cases hplace : t.locate p with
  | error c => simp [bind, Except.bind, Except.toOption]
  | ok place =>
    cases hentry : t.at? place with
    | none => simp [bind, Except.bind, Except.toOption, hentry]
    | some x => simp [bind, Except.bind, Except.toOption, hentry]

/-- Where folders stay, a path still leads to its folder. -/
theorem Holds.hasFolder (h : t.Holds t') (hp : t.hasFolder p) : t'.hasFolder p := by
  obtain ⟨place, hplace, hfolder⟩ := hasFolder_iff.mp hp
  exact hasFolder_iff.mpr ⟨place, h.locate hplace, h.at? hfolder⟩

/-! ### Names in a folder -/

theorem walk_append {place next : Place} (hwalk : t.walk place names = .ok next)
    (hfolder : t.at? next = some .folder) : t.walk place (names ++ [name]) = next.step name := by
  induction names generalizing place with
  | nil =>
    -- the last step is taken in the folder itself
    obtain rfl := Except.ok.inj hwalk
    rw [List.nil_append, walk, hfolder]
    simp only
    split
    · next hstep => rw [hstep]
    · next hstep => rw [hstep, walk]
  | cons outer names ih =>
    rw [List.cons_append, walk]
    rw [walk] at hwalk
    split at hwalk
    · cases hwalk
    · cases hwalk
    · split at hwalk
      · cases hwalk
      · exact ih hwalk

/-- Two names do not lead to the same place from a folder. -/
theorem step_inj {place next : Place} (hname : name ≠ "..") (h : place.step name = .ok next)
    (h' : place.step name' = .ok next) : name' = name := by
  unfold Place.step at h h'
  split at h
  · cases h
  split at h'
  · cases h'
  cases place with
  | above => cases h
  | inside names =>
    have hnext : Place.inside (names ++ [name]) = next := by simpa [hname] using h
    rw [← hnext] at h'
    simp only at h'
    split at h'
    · simpa using h'
    · split at h'
      · cases h'
      · -- a longer list of names is not a shorter one
        have hlength := congrArg List.length (Place.inside.inj (Except.ok.inj h'))
        rw [List.length_dropLast, List.length_append, List.length_singleton] at hlength
        omega

theorem walk_of_locate {place : Place} (h : t.locate p = .ok place) :
    t.walk (if p.anchor = .working then .inside [] else .above) p.parts = .ok place := by
  unfold locate at h
  split at h
  · cases h
  split at h
  · cases h
  exact h

/-- A name in a folder is followed from the folder. -/
theorem locate_child {place : Place} (hplace : t.locate dir = .ok place)
    (hfolder : t.at? place = some .folder) : t.locate (dir.child name) =
      if (dir.child name).parts.any fun part => part.toList.contains '\x00' then .error .notAPath
      else if maxPathSize < (dir.child name).toString.utf8ByteSize then .error .tooLong
      else place.step name := by
  rw [locate, ← walk_append (walk_of_locate hplace) hfolder]
  rfl

/-- Where folders stay, a name in a folder leads to the same place or is refused as before. -/
theorem Holds.locate_child (h : t.Holds t') (hdir : t.hasFolder dir) (name : String) :
    t'.locate (dir.child name) = t.locate (dir.child name) := by
  obtain ⟨place, hplace, hfolder⟩ := hasFolder_iff.mp hdir
  rw [Tree.locate_child (h.locate hplace) (h.at? hfolder), Tree.locate_child hplace hfolder]

/-- Another name in the folder leads to another place. -/
theorem ne_of_locate_child {next : Place} (hdir : t.hasFolder dir) (hname : name ≠ "..")
    (hne : name' ≠ name) (h : t.locate (dir.child name) = .ok next) :
    t.locate (dir.child name') ≠ .ok next := by
  obtain ⟨place, hplace, hfolder⟩ := hasFolder_iff.mp hdir
  rw [locate_child hplace hfolder] at h ⊢
  intro h'
  -- both paths have passed the checks, so each of them is a single step from the folder
  split at h
  · cases h
  split at h
  · cases h
  split at h'
  · cases h'
  split at h'
  · cases h'
  exact hne (step_inj hname h h')

/-- A change of what a name in a folder stands for leaves what other names there stand for. -/
theorem entry_sibling (hdir : t.hasFolder dir) (hname : name ≠ "..") (hne : name' ≠ name)
    (h : t.locate (dir.child name) = .ok (.inside names)) (hholds : t.Holds t')
    (hother : ∀ names', names' ≠ names → t'.find? names' = t.find? names') :
    t'.entry (dir.child name') = t.entry (dir.child name') := by
  rw [entry, entry, hholds.locate_child hdir]
  cases hplace : t.locate (dir.child name') with
  | error c => rfl
  | ok place =>
    -- the other name leads to another place, where nothing has changed
    have hplaces : place ≠ .inside names := fun heq =>
      ne_of_locate_child hdir hname hne h (heq ▸ hplace)
    have hat : t'.at? place = t.at? place := by
      cases place with
      | inside names' => exact hother names' fun heq => hplaces (heq ▸ rfl)
      | above => rfl
    simp only [bind, Except.bind, hat]

/-- The entry of a path is what is at its place. -/
theorem entry_of_locate (h : t.locate p = .ok (.inside names)) (hx : t.find? names = some x) :
    t.entry p = .ok x := by
  rw [entry, h]
  simp only [bind, Except.bind, at?, hx]

theorem entry_of_locate_none (h : t.locate p = .ok (.inside names)) (hx : t.find? names = none) :
    t.entry p = .error .missing := by
  rw [entry, h]
  simp only [bind, Except.bind, at?, hx]

/-! ### Making folders -/

/-- A folder that is there is not made again. -/
theorem makeFolder_of_hasFolder (h : t.hasFolder p) : t.makeFolder p = .error ⟨.taken, p⟩ := by
  obtain ⟨place, hplace, hfolder⟩ := hasFolder_iff.mp h
  rw [makeFolder, hplace]
  cases place with
  | above => rfl
  | inside names =>
    have hsome : t.find? names = some .folder := hfolder
    simp [hsome]

theorem ensureFolder_of_hasFolder (h : t.hasFolder p) : t.ensureFolder p = ⟨t, none⟩ := by
  rw [ensureFolder, makeFolder_of_hasFolder h]
  exact if_pos h

/-- Nothing has to be made for a folder that is there. -/
theorem makeFolders_of_hasFolder (h : t.hasFolder p) : t.makeFolders p = ⟨t, none⟩ := by
  unfold makeFolders
  cases hparts : p.parts.reverse with
  | nil =>
    have hp : p = ⟨p.anchor, []⟩ := by rw [← List.reverse_eq_nil_iff.mp hparts]
    rw [makeFoldersFrom, ← hp]
    exact ensureFolder_of_hasFolder h
  | cons name outer =>
    have hp : p = ⟨p.anchor, (name :: outer).reverse⟩ := by rw [← hparts, List.reverse_reverse]
    rw [makeFoldersFrom, ← hp]
    -- the innermost folder is tried first, and those above it only if it cannot be made
    simp only [makeFolder_of_hasFolder h]
    exact ensureFolder_of_hasFolder h

/-- A folder that has been made is there, and so are all others. -/
theorem makeFolder_ok (h : t.makeFolder p = .ok t') : t.Holds t' ∧ t'.hasFolder p := by
  unfold makeFolder at h
  split at h
  · cases h
  · cases h
  · next names hplace =>
    split at h
    · cases h
    · next hnone =>
      rw [Option.not_isSome_iff_eq_none] at hnone
      obtain rfl := Except.ok.inj h
      have hfind : t.find? names ≠ some .folder := by simp [hnone]
      refine ⟨holds_put hfind, hasFolder_iff.mpr ⟨_, (holds_put hfind).locate hplace, ?_⟩⟩
      exact find?_put_self (ne_nil_of_find? hfind)

theorem ensureFolder_holds : t.Holds (t.ensureFolder p).tree := by
  unfold ensureFolder
  split
  · next h => exact (makeFolder_ok h).1
  · split <;> exact .refl t

theorem ensureFolder_ok (h : (t.ensureFolder p).fault = none) :
    (t.ensureFolder p).tree.hasFolder p := by
  unfold ensureFolder at h ⊢
  split at h
  · next hmade => exact (makeFolder_ok hmade).2
  · split at h
    · next hfolder => simp [hfolder]
    · cases h

/-- A folder is there after it has been made with all folders above it. -/
theorem hasFolder_makeFolders (h : (t.makeFolders p).fault = none) :
    (t.makeFolders p).tree.hasFolder p := by
  unfold makeFolders at h ⊢
  cases hparts : p.parts.reverse with
  | nil =>
    have hp : p = ⟨p.anchor, []⟩ := by rw [← List.reverse_eq_nil_iff.mp hparts]
    rw [hparts, makeFoldersFrom, ← hp] at h
    rw [makeFoldersFrom, ← hp]
    exact ensureFolder_ok h
  | cons name outer =>
    have hp : p = ⟨p.anchor, (name :: outer).reverse⟩ := by rw [← hparts, List.reverse_reverse]
    rw [hparts, makeFoldersFrom, ← hp] at h
    rw [makeFoldersFrom, ← hp]
    split at h
    · -- the folders above have been made first
      unfold Change.andThen at h ⊢
      split at h
      · exact ensureFolder_ok h
      · next hfault =>
        rw [hfault] at h
        cases h
    · exact ensureFolder_ok h

/-! ### Files in a folder -/

/-- Writing a file in a folder is refused or puts the file there. -/
theorem storeText_child (hdir : t.hasFolder dir) (name s : String) :
    (∃ f, t.storeText (dir.child name) s = ⟨t, some f⟩) ∨
      ∃ names, t.locate (dir.child name) = .ok (.inside names) ∧ t.find? names ≠ some .folder ∧
        t.storeText (dir.child name) s = ⟨t.put names (.file s.toUTF8), none⟩ := by
  -- the folder is there, so that nothing is made above the file
  have hstore : t.storeText (dir.child name) s =
      .ofStep t (t.writeBytes (dir.child name) s.toUTF8) := by
    rw [storeText, store, Path.parent_child, makeFolders_of_hasFolder hdir]
    rfl
  rw [hstore]
  unfold writeBytes
  split
  · exact .inl ⟨_, rfl⟩
  · exact .inl ⟨_, rfl⟩
  · next names hplace =>
    split
    · exact .inl ⟨_, rfl⟩
    · next hnot => exact .inr ⟨names, hplace, fun hfolder => hnot hfolder, rfl⟩

/-- Removing what is at a path is refused or takes a file away. -/
theorem remove_ok (h : t.remove p = .ok t') : ∃ names bytes, t.locate p = .ok (.inside names) ∧
    t.find? names = some (.file bytes) ∧ t' = t.erase names := by
  unfold remove at h
  split at h
  · cases h
  · cases h
  · next names hplace =>
    split at h
    · next bytes hfile => exact ⟨names, bytes, hplace, hfile, (Except.ok.inj h).symm⟩
    · cases h
    · cases h

theorem makeFoldersFrom_holds (anchor : Anchor) (names : List String) :
    t.Holds (makeFoldersFrom anchor names t).tree := by
  induction names generalizing t with
  | nil => exact ensureFolder_holds
  | cons name outer ih =>
    rw [makeFoldersFrom]
    split
    · unfold Change.andThen
      split
      · exact ih.trans ensureFolder_holds
      · exact ih
    · exact ensureFolder_holds

/-- A step that leaves all folders if it succeeds leaves them also if it fails. -/
theorem ofStep_holds {r : Except Fault Tree} (h : ∀ t', r = .ok t' → t.Holds t') :
    t.Holds (Change.ofStep t r).tree := by
  cases r with
  | ok t' => exact h t' rfl
  | error f => exact .refl t

theorem writeBytes_holds {bytes : ByteArray} (h : t.writeBytes p bytes = .ok t') : t.Holds t' := by
  unfold writeBytes at h
  split at h
  · cases h
  · cases h
  · split at h
    · cases h
    · next hnot => exact Except.ok.inj h ▸ holds_put fun hfolder => hnot hfolder

theorem remove_holds (h : t.remove p = .ok t') : t.Holds t' := by
  obtain ⟨names, bytes, -, hfile, rfl⟩ := remove_ok h
  exact holds_erase (by simp [hfile])

theorem store_holds (p : Path) (bytes : ByteArray) : t.Holds (t.store p bytes).tree := by
  have hfolders : t.Holds (t.makeFolders p.parent).tree := makeFoldersFrom_holds _ _
  unfold store Change.andThen
  split
  · exact hfolders.trans (ofStep_holds fun _ => writeBytes_holds)
  · exact hfolders

/-- Whatever is done with files, folders do not go away. -/
theorem run_holds (a : Action) : t.Holds (a.run t).2 := by
  cases a with
  | write path bytes => exact store_holds path bytes
  | makeFolder path => exact makeFoldersFrom_holds _ _
  | delete path =>
    show t.Holds (Change.ofStep t (t.remove path)).tree
    exact ofStep_holds fun _ => remove_holds
  | read path | has path | list => exact .refl t

end Tree

end VisualNovel.Files
