import VisualNovel.Proofs.Life.Failing
import VisualNovel.Proofs.Life.Reached
import VisualNovel.Proofs.Life.Restore
import VisualNovel.Save.Folder

/-!
# Loading save slots

A slot that is loaded resumes the attached session. If nothing comes of that, the session should be
what it was before, and over scripts that are text it is. A script that is no text strikes where
nothing is undone: while the nodes of the slot are looked for, after declarations have been read, or
when the session runs on.

## Main definitions

* `SaveFolder.stored?`: what a slot holds for the session of the stage;
* `Shelf.Spares`: nothing comes of a stored session, and no declaration is left behind.

## Main results

* `Act.load_unchanged_iff`: when a slot from which nothing has been loaded has left the session as
  it was;
* `Act.load_unchanged_of_legible`: over scripts that are text it always has;
* `Act.exists_load_of_broken`: declarations that have been read before a script that is no text
  stay.
-/

namespace VisualNovel

/-- What a slot holds for the session of the stage to resume. -/
def SaveFolder.stored? (k : SaveFolder) (tree : Files.Tree) (type : SaveType) (slot : Int)
    (checked : Bool) : Option String :=
  match k.read tree type slot checked with
  | .ok (some r) => if k.attached then r.stored.toOption else none
  | _ => none

namespace SaveFolder

/-- What holds a session to resume is a save that can be stored again. -/
theorem stored?_eq_some {k : SaveFolder} {tree : Files.Tree} {type : SaveType} {slot : Int}
    {checked : Bool} {stored : String} : k.stored? tree type slot checked = some stored ↔
      ∃ r, k.read tree type slot checked = .ok (some r) ∧ k.attached ∧ r.stored = .ok stored := by
  unfold stored?
  split
  · next r hread =>
    cases hr : r.stored <;> simp [hread, hr, Except.toOption]
  · next hnot =>
    simp only [reduceCtorEq, false_iff, not_exists, not_and]
    exact fun r hread => absurd hread (hnot r)

end SaveFolder

namespace Shelf

variable {w : Shelf} {vs vs' : Variables} {f : Failure}

/-- Nothing comes of a stored session, and the variables are what they were: it is no traversal of
any node, it is refused, or its nodes cannot be loaded and no declaration has been read. -/
def Spares (w : Shelf) (vs : Variables) (stored : String) : Prop :=
  ∀ t, Traversal.ofText stored = .valid t → t.frames ≠ [] →
    w.Refuses vs t ∨ ∃ f, w.load vs t.frames = (.error f, vs)

/-- Where nodes have been loaded, some node has been found. -/
theorem exists_find_of_load {fs : List Frame} {ns : List Node} (hfs : fs ≠ [])
    (h : w.load vs fs = (.ok ns, vs')) :
    ∃ name context n, (w.find vs name context).result = .ok n := by
  cases fs with
  | nil => exact absurd rfl hfs
  | cons f fs =>
    cases hn : (w.find vs f.node f.context).result with
    | ok n => exact ⟨_, _, n, hn⟩
    | error e => simp [load, hn] at h

/-- Over scripts that are text, among which some node has been found, loading fails only in ways
that are matters of dialogue. -/
theorem Legible.isDialogue_of_load (hlegible : w.Legible) {vs₁ : Variables} {name context : String}
    {n : Node} (hn : (w.find vs₁ name context).result = .ok n) {fs : List Frame}
    (h : (w.load vs fs).1 = .error f) : f.isDialogue := by
  -- on the frames, whose nodes are looked for one after the other
  induction fs generalizing vs with
  | nil => cases h
  | cons frame fs ih =>
    simp only [load] at h
    cases hfound : (w.find vs frame.node frame.context).result with
    | error e =>
      rw [hfound] at h
      obtain rfl := Except.error.inj h
      exact hlegible.isDialogue hn hfound
    | ok m =>
      simp only [hfound] at h
      cases hrest : (w.load (w.find vs frame.node frame.context).vars fs).1 with
      | error e =>
        rw [hrest] at h
        obtain rfl := Except.error.inj h
        exact ih hrest
      | ok ns =>
        rw [hrest] at h
        cases h

/-- Over scripts that are text, loading fails in a way that is no matter of dialogue only before
anything has been read. -/
theorem Legible.eq_of_load (hlegible : w.Legible) {fs : List Frame}
    (h : w.load vs fs = (.error f, vs')) (hf : f.isDialogue = false) : vs' = vs := by
  -- once the first node has been found, loading can fail only in matters of dialogue
  cases fs with
  | nil => cases h
  | cons frame fs =>
    cases hfound : (w.find vs frame.node frame.context).result with
    | ok n =>
      rw [hlegible.isDialogue_of_load hfound (congrArg Prod.fst h)] at hf
      cases hf
    | error e =>
      simp only [load, hfound] at h
      obtain ⟨he, rfl⟩ := Prod.mk.inj h
      obtain rfl := Except.error.inj he
      -- only the folder of the scripts can have been the reason
      unfold find Script.search Script.files at hfound ⊢
      cases hhas : w.files.has w.scripts with
      | error fault => rfl
      | ok there =>
        rw [hhas] at hfound
        cases there with
        | true =>
          rw [Script.isDialogue_of_searchFiles hlegible hfound] at hf
          cases hf
        | false =>
          obtain rfl := Except.error.inj hfound
          cases hf

end Shelf

namespace Session

variable {w : Shelf} {s s' : Session} {f : Failure}

/-- A step that fails so as to spoil loading has tried to follow a command. -/
theorem Breaks.of_spoilsLoading (h : s.Breaks w f s') (hf : f.spoilsLoading) :
    s'.retired = s.retired ∧ f.isDialogue = false ∧
      ∃ vs name context, (w.find vs name context).result = .error f := by
  -- the other ways to break are faults of a traversal, which spoil no loading
  cases h with
  | unreadable _ _ _ _ _ hfind hdialogue => exact ⟨rfl, hdialogue, _, _, _, hfind⟩
  | noPace _ _ _ _ _ hpace =>
    obtain rfl := Settings.error_secondsPerCharacter hpace
    cases hf
  | _ => cases hf

end Session

namespace Act

variable {σ : Type} {st : Stage σ} (o : Observer σ)

/-- How steps fail so as to spoil loading: the session has stayed in its era, and a script was to
be read. -/
theorem steps_ends_of_spoilsLoading (era k : Nat) {rs : List Traversal} {w : Shelf}
    (hera : st.session.era = era) (hretired : st.session.retired = rs) (hw : st.shelf = w) :
    Ends (steps o.hear era k) st (fun _ _ => True) fun f st' => f.spoilsLoading →
      st'.session.retired = rs ∧ f.isDialogue = false ∧
        ∃ vs name context, (w.find vs name context).result = .error f := by
  subst hera
  -- the run stays over the same scripts, and its steps retire no traversal
  refine steps_induction o (P := fun st => st.session.retired = rs ∧ st.shelf = w)
    (Q := fun _ => True) (fun st₁ ⟨hretired₁, hw₁⟩ => ?_) (fun _ _ hf => by cases hf) k
    ⟨hretired, hw⟩
  refine (step_ends st₁ o).imp ?_ ?_
  · rintro goesOn st₂ ⟨s', hs', h₂⟩
    cases goesOn with
    | false => trivial
    | true =>
      exact ⟨(hs'.keeps.trans h₂.session.keeps).retired.trans hretired₁, h₂.shelf.trans hw₁⟩
  · rintro f st₂ ⟨s', hbreaks, hlike⟩ hf
    rw [hw₁] at hbreaks
    obtain ⟨hsame, hdialogue, hfind⟩ := hbreaks.of_spoilsLoading hf
    exact ⟨(hlike.keeps.retired.trans hsame).trans hretired₁, hdialogue, hfind⟩

/-- How a stored session fails to be resumed so as to spoil loading. Either it has come to nothing
before, or the session has gone over to it and a script was to be read. -/
theorem restore_ends_of_spoilsLoading (stored : String) :
    Ends (restore o.hear stored) st (fun _ _ => True) fun f st' => f.spoilsLoading →
      st.shelf.Spares st.session.vars stored ∧ st'.session = st.session ∨
        ¬st.shelf.Spares st.session.vars stored ∧ st'.session ≠ st.session ∧
          ¬st.shelf.Legible := by
  refine restore_ends_of_load ?_ ?_ ?_
  · -- it is refused, and declarations are undone
    intro f st₁ _ hrefuses h₁ _
    obtain ⟨remarks, rfl⟩ := h₁
    exact .inl ⟨fun t ht hframes => .inl (hrefuses t ht hframes), rfl⟩
  · -- its nodes cannot be loaded, and declarations stay
    intro t f vs st₁ ht hframes hload hdialogue h₁ _
    -- whether the session has changed depends on the declarations that had been read by then
    by_cases hvs : vs = st.session.vars
    · subst hvs
      obtain ⟨remarks, rfl⟩ := h₁
      refine .inl ⟨fun t' ht' _ => .inr ⟨f, ?_⟩, rfl⟩
      obtain rfl := Checked.valid.inj (ht.symm.trans ht')
      exact hload
    · refine .inr ⟨fun hspares => ?_, fun hsame => ?_, fun hlegible => ?_⟩
      · rcases hspares t ht hframes with hrefuses | ⟨f', hload'⟩
        · simp [Shelf.Refuses, hload, hdialogue] at hrefuses
        · exact hvs (Prod.mk.inj (hload.symm.trans hload')).2
      · obtain ⟨remarks, rfl⟩ := h₁
        exact hvs (congrArg Session.vars hsame)
      · exact hvs (hlegible.eq_of_load hload hdialogue)
  · -- it is taken up, and the traversal before it is retired for good
    intro t ns vs st₁ ht hframes hload hfits h₁
    have hnot : ¬st.shelf.Spares st.session.vars stored := by
      intro hspares
      rcases hspares t ht hframes with hrefuses | ⟨f', hload'⟩
      · simp [Shelf.Refuses, hload, hfits] at hrefuses
      · cases hload.symm.trans hload'
    refine resumeAt_ends o (R := fun _ => True) (fun st₂ h₂ => ?_) (fun _ _ => trivial)
      fun _ _ _ hf => by cases hf
    -- the traversal from before is retired, so the session is never again what it was
    have hretired : st₂.session.retired = st.session.retired ++ [st.session.traversal] := by
      obtain ⟨_, _, _, _, _, hs₂⟩ := h₂.session
      obtain ⟨remarks, rfl⟩ := h₁
      rw [hs₂]
      rfl
    have hw : st₂.shelf = st.shelf := h₂.shelf.trans h₁.follows.shelf
    refine (steps_ends_of_spoilsLoading o _ _ rfl hretired hw).imp (fun _ _ _ => trivial) ?_
    intro f st₃ hends hf
    obtain ⟨hretired₃, hdialogue, vs', name, context, hfind⟩ := hends hf
    refine .inr ⟨hnot, fun hsame => ?_, fun hlegible => ?_⟩
    · rw [hsame] at hretired₃
      simp at hretired₃
    · obtain ⟨name', context', n, hn⟩ := Shelf.exists_find_of_load hframes hload
      rw [hlegible.isDialogue hn hfind] at hdialogue
      cases hdialogue

variable {k : SaveFolder} {type : SaveType} {slot : Int} {checked : Bool}

/-- How a slot is read and resumed without success. -/
theorem readAndResume_ends {P : Session → Prop}
    (hnone : k.stored? st.files type slot checked = none → P st.session)
    (hsome : ∀ stored, k.stored? st.files type slot checked = some stored →
      Ends (restore o.hear stored) st (fun _ _ => True) fun f st' =>
        f.spoilsLoading → P st'.session) :
    Ends (readAndResume o.hear k type slot checked) st (fun r st' => r = none → P st'.session)
      fun f st' => f.spoilsLoading → P st'.session := by
  simp only [readAndResume, ends_bind, ends_get, ends_ofExcept]
  -- there is something to resume only in the last of these cases
  simp only [SaveFolder.stored?] at hnone hsome
  cases hread : k.read st.files type slot checked with
  | error f =>
    simp only [hread, forall_const] at hnone
    exact fun _ => hnone
  | ok r =>
    cases r with
    | none =>
      simp only [hread, forall_const] at hnone
      exact fun _ => hnone
    | some r =>
      simp only [hread] at hnone hsome
      cases hattached : k.attached with
      | false => simp
      | true =>
        simp only [hattached, if_true, ends_bind, ends_ofExcept] at hnone hsome ⊢
        cases hstored : r.stored with
        | error f =>
          simp only [hstored] at hnone ⊢
          exact fun _ => hnone rfl
        | ok stored =>
          simp only [hstored] at hsome ⊢
          refine (hsome stored rfl).imp (fun _ st' _ => ?_) fun _ _ hf => hf
          simp

/-- How a slot is loaded without success. -/
theorem load_ends {P : Session → Prop}
    (hnone : k.stored? st.files type slot checked = none → P st.session)
    (hsome : ∀ stored, k.stored? st.files type slot checked = some stored →
      Ends (restore o.hear stored) st (fun _ _ => True) fun f st' =>
        f.spoilsLoading → P st'.session) :
    Ends (load o.hear k type slot checked) st (fun r st' => r = none → P st'.session)
      fun _ _ => True := by
  simp only [load, ends_bind, ends_attempt]
  -- a failure that spoils loading is reported; what else may fail is none of this
  refine (readAndResume_ends o hnone hsome).imp ?_ ?_
  · intro r st' hr
    cases r with
    | none =>
      simp only [ends_bind, ends_remark, ends_pure]
      exact fun _ => hr rfl
    | some s =>
      simp only [announce, ends_bind, ends_ite, ends_hear, ends_pure]
      split <;> simp
  · intro f st' hf
    split
    · next hspoils =>
      simp only [announce, ends_remark, ends_ite, ends_hear, ends_pure]
      split
      · simpa using hf hspoils
      · simpa using hf hspoils
    · trivial

variable {o} {st' : Stage σ}

/-- A slot from which nothing has been loaded has left the session as it was exactly if nothing has
come of the stored session in it: the session has been refused, or a script could not be read before
any declaration had been read. -/
theorem load_unchanged_iff (h : load o.hear k type slot checked st = .ok none st') :
    st'.session = st.session ↔ ∀ stored ∈ k.stored? st.files type slot checked,
      st.shelf.Spares st.session.vars stored := by
  refine (load_ends o (P := fun s => s = st.session ↔
    ∀ stored ∈ k.stored? st.files type slot checked,
      st.shelf.Spares st.session.vars stored) ?_ ?_).of_ok h rfl
  · intro hnone
    simp [hnone]
  · intro stored hstored
    refine (restore_ends_of_spoilsLoading o stored).imp (fun _ _ _ => trivial) ?_
    intro f st₁ hends hf
    rw [hstored]
    rcases hends hf with ⟨hspares, hsame⟩ | ⟨hspares, hchanged, -⟩
    · simp [hspares, hsame]
    · simp [hspares, hchanged]

/-- Over scripts that are text, a slot from which nothing has been loaded has left the session as it
was. -/
theorem load_unchanged_of_legible (hlegible : st.shelf.Legible)
    (h : load o.hear k type slot checked st = .ok none st') : st'.session = st.session := by
  refine (load_ends o (P := fun s => s = st.session) (fun _ => rfl) fun stored _ => ?_).of_ok h rfl
  refine (restore_ends_of_spoilsLoading o stored).imp (fun _ _ _ => trivial) ?_
  intro f st₁ hends hf
  rcases hends hf with ⟨-, hsame⟩ | ⟨-, -, hnot⟩
  · exact hsame
  · exact absurd hlegible hnot

/-- A slot is not loaded whose nodes cannot be looked for because a script is no text, and the
declarations that have been read are not undone. -/
theorem exists_load_of_broken (o : Observer σ) {stored : String} {t : Traversal} {f : Failure}
    {vs : Variables} (hstored : k.stored? st.files type slot checked = some stored)
    (ht : Traversal.ofText stored = .valid t) (hframes : t.frames ≠ [])
    (hload : st.shelf.load st.session.vars t.frames = (.error f, vs)) (hf : f.isDialogue = false)
    (hspoils : f.spoilsLoading) :
    ∃ st', load o.hear k type slot checked st = .ok none st' ∧
      st'.session = st.session.withVars vs := by
  obtain ⟨r, hread, hattached, hr⟩ := SaveFolder.stored?_eq_some.mp hstored
  -- the session is neither refused nor taken up, since its nodes fail to load
  have hrestore : Ends (restore o.hear stored) st (fun _ _ => False) fun f' st' =>
      f'.spoilsLoading ∧ st'.session = st.session.withVars vs := by
    refine restore_ends_of_load (fun f' st₁ _ hrefuses _ => ?_) ?_ ?_
    · simpa [Shelf.Refuses, hload, hf] using hrefuses t ht hframes
    · intro t' f' vs' st₁ ht' _ hload' _ h₁
      obtain rfl := Checked.valid.inj (ht.symm.trans ht')
      obtain ⟨hf', rfl⟩ := Prod.mk.inj (hload.symm.trans hload')
      obtain rfl := Except.error.inj hf'
      obtain ⟨remarks, rfl⟩ := h₁
      exact ⟨hspoils, rfl⟩
    · intro t' ns vs' st₁ ht' _ hload' _ _
      obtain rfl := Checked.valid.inj (ht.symm.trans ht')
      cases hload.symm.trans hload'
  have hends : Ends (load o.hear k type slot checked) st
      (fun r' st' => r' = none ∧ st'.session = st.session.withVars vs) fun _ _ => False := by
    simp only [load, readAndResume, ends_bind, ends_attempt, ends_get, ends_ofExcept, hread,
      hattached, if_true, hr]
    refine hrestore.imp (fun _ _ hno => hno.elim) ?_
    rintro f' st₁ ⟨hspoils', hs₁⟩
    simp only [hspoils', if_true, announce, ends_remark, ends_ite, ends_hear, ends_pure]
    split <;> simpa using hs₁
  obtain ⟨r', st', hresult, rfl, hs'⟩ := hends.exists_ok
  exact ⟨st', hresult, hs'⟩

/-- A session in a node. -/
private def journey : Traversal := { frames := [{ node := "main" }] }

/-- What is stored of this session is read again. -/
private theorem ofText_journey : Traversal.ofText journey.toText = .valid journey :=
  Traversal.ofText_toText (by decide +kernel)

/-- The script files of a folder, of which the second is no text. -/
private def volumes (script : String) : List (Files.Path × Files.Entry) :=
  [(⟨.working, ["dialogue", "a.dlg"]⟩, .file script.toUTF8),
    (⟨.working, ["dialogue", "b.dlg"]⟩, .file ⟨#[255]⟩)]

/-- A stage with these scripts and with a slot that holds the session in a node. -/
private def archive (script : String) : Stage Unit where
  setup := ⟨⟨.working, ["dialogue"]⟩, [], ⟨2024, 1, 1, 0, 0⟩, 100⟩
  files := ⟨(["dialogue"], .folder) :: (volumes script).map (fun v => (v.1.parts, v.2)) ++
    [(["saves"], .folder), (["saves", "save_01.save"], .file ("\x7b\"slot_index\":1," ++
      "\"save_type\":\"\",\"timestamp\":\"\",\"state\":" ++
      "\x7b\"node_stack\":[\x7b\"node_name\":\"main\"\x7d]\x7d\x7d").toUTF8)]⟩
  session := { vars := .ofList [("seen", .int 5)] }
  notices := []
  remarks := []
  host := ()

/-- The folder of its slots. -/
private def shelves : SaveFolder := { path := ⟨.working, ["saves"]⟩ }

/-- The scripts are read in the order of their names. -/
private theorem files_archive (script : String) :
    Script.files (archive script).files (archive script).setup.scripts =
      .ok (volumes script, []) := by
  have hinside : ((archive script).files.entries.filter fun e =>
      ["dialogue"].isPrefixOf e.1 && ["dialogue"].length < e.1.length) =
        (volumes script).map fun v => (v.1.parts, v.2) := rfl
  -- the files are in order already, so sorting them changes nothing
  have hbelow : (archive script).files.below ["dialogue"] =
      (volumes script).map fun v => (v.1.parts, v.2) := by
    simp only [Files.Tree.below, hinside]
    refine List.mergeSort_of_pairwise ?_
    simp only [volumes, List.map_cons, List.map_nil, List.pairwise_pair]
    rfl
  have hlocate : (archive script).files.locate (archive script).setup.scripts =
      .ok (.inside ["dialogue"]) := rfl
  have hhas : (archive script).files.has (archive script).setup.scripts = .ok true := rfl
  have hfolder : (archive script).files.hasFolder (archive script).setup.scripts = true := rfl
  simp only [Script.files, Script.inFolder, hhas, hlocate, hfolder, hbelow]
  rfl

/-- The slot holds the session, whatever the scripts are. -/
private theorem stored_archive (script : String) :
    shelves.stored? (archive script).files .manual 1 true = some journey.toText := by
  -- what the slot holds does not depend on the scripts, so they may be taken as empty
  have hread : (shelves.read (archive "").files .manual 1 true).toOption =
      some (some ⟨⟨1, .manual, "", "", journey⟩, none⟩) := by decide +kernel
  have hsame : shelves.read (archive script).files .manual 1 true =
      shelves.read (archive "").files .manual 1 true := rfl
  refine SaveFolder.stored?_eq_some.mpr ⟨⟨⟨1, .manual, "", "", journey⟩, none⟩, ?_, rfl, rfl⟩
  rw [hsame]
  cases hresult : shelves.read (archive "").files .manual 1 true with
  | error f => simp [hresult, Except.toOption] at hread
  | ok r => simpa [hresult, Except.toOption] using hread

/-- What becomes of the variables when the slot is loaded. -/
private theorem load_archive {script : String} {vs : Variables}
    (h : Script.searchFiles "main" "" (archive script).session.vars (volumes script) =
      (.error .notText, vs)) :
    (archive script).shelf.load (archive script).session.vars journey.frames =
      (.error .notText, vs) := by
  simp only [journey, Shelf.load, Shelf.find, Script.search, Stage.shelf, files_archive, h]

/-- Nothing is loaded from the slot, and declarations that have been read stay. -/
private theorem exists_load_archive {script : String} {vs : Variables}
    (h : Script.searchFiles "main" "" (archive script).session.vars (volumes script) =
      (.error .notText, vs)) :
    ∃ st', load (.noting : Observer Unit).hear shelves .manual 1 true (archive script) =
      .ok none st' ∧ st'.session = (archive script).session.withVars vs :=
  exists_load_of_broken .noting (stored_archive script) ofText_journey (by simp [journey])
    (load_archive h) rfl rfl

/-- Nothing is loaded from the slot because of the script that is no text. No declaration has been
read before, and the session is what it was. -/
theorem load_unchanged_archive : ∃ st',
    load (.noting : Observer Unit).hear shelves .manual 1 true (archive "") = .ok none st' ∧
      (shelves.stored? (archive "").files .manual 1 true).isSome ∧
      st'.session = (archive "").session := by
  have hsearch : Script.searchFiles "main" "" (archive "").session.vars (volumes "") =
      (.error .notText, (archive "").session.vars) := rfl
  obtain ⟨st', h, -⟩ := exists_load_archive hsearch
  refine ⟨st', h, by simp [stored_archive], (load_unchanged_iff h).mpr fun stored hstored => ?_⟩
  obtain rfl := Option.some.inj ((stored_archive "").symm.trans hstored)
  intro t ht _
  obtain rfl := Checked.valid.inj (ofText_journey.symm.trans ht)
  exact .inr ⟨.notText, load_archive hsearch⟩

/-- It is not so that a slot from which nothing has been loaded has always left the session as it
was: a script that is no text strikes after a declaration has been read. -/
theorem not_load_unchanged : ¬∀ (st st' : Stage Unit) (k : SaveFolder) type slot checked,
    load (.noting : Observer Unit).hear k type slot checked st = .ok none st' →
    st'.session.traversal = st.session.traversal ∧ st'.session.nodes = st.session.nodes ∧
      st'.session.phase = st.session.phase ∧ st'.session.line = st.session.line ∧
      st'.session.vars = st.session.vars := by
  intro hall
  have hsearch : Script.searchFiles "main" "" (archive "var seen = 1\n").session.vars
      (volumes "var seen = 1\n") = (.error .notText, .ofList [("seen", .int 1)]) := rfl
  obtain ⟨st', h, hsession⟩ := exists_load_archive hsearch
  have hvars := (hall _ _ _ _ _ _ h).2.2.2.2
  rw [hsession] at hvars
  -- the declaration has been read from the first file, and it stays
  have hchanged : Variables.ofList [("seen", .int 1)] ≠ .ofList [("seen", .int 5)] := by decide
  exact hchanged hvars

end Act

end VisualNovel
