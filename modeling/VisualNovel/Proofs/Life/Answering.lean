import VisualNovel.Proofs.Life.Play
import VisualNovel.Proofs.Life.Secure

/-!
# What becomes of a session that has been restored

A stored traversal that is accepted may have been edited. Whatever the reader then does, each block,
option and branch that is looked up is there, provided that every cursor is answerable. Where one is
not, more than one choice is missing, and an answer to the decision that is asked may be recorded
for a decision that has no such option.

## Main definitions

* `Traversal.Answerable`: every cursor of a traversal is answerable;
* `Input.Offered`: what the reader is offered to do;
* `Session.Later`: the sessions to which this leads.

## Main results

* `Session.Sound.perform`: an input that is offered leads from one sound session to another, and
  does not fail because an index is out of range;
* `Act.restore_sound`: a traversal that is accepted and answerable leads to a sound session;
* `Act.restore_in_range`: from then on no index is out of range.
-/

namespace VisualNovel

open List (Forall₂)

/-- Every cursor of a traversal is answerable for its node. -/
def Traversal.Answerable (t : Traversal) (ns : List Node) : Prop :=
  Forall₂ (fun f n => n.Answerable f.suspended) t.frames.dropLast ns.dropLast ∧
    ∀ n ∈ ns.getLast?, n.Answerable t.cursor

/-- A traversal each of whose cursors misses a single choice at most is answerable. -/
theorem Traversal.answerable_of_length_le {t : Traversal} {ns : List Node}
    (hlength : t.frames.length = ns.length)
    (hframes : ∀ f ∈ t.frames.dropLast,
      f.suspended.decisions.length ≤ f.suspended.choices.length + 1)
    (hcursor : t.cursor.decisions.length ≤ t.cursor.choices.length + 1) : t.Answerable ns := by
  refine ⟨List.forall₂_iff_zip.mpr ⟨by simp [hlength], fun hfn => ?_⟩, fun n _ =>
    Node.answerable_of_length_le hcursor⟩
  exact Node.answerable_of_length_le (hframes _ (List.of_mem_zip hfn).1)

/-- The reader may do this: while there is something to choose, an index is that of an option on
show. -/
def Input.Offered (s : Session) : Input → Prop
  | decide index => s.phase = .choosing → 0 ≤ index ∧ index < s.labels.length
  | _ => True

instance (s : Session) : (i : Input) → Decidable (i.Offered s)
  | .decide index => inferInstanceAs (Decidable (s.phase = .choosing → 0 ≤ index ∧ _))
  | .start _ _ | .advance | .update _ | .toggleAuto | .toggleFastForward | .pause | .resume =>
    .isTrue trivial

/-- The sessions over a shelf of scripts to which another one leads by what the reader may do. An
input may fail, as long as it comes to an end. -/
inductive Session.Later {σ : Type} (o : Observer σ) (w : Shelf) (s₀ : Session) :
    Session → Prop where
  /-- Nothing has been done. -/
  | now : Later o w s₀ s₀
  /-- An input has been performed. -/
  | performed {s : Session} (h : Later o w s₀ s) {st st' : Stage σ} (hw : st.shelf = w)
      (hs : st.session = s) {i : Input} (hoffered : i.Offered s)
      (hi : i.perform o.hear st = .ok () st') : Later o w s₀ st'.session
  /-- An input has failed. -/
  | failed {s : Session} (h : Later o w s₀ s) {st st' : Stage σ} (hw : st.shelf = w)
      (hs : st.session = s) {i : Input} (hoffered : i.Offered s) {f : Failure} (hf : f ≠ .endless)
      (hi : i.perform o.hear st = .error f st') : Later o w s₀ st'.session

open Act

namespace Session

variable {σ : Type} {w : Shelf} {st : Stage σ} (o : Observer σ)

/-- A step of a session that runs leads to one that runs on or rests. If it fails, this is not
because an index is out of range, and the session rests as well. -/
theorem Underway.step_ends (hlegible : w.Legible) (h : st.session.Underway w) (hw : st.shelf = w) :
    Ends (Act.step o.hear st.session.era) st
      (fun goesOn st' => if goesOn then st'.shelf = w ∧ st'.session.Underway w
        else st'.session.Sound w)
      (fun f st' => f.isIndex = false ∧ (f ≠ .endless → st'.session.Sound w)) := by
  subst hw
  refine (Act.step_ends st o).imp ?_ ?_
  · rintro goesOn st₁ ⟨s', hs', hfollows⟩
    have hnext := h.step hs'
    cases goesOn with
    | true => exact ⟨hfollows.shelf, hnext.of_alike hfollows.session⟩
    | false => exact hnext.of_alike hfollows.session
  · rintro f st₁ ⟨s', hs', hlike⟩
    obtain ⟨hf, hsound⟩ := h.breaks hlegible hs'
    exact ⟨hf, fun _ => hsound.of_alike hlike⟩

/-- Whether a session starts at a node or not, this does not fail because an index is out of
range. -/
theorem prepare_start_ends (node context : String) :
    Ends ((Input.start node context).prepare o.hear) st (fun _ _ => True)
      fun f _ => f.isIndex = false := by
  simp only [Input.prepare, ends_bind, ends_edit]
  -- whether the node has been opened or not, nothing fails from then on
  have hrest (b : Bool) (st' : Stage σ) : Ends (if b then (return some [] : Act σ _) else do
      endSession o.hear
      return (none : Option (List Visit))) st' (fun _ _ => True) fun f _ => f.isIndex = false := by
    cases b with
    | true => trivial
    | false =>
      simp only [Bool.false_eq_true, if_false, ends_bind]
      exact endSession_ends o fun _ _ => trivial
  exact openNode_ends o (fun _ => hrest _ _) (fun _ _ _ _ _ _ => hrest _ _)
    (fun _ _ _ _ _ _ => hrest _ _) (fun _ _ _ hf _ _ => Shelf.isIndex_of_find hf)
    fun _ _ _ hf _ _ => Shelf.isIndex_of_find hf

/-- Where an option on show is taken, the decision and the option are there. -/
theorem Sound.takeOption_ends (h : st.session.Sound w) {index : Int}
    (hoffered : (Input.decide index).Offered st.session) :
    Ends (takeOption o.hear index) st (fun _ _ => True) fun f _ => f.isIndex = false := by
  simp only [takeOption, ends_bind, ends_session, ends_ite, ends_remark]
  split
  · trivial
  next hphase =>
  have hphase : st.session.phase = .choosing := not_ne_iff.mp hphase
  have hchoosing : st.session.isChoosing := by simp [isChoosing, hphase]
  cases h with
  | nowhere _ _ _ hidle => simp [hidle] at hphase
  | inside h _ hwaits =>
    obtain ⟨d, -, hd⟩ := h.exists_openDecision (hwaits hchoosing)
    -- the labels on show are those of the options of this decision
    have hlabels : st.session.labels.length = d.options.length := by
      simp [labels, hchoosing, hd, Decision.labels]
    obtain ⟨c, hc⟩ := exists_at?_iff.mpr (hlabels ▸ hoffered hphase)
    have hrest (st' : Stage σ) : Ends currentNode st' (fun _ _ => True)
        fun f _ => f.isIndex = false := by
      simp only [currentNode, ends_bind, ends_session]
      split
      · trivial
      · rfl
    simp only [hd, hc, ends_bind, ends_editTraversal, ends_ask, ends_hear, ends_session, ends_ite,
      ends_pure]
    split
    · exact setMode_ends o fun st' _ => hrest st'
    · exact hrest _

/-- What is done at once for an input that is offered does not fail because an index is out of
range. -/
theorem Sound.prepare_ends (h : st.session.Sound w) {i : Input} (hoffered : i.Offered st.session) :
    Ends (i.prepare o.hear) st (fun _ _ => True) fun f _ => f.isIndex = false := by
  -- only a choice looks an index up, so it is the only input that needs the session to be sound
  cases i with
  | start node context => exact prepare_start_ends o node context
  | advance =>
    simp only [Input.prepare, ends_bind, ends_session]
    split
    · simp only [ends_ite, ends_bind]
      split
      · exact setMode_ends o fun _ _ => trivial
      · split
        · exact leaveLine_ends fun _ _ => trivial
        · exact showWhole_ends o fun _ _ => trivial
    · trivial
  | update dt =>
    simp only [Input.prepare, ends_bind, ends_session]
    split
    · simp only [ends_ite, ends_bind]
      split
      · exact waitOut_ends (fun _ _ => trivial) fun _ _ => trivial
      · exact type_ends o fun _ _ => trivial
    · trivial
  | decide index => exact h.takeOption_ends o hoffered
  | toggleAuto =>
    simp only [Input.prepare, Act.toggleAuto, ends_bind, ends_session]
    exact setMode_ends o fun _ _ => trivial
  | toggleFastForward =>
    simp only [Input.prepare, Act.toggleFastForward, ends_bind, ends_session, ends_ite]
    split
    · exact setMode_ends o fun _ _ => trivial
    · exact setMode_ends o fun _ _ => showWhole_ends o fun _ _ => trivial
  | pause => trivial
  | resume => trivial

/-- An input that is offered leads a session at rest to one at rest, unless it runs on without end.
It may fail, but not because an index is out of range. -/
theorem Sound.perform (hlegible : w.Legible) (h : st.session.Sound w) (hw : st.shelf = w)
    {i : Input} (hoffered : i.Offered st.session) :
    Ends (i.perform o.hear) st (fun _ st' => st'.session.Sound w)
      (fun f st' => f.isIndex = false ∧ (f ≠ .endless → st'.session.Sound w)) := by
  subst hw
  refine Input.perform_ends_of_prepare o (Q := fun st' => st'.session.Sound st.shelf) (by simp) ?_
  refine ((Input.prepare_ends st o i).and (h.prepare_ends o hoffered)).imp ?_ ?_
  · rintro (_ | seen) st' ⟨⟨s', hs', hfollows⟩, -⟩
    · exact (h.rests hs').of_alike hfollows.session
    · -- the run starts in a session that is underway, and each step keeps it so until it rests
      exact run_induction o (P := fun st' => st'.shelf = st.shelf ∧ st'.session.Underway st.shelf)
        (fun st₁ ⟨hw₁, h₁⟩ => h₁.step_ends o hlegible hw₁)
        (fun _ _ => ⟨rfl, fun hne => absurd rfl hne⟩)
        ⟨hfollows.shelf, ((h.begins hs').of_alike hfollows.session).remembering seen⟩
  · rintro f st' ⟨⟨s', hs', hfollows⟩, hf⟩
    exact ⟨hf, fun _ => (h.rests hs').of_alike hfollows.session⟩

/-- Whatever the reader does who is offered it, a session at rest stays one. -/
theorem Later.sound {s₀ s : Session} {o : Observer σ} (hlegible : w.Legible)
    (hlater : s₀.Later o w s) (h : s₀.Sound w) : s.Sound w := by
  induction hlater with
  | now => exact h
  | performed _ hw hs hoffered hi ih =>
    subst hs
    exact (ih.perform o hlegible hw hoffered).of_ok hi
  | failed _ hw hs hoffered hf hi ih =>
    subst hs
    exact ((ih.perform o hlegible hw hoffered).of_error hi).2 hf

end Session

namespace Act

variable {σ : Type} {o : Observer σ} {st : Stage σ} {t : Traversal} {ns : List Node}

/-- A session that takes up a traversal which fits the nodes loaded for it and is answerable is in
nodes of the scripts. -/
theorem underway_takenUp {w : Shelf} {vs : Variables} (s : Session) (hframes : t.frames ≠ [])
    (hload : (w.load vs t.frames).1 = .ok ns) (hfits : t.misfit? ns = none)
    (hanswerable : t.Answerable ns) : (s.takenUp t ns).Underway w := by
  have hholds := Shelf.holds_of_load hload
  have hnodes : (s.takenUp t ns).nodes.map Node.rewound = ns :=
    (Traversal.map_rewound_nodesAt hholds.length_eq).trans (Shelf.map_rewound_of_holds hholds)
  obtain ⟨fs, f, hfs⟩ := exists_concat hframes
  rw [hfs] at hholds
  obtain ⟨ns, n, rfl⟩ := exists_concat_of_forall₂ hholds
  obtain ⟨hbelow, hheld⟩ := forall₂_concat.mp hholds
  -- the frames that wait and the one that goes on have been checked apart
  obtain ⟨hsuspended, hcursor⟩ := (Traversal.misfit?_eq_none_iff hfs hbelow.length_eq).mp hfits
  obtain ⟨hanswers, hanswer⟩ := hanswerable
  rw [hfs, List.dropLast_concat, List.dropLast_concat] at hanswers
  refine ⟨⟨fs, f, ns, n, hfs, hnodes, ?_, hheld.keeps, ?_⟩, fun hhalted => ?_⟩
  · have hsecure := hsuspended.mp (fun f n hfits h => Node.Fits.secure hfits h) hanswers
    exact hbelow.mp (fun f n hheld h => ⟨hheld.keeps, h⟩) hsecure
  · exact hcursor.secure (hanswer n (by simp))
  · cases hhalted

/-- A stored traversal that is accepted, and each of whose cursors is answerable, leads to a session
that rests in nodes of the scripts. -/
theorem restore_sound {stored : String} (hlegible : st.shelf.Legible)
    (ht : Traversal.ofText stored = .valid t)
    (hanswerable : ∀ ns, (st.shelf.load st.session.vars t.frames).1 = .ok ns → t.Answerable ns) :
    Ends (restore o.hear stored) st (fun _ st' => st'.session.Sound st.shelf) fun _ _ => True := by
  refine restore_ends_of_load (fun _ _ _ _ _ => trivial) (fun _ _ _ _ _ _ _ _ _ => trivial) ?_
  intro t' ns vs st₁ ht' hframes hload hfits h₁
  obtain rfl := Checked.valid.inj (ht.symm.trans ht')
  have hload := congrArg Prod.fst hload
  have hunderway := underway_takenUp st₁.session hframes hload hfits (hanswerable ns hload)
  refine resumeAt_ends o (R := fun st' => st'.session.Sound st.shelf) (fun st₂ h₂ => ?_)
    (fun _ hsound => hsound.unrecorded) fun _ _ _ => trivial
  -- the run from the cursor that has been taken up, step by step
  refine steps_induction o (P := fun st' => st'.shelf = st.shelf ∧ st'.session.Underway st.shelf)
    (fun st₃ ⟨hw₃, h₃⟩ => ?_) (fun _ _ => trivial) _
    ⟨h₂.shelf.trans h₁.follows.shelf, hunderway.of_alike h₂.session⟩
  exact (h₃.step_ends o hlegible hw₃).imp (fun _ _ h => h) fun _ _ _ => trivial

/-- A stored session that is restored is safe to play if each of its cursors is answerable: whatever
the reader is offered and does from then on, no index is out of range. -/
theorem restore_in_range {stored : String} (hlegible : st.shelf.Legible)
    (ht : Traversal.ofText stored = .valid t)
    (hanswerable : ∀ ns, (st.shelf.load st.session.vars t.frames).1 = .ok ns → t.Answerable ns)
    {st₀ : Stage σ} (hrestore : restore o.hear stored st = .ok () st₀) {s : Session}
    (hlater : st₀.session.Later o st.shelf s) {st₁ : Stage σ} (hw : st₁.shelf = st.shelf)
    (hs : st₁.session = s) {i : Input} (hoffered : i.Offered s) :
    Ends (i.perform o.hear) st₁ (fun _ _ => True) fun f _ => f.isIndex = false := by
  subst hs
  have hsound := (restore_sound hlegible ht hanswerable).of_ok hrestore
  exact ((hlater.sound hlegible hsound).perform o hlegible hw hoffered).imp (fun _ _ _ => trivial)
    fun _ _ h => h.1

/-- A script with a decision of one option in front of one of two. -/
private def staircase : Stage Unit := .ofScript
  ["#Node: main", "#StartDecision", "-Up", "Higher.", "#EndDecision", "#StartDecision", "-Left",
    "-Right", "#EndDecision", "There.", "#EndNode"]

/-- A stored session at the line of the second decision, where decisions wait. -/
private def landing (waiting : List Int) : Traversal where
  frames := [{ node := "main" }]
  cursor := { line := 1, decisions := waiting }

/-- The script is text. -/
private theorem staircase_legible : staircase.shelf.Legible := by decide +kernel

/-- What is stored of the session is restored by taking it up. -/
private theorem restore_landing {waiting : List Int} (h : (landing waiting).Storable) :
    restore (.noting : Observer Unit).hear (landing waiting).toText =
      loadOrUndo (landing waiting) >>= resumeAt (.noting : Observer Unit).hear (landing waiting) :=
  restore_of_valid (Traversal.ofText_toText h) (by simp [landing])

/-- Where a single decision waits, it is asked. -/
private theorem landing_asks : Ends (restore (.noting : Observer Unit).hear (landing [1]).toText)
    staircase (fun _ st₀ => st₀.session.labels = ["Left", "Right"]) fun _ _ => False := by
  rw [restore_landing (by decide +kernel)]
  decide +kernel

/-- Where two decisions wait, the second one is asked for both of them, and an option of it that is
recorded for the first one is missed in the end. -/
private theorem landing_fails : Ends
    (restore (.noting : Observer Unit).hear (landing [0, 1]).toText) staircase
    (fun _ st₀ => (Input.decide 1).Offered st₀.session ∧
      Ends ((Input.decide 1).perform (.noting : Observer Unit).hear) st₀
        (fun _ st₁ => (Input.decide 0).Offered st₁.session ∧
          Ends ((Input.decide 0).perform (.noting : Observer Unit).hear) st₁ (fun _ _ => False)
            fun f _ => f.isIndex = true)
        fun _ _ => False)
    fun _ _ => False := by
  rw [restore_landing (by decide +kernel)]
  decide +kernel

/-- Where a single decision waits, it is asked when the session is restored, and each of its options
may be chosen. -/
theorem restore_in_range_staircase : ∃ st₀,
    restore (.noting : Observer Unit).hear (landing [1]).toText staircase = .ok () st₀ ∧
      st₀.session.labels = ["Left", "Right"] ∧
      Ends ((Input.decide 1).perform (.noting : Observer Unit).hear) st₀ (fun _ _ => True)
        fun f _ => f.isIndex = false := by
  obtain ⟨_, st₀, hrestore, hlabels⟩ := landing_asks.exists_ok
  refine ⟨st₀, hrestore, hlabels, ?_⟩
  refine restore_in_range staircase_legible (t := landing [1])
    (Traversal.ofText_toText (by decide +kernel)) (fun ns hload => ?_) hrestore .now
    ((restore_shelf .noting _ _).of_ok hrestore) rfl ?_
  · have hlength := (Shelf.holds_of_load hload).length_eq
    exact Traversal.answerable_of_length_le hlength (by simp [landing]) (by decide)
  · simp [Input.Offered, hlabels]

/-- It is not so that every stored session that is restored is safe to play: where two decisions
wait, the reader may choose an option of the inner one that the outer one does not have. -/
theorem not_restore_in_range : ¬∀ (st st₀ st₁ : Stage Unit) stored s (i : Input),
    st.shelf.Legible → restore (.noting : Observer Unit).hear stored st = .ok () st₀ →
    st₀.session.Later (.noting : Observer Unit) st.shelf s → st₁.shelf = st.shelf →
    st₁.session = s → i.Offered s →
    Ends (i.perform (.noting : Observer Unit).hear) st₁ (fun _ _ => True)
      fun f _ => f.isIndex = false := by
  intro hall
  obtain ⟨_, st₀, hrestore, hoffered, hends⟩ := landing_fails.exists_ok
  obtain ⟨_, st₁, hdecide, hoffered₁, hends⟩ := hends.exists_ok
  have hshelf := (restore_shelf .noting _ _).of_ok hrestore
  have hshelf₁ := ((Input.decide 1).perform_shelf .noting st₀).of_ok hdecide
  have hsafe := hall staircase st₀ st₁ _ _ (.decide 0) staircase_legible hrestore
    (Session.Later.now.performed hshelf rfl hoffered hdecide) (hshelf₁.trans hshelf) rfl hoffered₁
  -- the last choice both fails with such an index and does not
  have hboth := hends.and hsafe
  unfold Ends at hboth
  split at hboth
  · exact hboth.1
  · simp [hboth.1] at hboth

end Act

end VisualNovel
