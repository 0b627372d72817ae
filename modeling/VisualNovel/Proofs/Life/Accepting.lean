import VisualNovel.Proofs.Life.Play
import VisualNovel.Proofs.Life.Reached
import VisualNovel.Proofs.Life.Refusing
import VisualNovel.Proofs.Life.Resuming
import VisualNovel.Proofs.Life.Telling

/-!
# Storing a session when an event is told

Hosts store sessions when they hear of events. A session that tells an event is at some place, so
what is stored of it is taken up again over the same scripts, unless it has an integer that is too
long. There is one exception. When a session tells that a node is complete, the node is off the
stack, but the cursor is still where it was in it. What is stored then is taken up only if that
cursor happens to fit the node below.

## Main definitions

* `Shelf.Accepts`, `Shelf.Rejects`: what becomes of a stored session over some scripts;
* `Session.Sits`: a session is nowhere or at some place;
* `Event.Occurs`: how a session stands when it tells an event;
* `Event.Recoverable`: what is stored when an event is told can be restored.

## Main results

* `Input.stored_on_event`: whatever an input leads a session to tell, what is stored then is
  accepted if it is recoverable, and rejected otherwise.
-/

namespace VisualNovel

open Act Entry

/-- The line of a node does not matter for the cursors that fit it. -/
theorem Node.fits_rewound {n : Node} {c : Cursor} : n.rewound.Fits c ↔ n.Fits c := by
  unfold Fits
  rw [blockMisfit?_eq_none_iff, blockMisfit?_eq_none_iff]
  exact Iff.rfl

instance (n : Node) (c : Cursor) : Decidable (n.Fits c) := inferInstanceAs (Decidable (_ ∧ _))

namespace Shelf

/-- Wherever a stored session is restored over these scripts, it is not refused, provided that those
who listen do not fail in ways that are matters of dialogue. -/
def Accepts (w : Shelf) (stored : String) : Prop :=
  ∀ (σ : Type) (hear : Listener σ) (st : Stage σ), (∀ e, FailsElsewhere (hear e)) →
    st.shelf = w → Ends (restore hear stored) st (fun _ _ => True) fun f _ => f.isRestore = false

/-- Wherever a stored session is restored over these scripts, it is refused. -/
def Rejects (w : Shelf) (stored : String) : Prop :=
  ∀ (σ : Type) (hear : Listener σ) (st : Stage σ), st.shelf = w →
    Ends (restore hear stored) st (fun _ _ => False) fun f _ => f.isRestore

/-- What is rejected is not accepted. -/
theorem Rejects.not_accepts {stored : String} {σ : Type} (st : Stage σ)
    (h : st.shelf.Rejects stored) : ¬st.shelf.Accepts stored := by
  intro haccepts
  have hends := (haccepts σ ignoring st (fun _ => .pure ()) rfl).and (h σ ignoring st rfl)
  cases hresult : restore ignoring stored st with
  | ok _ _ => exact (hends.of_ok hresult).2
  | error f _ =>
    obtain ⟨hno, hyes⟩ := hends.of_error hresult
    rw [hno] at hyes
    cases hyes

variable {w : Shelf} {t : Traversal} {ns : List Node} (hholds : List.Forall₂ w.Holds t.frames ns)

include hholds

/-- A traversal whose nodes are there is accepted if it can be read again and fits them. -/
theorem accepts_of_fits (hframes : t.frames ≠ []) (ht : t.Storable)
    (hfits : t.misfit? ns = none) : w.Accepts t.toText := by
  rintro σ hear st hhear rfl
  have hload := load_of_holds hholds st.session.vars
  -- a matter of dialogue is no longer to be expected when the nodes have been loaded
  have helsewhere {f : Failure} (hf : f.isDialogue = false) : f.isRestore = false := by
    by_contra hrestore
    rw [Failure.isDialogue_of_isRestore (by simpa using hrestore)] at hf
    cases hf
  refine restore_ends_of_load (fun f st' _ hrefuses _ => ?_) (fun _ f _ _ _ _ _ hf _ => ?_) ?_
  · have hnot := hrefuses t (Traversal.ofText_toText ht) hframes
    simp [Refuses, hload, hfits] at hnot
  · exact helsewhere hf
  · intro t' ns' vs st₁ _ _ _ _ _
    have hfails := failsElsewhere_resumeAt hhear t' ns'
    unfold Ends
    split
    · trivial
    · next f st' hresult => exact helsewhere (hfails _ _ _ hresult)

/-- It is refused if it does not. -/
theorem rejects_of_not (h : ¬(t.Storable ∧ t.misfit? ns = none)) : w.Rejects t.toText := by
  rintro σ hear st rfl
  have hload := load_of_holds hholds st.session.vars
  by_cases ht : t.Storable
  · have hmisfit : t.misfit? ns ≠ none := fun hnone => h ⟨ht, hnone⟩
    refine restore_ends_of_load (fun f st' hf _ _ => hf) ?_ ?_
    · intro t' f vs st' ht' _ hf _ _
      obtain rfl := Checked.valid.inj ((Traversal.ofText_toText ht).symm.trans ht')
      rw [hf] at hload
      cases hload
    · intro t' ns' vs st₁ ht' _ hns hnone _
      obtain rfl := Checked.valid.inj ((Traversal.ofText_toText ht).symm.trans ht')
      obtain rfl : ns' = ns := Except.ok.inj ((congrArg Prod.fst hns).symm.trans hload)
      exact absurd hnone hmisfit
  · unfold restore
    rw [Traversal.ofText_toText_of_not ht]
    rfl

end Shelf

/-- A session is in no node, or it is at some place, whatever it remembers of blocks. -/
def Session.Sits (w : Shelf) (s : Session) : Prop :=
  s.traversal.frames = [] ∨ ∃ seen ys p, Session.At w { s with seen } ys p

namespace Session

variable {w : Shelf} {s s' : Session} {ys : List Stay} {p : Place}

theorem At.sits (h : s.At w ys p) : s.Sits w := .inr ⟨s.seen, ys, p, h⟩

/-- What a session remembers of blocks when it begins to run does not matter. -/
theorem Running.sits {seen : List Visit} (h : { s with seen }.Running w ys) : s.Sits w := by
  obtain ⟨p, hp, -⟩ := h
  exact .inr ⟨seen, ys, p, hp⟩

/-- What is on show does not matter for this. -/
theorem Sits.of_alike (h : s.Sits w) (hs : s.Alike s') : s'.Sits w := by
  obtain ⟨_, _, _, _, _, rfl⟩ := hs
  exact h.imp id fun ⟨seen, ys, p, hp⟩ => ⟨seen, ys, p, hp.congr rfl rfl rfl⟩

theorem Resting.sits (h : s.Resting w ys) : s.Sits w := by
  cases h with
  | nowhere hframes _ _ _ _ => exact .inl hframes
  | halted hp _ _ => exact hp.sits
  | choosing hp _ _ _ => exact hp.sits
  | presenting hp _ _ _ _ _ _ _ => exact hp.sits

end Session

namespace Event

variable {w : Shelf} {e : Event} {s : Session}

/-- How a session stands when it tells an event: it sits at its place, or the event is that a node
is complete, which is off the stack already. -/
inductive Occurs (w : Shelf) : Event → Session → Prop where
  | sitting {e : Event} {s : Session} (h : s.Sits w) : Occurs w e s
  | popped {s : Session} {ys : List Stay} {p : Place} (h : s.At w ys p) :
      Occurs w (.nodeCompleted p.frame.node) (s.popped p.frame)

/-- What is stored of a session that tells an event can be restored: its integers can be read again,
and when a node is complete, the cursor that is left from it fits the node below. -/
structure Recoverable (e : Event) (s : Session) : Prop where
  storable : s.snapshot.Storable
  fits : ∀ name, e = .nodeCompleted name → ∀ n ∈ s.node, n.Fits s.traversal.cursor

/-- The nodes of a session that tells an event are there, and what is stored of it fits them exactly
if its cursor does in case of a completion. -/
theorem Occurs.exists_nodes (h : e.Occurs w s) (hframes : s.snapshot.frames ≠ []) :
    ∃ ns, List.Forall₂ w.Holds s.snapshot.frames ns ∧
      (s.snapshot.misfit? ns = none ↔
        ∀ name, e = .nodeCompleted name → ∀ n ∈ s.node, n.Fits s.traversal.cursor) := by
  cases h with
  | sitting h =>
    obtain ⟨seen, ys, p, hp⟩ := h.resolve_left hframes
    refine ⟨ys.map Stay.node, hp.holds, iff_of_true hp.misfit?_eq_none fun _ _ n hn => ?_⟩
    obtain rfl := Option.some.inj (hp.node_eq.symm.trans hn)
    rw [← Node.fits_rewound, hp.belongs.rewound]
    exact hp.fits
  | @popped s ys p hp =>
    have hpopped : (s.popped p.frame).snapshot.frames = p.frames := by
      show s.traversal.frames.dropLast = _
      rw [hp.frames, List.dropLast_concat]
    have hnodes : (s.popped p.frame).nodes = p.nodes := by
      show s.nodes.dropLast = _
      rw [hp.nodes, List.dropLast_concat]
    have hholds : List.Forall₂ w.Holds (s.popped p.frame).snapshot.frames
        (p.stays.map Stay.node) := by
      rw [hpopped]
      exact hp.below.holds
    refine ⟨p.stays.map Stay.node, hholds, ?_⟩
    -- the node that is on top now waits for its own cursor
    obtain ⟨fs, f, hfs⟩ := exists_concat (hpopped ▸ hframes)
    obtain ⟨ns, n, zs, y, hns, hzs, hstacked, hbelongs, -⟩ := (hfs ▸ hp.below).pop
    have hnode : (s.popped p.frame).node = some n := by
      rw [Session.node, hnodes, hns, List.getLast?_concat]
    rw [hzs, List.map_append, List.map_singleton,
      Traversal.misfit?_eq_none_iff (hpopped.trans hfs) hstacked.fits.length_eq, hnode,
      and_iff_right hstacked.fits, ← hbelongs.rewound, Node.fits_rewound]
    constructor
    · rintro hfits - - n' hn'
      obtain rfl := Option.some.inj hn'
      exact hfits
    · exact fun hfits => hfits _ rfl n rfl

/-- What is stored of a session that tells an event is accepted if it is recoverable, and rejected
if it is not. -/
theorem Occurs.accepts (h : e.Occurs w s) (hframes : s.snapshot.frames ≠ []) :
    (e.Recoverable s → w.Accepts s.stored) ∧ (¬e.Recoverable s → w.Rejects s.stored) := by
  obtain ⟨ns, hholds, hfits⟩ := h.exists_nodes hframes
  refine ⟨fun hyes => ?_, fun hno => ?_⟩
  · exact Shelf.accepts_of_fits hholds hframes hyes.storable (hfits.mpr hyes.fits)
  · exact Shelf.rejects_of_not hholds fun ⟨hs, hnone⟩ => hno ⟨hs, hfits.mp hnone⟩

end Event

/-- Whatever has been told was told at the right place. -/
def Stage.Placed (w : Shelf) (st : Stage (List Entry)) : Prop :=
  ∀ e s, told e s ∈ st.host → e.Occurs w s

namespace Stage.Placed

variable {w : Shelf} {st st' : Stage (List Entry)}

/-- So it is with what is told of a session as it sits in the end. -/
theorem of_tells (h : st.Placed w) (htells : st.Tells st') (hsits : st'.session.Sits w) :
    st'.Placed w := by
  obtain ⟨log, hhost, hlog⟩ := htells
  intro e s he
  rw [hhost] at he
  rcases List.mem_append.mp he with he | he
  · exact h e s he
  · exact .sitting (hsits.of_alike (hlog e s he).symm)

/-- So it is with what a step tells. -/
theorem of_reports (h : st.Placed w) (hreports : st.Reports st') {ys : List Stay} {p : Place}
    (hp : st.session.At w ys p) (hsits : st'.session.Sits w) : st'.Placed w := by
  obtain ⟨log, hhost, hlog⟩ := hreports
  intro e s he
  rw [hhost] at he
  rcases List.mem_append.mp he with he | he
  · exact h e s he
  · rcases hlog e s he with hlike | ⟨f, htop, rfl, rfl⟩
    · exact .sitting (hsits.of_alike hlike.symm)
    · obtain rfl := Option.some.inj (hp.top_eq.symm.trans htop)
      exact .popped hp

end Stage.Placed

namespace Input

variable {w : Shelf} {st : Stage (List Entry)}

/-- Each step of a run tells of the session that it leads to, or of the node that it completes. The
run may fail or have no end. -/
theorem run_placed (hlegible : w.Legible) {seen : List Visit} {ys : List Stay}
    (h : { st.session with seen }.Running w ys) (hw : st.shelf = w) (hplaced : st.Placed w) :
    Ends (run scribe.hear seen) st (fun _ st' => (∃ ys', st'.session.Resting w ys') ∧ st'.Placed w)
      fun _ st' => st'.Placed w := by
  refine run_induction scribe (P := fun st => (st.shelf = w ∧ ∃ ys, st.session.Running w ys) ∧
    st.Placed w) ?_ (fun _ h => h.2) ⟨⟨hw, ys, h⟩, hplaced⟩
  rintro st₁ ⟨⟨hw₁, ys₁, h₁⟩, hplaced₁⟩
  have ⟨p, hp, _⟩ := h₁
  refine ((h₁.step_ends scribe hlegible hw₁).and step_reports).imp ?_ ?_
  · rintro goesOn st₂ ⟨hnext, hreports⟩
    cases goesOn with
    | true =>
      obtain ⟨hw₂, ys₂, h₂⟩ := hnext
      exact ⟨⟨hw₂, ys₂, h₂⟩, hplaced₁.of_reports hreports hp h₂.sits⟩
    | false =>
      obtain ⟨ys₂, h₂⟩ := hnext
      exact ⟨⟨ys₂, h₂⟩, hplaced₁.of_reports hreports hp h₂.sits⟩
  · rintro f st₂ ⟨⟨ys₂, h₂⟩, hreports⟩
    exact hplaced₁.of_reports hreports hp h₂.sits

/-- Whatever an input leads a session at rest to tell is told at the right place, even if the input
fails or its run has no end. -/
theorem perform_placed (hlegible : w.Legible) {ys : List Stay} (h : st.session.Resting w ys)
    (hw : st.shelf = w) (hplaced : st.Placed w) (i : Input) :
    Ends (i.perform scribe.hear) st (fun _ st' => st'.Placed w) fun _ st' => st'.Placed w := by
  subst hw
  refine (perform_ends_of_prepare scribe (E := fun _ st' => st'.Placed st.shelf)
    (Q := fun st' => (∃ ys', st'.session.Resting st.shelf ys') ∧ st'.Placed st.shelf)
    ?_ ?_).imp (fun _ _ h => h.2) fun _ _ h => h
  · -- what is told behind a run is told of the session at rest
    rintro e st' ⟨⟨ys', hrest⟩, hplaced'⟩
    have htells : st'.Tells (scribe.react e st') := tells_hear e
    exact ⟨⟨ys', hrest⟩, hplaced'.of_tells htells hrest.sits⟩
  refine ((prepare_ends st scribe i).and i.prepare_tells).imp ?_ ?_
  · rintro (_ | seen) st' ⟨⟨s', hs', hfollows⟩, htells⟩
    · have hrest := (h.rests hs').of_alike hfollows.session
      exact ⟨⟨_, hrest⟩, hplaced.of_tells htells hrest.sits⟩
    · have hrunning := (h.begins hs').of_alike (hfollows.session.remembering seen)
      exact run_placed hlegible hrunning hfollows.shelf (hplaced.of_tells htells hrunning.sits)
  · rintro f st' ⟨⟨s', hs', hfollows⟩, htells⟩
    have hrest := (h.rests hs').of_alike hfollows.session
    exact hplaced.of_tells htells hrest.sits

section After

variable {σ : Type} {o : Observer σ} (hlegible : st.shelf.Legible)
  (hreached : Reached o st.shelf st.session) (hhost : st.host = []) (i : Input)

include hlegible hreached hhost

/-- Whatever a session that can be reached tells is told at the right place. -/
theorem after_placed : ((Request.input i).after scribe.hear st).Placed st.shelf := by
  obtain ⟨ys, hrest⟩ := hreached.resting hlegible
  have hnothing : st.Placed st.shelf := by simp [Stage.Placed, hhost]
  exact Request.after_of_ends (i.perform_placed hlegible hrest rfl hnothing)

/-- Over scripts that are text, let a session that can be reached perform a further input, whether
or not the input succeeds, and let the session be stored when it tells some event on the way and is
in a node. What has been stored is accepted over these scripts if its integers can be read again and
if, in case a node has just been completed, the cursor fits the node below. Otherwise it is
refused. -/
theorem stored_on_event {e : Event} {s : Session}
    (htold : told e s ∈ ((Request.input i).after scribe.hear st).host)
    (hframes : s.traversal.frames ≠ []) :
    (e.Recoverable s → st.shelf.Accepts s.stored) ∧
      (¬e.Recoverable s → st.shelf.Rejects s.stored) :=
  (after_placed hlegible hreached hhost i e s htold).accepts hframes

end After

/-- A stage on which somebody takes notes, with a node that leads to another one, where three
commands are carried out and nothing is said. -/
private def errand (back : List String) : Stage (List Entry) :=
  { Stage.ofScript (["#Node: main", "[GoTo=shop]"] ++ back ++
      ["#EndNode", "#Node: shop", "[Bow]", "[Wave]", "[Leave]", "#EndNode"]) with host := [] }

/-- If the node below is long enough for the cursor that is left, what is stored is accepted. -/
theorem stored_on_event_errand : ∃ s, told (.nodeCompleted "shop") s ∈
      ((Request.input (.start "main" "")).after scribe.hear (errand ["Done.", "Home."])).host ∧
    s.traversal.names = ["main"] ∧ (errand ["Done.", "Home."]).shelf.Accepts s.stored := by
  obtain ⟨s, htold, hs⟩ := exists_of_any_tells (e := .nodeCompleted "shop")
    ((Request.input (.start "main" "")).after scribe.hear (errand ["Done.", "Home."])).host
    (P := fun s => s.traversal.names = ["main"] ∧
      s.snapshot.Storable ∧ ∀ n ∈ s.node, n.Fits s.traversal.cursor) (by decide +kernel)
  obtain ⟨hnames, hstorable, hfits⟩ := of_decide_eq_true hs
  have hframes : s.traversal.frames ≠ [] := by
    intro hnil
    simp [Traversal.names, hnil] at hnames
  refine ⟨s, htold, hnames, ?_⟩
  exact (stored_on_event (o := (.noting : Observer Unit)) (by decide +kernel) (.fresh {} .empty)
    rfl _ htold hframes).1 ⟨hstorable, fun _ _ => hfits⟩

/-- It is not so that whatever is stored when an event is told is accepted: if the node below is
shorter than the one that is complete, it is refused. -/
theorem not_stored_on_event : ¬∀ (st : Stage (List Entry)) (i : Input) (e : Event) (s : Session),
    st.shelf.Legible → Reached (.noting : Observer Unit) st.shelf st.session → st.host = [] →
    told e s ∈ ((Request.input i).after scribe.hear st).host → s.traversal.frames ≠ [] →
    st.shelf.Accepts s.stored := by
  intro hall
  obtain ⟨s, htold, hs⟩ := exists_of_any_tells (e := .nodeCompleted "shop")
    ((Request.input (.start "main" "")).after scribe.hear (errand ["Home."])).host
    (P := fun s => s.traversal.names = ["main"] ∧ ¬∀ n ∈ s.node, n.Fits s.traversal.cursor)
    (by decide +kernel)
  obtain ⟨hnames, hnot⟩ := of_decide_eq_true hs
  have hframes : s.traversal.frames ≠ [] := by
    intro hnil
    simp [Traversal.names, hnil] at hnames
  have hlegible : (errand ["Home."]).shelf.Legible := by decide +kernel
  -- the cursor is behind the three lines of the shop, and the node below has two
  have hplaced := after_placed (o := (.noting : Observer Unit)) hlegible (.fresh {} .empty)
    rfl _ _ _ htold
  refine Shelf.Rejects.not_accepts (errand ["Home."]) ((hplaced.accepts hframes).2 fun hyes => ?_)
    (hall _ _ _ s hlegible (.fresh {} .empty) rfl htold hframes)
  exact hnot (hyes.fits _ rfl)

end Input

end VisualNovel
