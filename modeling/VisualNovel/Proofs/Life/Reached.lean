import VisualNovel.Proofs.Life.Invariant
import VisualNovel.Proofs.Life.Keeping

/-!
# Sessions that can be reached

A session that has begun with settings and variables and has performed inputs, well or not, is at
rest. The scripts have to be text for this, since a script that is none strikes in the middle of a
step. Nothing else is asked of the scripts, and nothing of the settings.

## Main definitions

* `Shelf.Legible`: every script is text;
* `Reached`: the sessions that a fresh one reaches by inputs.

## Main results

* `Session.Resting.perform`: an input leads from rest to rest;
* `Reached.resting`: sessions that can be reached are at rest.
-/

namespace VisualNovel

open Act

/-- A file is text. -/
def Files.Entry.isLegible : Files.Entry → Bool
  | .folder => true
  | .file bytes => (Text.decode? bytes).isSome

/-- Looking for a node in scripts that are text fails only in ways that are matters of dialogue. -/
theorem Script.isDialogue_of_searchFiles {name context : String} {vs : Variables}
    {fs : List (Files.Path × Files.Entry)} (hfs : ∀ e ∈ fs, e.2.isLegible) {f : Failure}
    (hf : (searchFiles name context vs fs).1 = .error f) : f.isDialogue := by
  rcases searchFiles_error hf with rfl | ⟨⟨path, entry⟩, hmem, hread⟩ | ⟨_, _, rfl⟩
  · rfl
  · have hlegible := hfs _ hmem
    cases entry with
    | folder =>
      obtain rfl := Except.error.inj hread
      rfl
    | file bytes =>
      obtain ⟨source, hsource⟩ := Option.isSome_iff_exists.mp hlegible
      simp [readSource, hsource] at hread
  · rfl

namespace Shelf

variable {w : Shelf}

/-- Every script is text. -/
def Legible (w : Shelf) : Prop := ∀ e ∈ Script.inFolder w.files w.scripts, e.2.isLegible

instance (w : Shelf) : Decidable w.Legible := inferInstanceAs (Decidable (∀ _ ∈ _, _))

/-- Where the folder of legible scripts can be looked at, because some node has been found in it,
looking for a node fails only in ways that are matters of dialogue. -/
theorem Legible.isDialogue (h : w.Legible) {vs vs' : Variables}
    {name name' context context' : String} {n : Node}
    (hn : (w.find vs' name' context').result = .ok n) {f : Failure}
    (hf : (w.find vs name context).result = .error f) : f.isDialogue := by
  unfold find Script.search Script.files at hn hf
  cases hhas : w.files.has w.scripts with
  | error fault => simp [hhas] at hn
  | ok there =>
    rw [hhas] at hf
    cases there with
    | true => exact Script.isDialogue_of_searchFiles h hf
    | false =>
      obtain rfl := Except.error.inj hf
      rfl

end Shelf

namespace Session

variable {σ : Type} {w : Shelf} {s s' : Session} {ys : List Stay} {st : Stage σ} (o : Observer σ)

/-- A step leads to a session that runs on or rests. If it fails, the session rests as well. -/
theorem Running.step_ends (hlegible : w.Legible) (h : st.session.Running w ys)
    (hw : st.shelf = w) :
    Ends (Act.step o.hear st.session.era) st
      (fun goesOn st' => if goesOn then st'.shelf = w ∧ ∃ ys', st'.session.Running w ys'
        else ∃ ys', st'.session.Resting w ys')
      (fun _ st' => ∃ ys', st'.session.Resting w ys') := by
  subst hw
  refine (Act.step_ends st o).imp ?_ ?_
  · rintro goesOn st' ⟨s', hs', hfollows⟩
    have hnext := h.step hs'
    cases goesOn with
    | true => exact ⟨hfollows.shelf, _, hnext.of_alike hfollows.session⟩
    | false => exact ⟨_, hnext.of_alike hfollows.session⟩
  · rintro f st' ⟨s', hs', hlike⟩
    rcases h.breaks hs' with ⟨_, -, _, -, name, -, vs, context, hf, hnot⟩ | ⟨-, hrest⟩
    · -- the innermost node has been found
      obtain ⟨p, hp, -⟩ := h
      obtain ⟨vs', hfound⟩ := hp.belongs.found
      rw [hlegible.isDialogue hfound hf] at hnot
      cases hnot
    · exact ⟨_, hrest.of_alike hlike⟩

/-- An input leads a session at rest to one at rest, unless it runs on without end. It may fail. -/
theorem Resting.perform (hlegible : w.Legible) (h : st.session.Resting w ys) (hw : st.shelf = w)
    (i : Input) :
    Ends (i.perform o.hear) st (fun _ st' => ∃ ys', st'.session.Resting w ys')
      (fun f st' => f ≠ .endless → ∃ ys', st'.session.Resting w ys') := by
  subst hw
  refine Input.perform_ends_of_prepare o (Q := fun st' => ∃ ys', st'.session.Resting st.shelf ys')
    (by simp) ?_
  refine (Input.prepare_ends st o i).imp ?_ ?_
  · rintro (_ | seen) st' ⟨s', hs', hfollows⟩
    · exact ⟨_, (h.rests hs').of_alike hfollows.session⟩
    · -- the run starts in a session that runs, and it goes on in such sessions
      refine run_induction o
        (P := fun st' => st'.shelf = st.shelf ∧ ∃ ys', st'.session.Running st.shelf ys')
        (fun st₁ ⟨hw₁, ys₁, h₁⟩ => ?_) (fun _ _ hne => absurd rfl hne)
        ⟨hfollows.shelf, _, (h.begins hs').of_alike (hfollows.session.remembering seen)⟩
      exact (h₁.step_ends o hlegible hw₁).imp (fun _ _ hends => hends) fun _ _ hrest _ => hrest
  · rintro f st' ⟨s', hs', hfollows⟩ -
    exact ⟨_, (h.rests hs').of_alike hfollows.session⟩

end Session

/-- The sessions over a shelf of scripts that a fresh one reaches by inputs. An input may fail, as
long as it comes to an end. -/
inductive Reached {σ : Type} (o : Observer σ) (w : Shelf) : Session → Prop where
  /-- A session begins with settings and variables. -/
  | fresh (settings : Settings) (vars : Variables) : Reached o w { settings, vars }
  /-- An input has been performed. -/
  | performed {s : Session} (h : Reached o w s) {st st' : Stage σ} (hw : st.shelf = w)
      (hs : st.session = s) {i : Input} (hi : i.perform o.hear st = .ok () st') :
      Reached o w st'.session
  /-- An input has failed. -/
  | failed {s : Session} (h : Reached o w s) {st st' : Stage σ} (hw : st.shelf = w)
      (hs : st.session = s) {i : Input} {f : Failure} (hf : f ≠ .endless)
      (hi : i.perform o.hear st = .error f st') : Reached o w st'.session

namespace Input

variable {σ : Type} (o : Observer σ)

/-- An input looks for nodes in the same place as the one before it. -/
theorem perform_shelf (i : Input) (st : Stage σ) :
    Ends (i.perform o.hear) st (fun _ st' => st'.shelf = st.shelf) fun _ _ => True := by
  refine perform_ends_of_prepare o (fun _ _ h => by simpa [Stage.shelf] using h) ?_
  refine (prepare_ends st o i).imp ?_ fun _ _ _ => trivial
  rintro (_ | seen) st' ⟨_, -, hfollows⟩
  · exact hfollows.shelf
  · refine run_induction o (P := fun st' => st'.shelf = st.shelf) (fun st₁ h₁ => ?_)
      (fun _ _ => trivial) hfollows.shelf
    refine (step_shelf o st₁).imp (fun goesOn st₂ h₂ => ?_) fun _ _ _ => trivial
    cases goesOn <;> exact h₂.trans h₁

/-- Performs inputs one after the other. -/
def performAll (hear : Listener σ) : List Input → Act σ Unit
  | [] => pure ()
  | i :: is => do
    i.perform hear
    performAll hear is

end Input

/-- Sessions that can be reached are at rest. -/
theorem Reached.resting {σ : Type} {o : Observer σ} {w : Shelf} {s : Session}
    (hlegible : w.Legible) (h : Reached o w s) : ∃ ys, s.Resting w ys := by
  induction h with
  | fresh _ _ => exact ⟨[], .nowhere rfl rfl rfl rfl rfl⟩
  | performed _ hw hs hi ih =>
    subst hs
    obtain ⟨ys, hrest⟩ := ih
    exact (hrest.perform o hlegible hw _).of_ok hi
  | failed _ hw hs hf hi ih =>
    subst hs
    obtain ⟨ys, hrest⟩ := ih
    exact (hrest.perform o hlegible hw _).of_error hi hf

end VisualNovel
