import VisualNovel.Proofs.Life.Invariant
import VisualNovel.Proofs.Life.Keeping

/-!
# Performing inputs

The inputs of a session are performed as a whole, and a run that does not come to rest fails when
patience is exhausted. All sessions that come about in this way are part of a life, provided that
the scripts can be read and that the settings give a pace.

## Main definitions

* `Shelf.Readable`: the scripts can be read.

## Main results

* `Life.perform_ends`: a session at rest that has performed an input is at rest again, or it runs
  on without end.
-/

namespace VisualNovel

/-- The scripts can be read: looking for a node fails only in ways that are matters of dialogue. -/
def Shelf.Readable (w : Shelf) : Prop :=
  ∀ vs name context f, (w.find vs name context).result = .error f → f.isDialogue

namespace Life

open Act

variable {σ : Type} {o : Observer σ} {w : Shelf} {s : Session} {ys : List Stay} {st : Stage σ}
  (hreadable : w.Readable)

include hreadable

/-- A step of a run leads to a session that runs on or rests. -/
theorem step_ends (h : Life o w true s ys) (hw : st.shelf = w) (hs : st.session = s)
    {pace : Float} (hpace : s.settings.secondsPerCharacter = .ok pace) :
    Ends (step o.hear s.era) st
      (fun goesOn st' => st'.shelf = w ∧ s.Keeps st'.session ∧
        ∃ ys', Life o w goesOn st'.session ys') fun _ _ => False := by
  subst hs
  refine (Act.step_ends st o).and_eq.imp ?_ ?_
  · rintro goesOn st' ⟨⟨s', hs', hfollows⟩, hresult⟩
    exact ⟨hfollows.shelf.trans hw, hs'.keeps.trans hfollows.session.keeps, _,
      h.steps hw rfl hresult⟩
  · rintro f st' ⟨⟨s', hbreaks, -⟩, -⟩
    rw [hw] at hbreaks
    rcases Session.Running.breaks h.stands hbreaks with
      ⟨_, -, _, -, name, -, vs, context, hf, hnot⟩ | ⟨hf, -⟩
    · rw [hreadable vs name context f hf] at hnot
      cases hnot
    · rw [hpace] at hf
      cases hf

/-- A session at rest that has performed an input is at rest again, or it runs on without end. An
input may also fail at once. -/
theorem perform_ends (h : Life o w false s ys) (hw : st.shelf = w) (hs : st.session = s)
    {pace : Float} (hpace : s.settings.secondsPerCharacter = .ok pace) (i : Input) :
    Ends (i.perform o.hear) st
      (fun _ st' => s.Keeps st'.session ∧ ∃ ys', Life o w false st'.session ys')
      (fun f st' => s.Keeps st'.session ∧ ∃ running ys', Life o w running st'.session ys' ∧
        (running → f = .endless)) := by
  subst hs hw
  refine Input.perform_ends_of_prepare o
    (Q := fun st' => st.session.Keeps st'.session ∧ ∃ ys', Life o st.shelf false st'.session ys')
    (by simp) ?_
  refine (Input.prepare_ends st o i).and_eq.imp ?_ ?_
  · rintro (_ | seen) st' ⟨⟨s', hs', hfollows⟩, hresult⟩
    · exact ⟨hs'.keeps.trans hfollows.session.keeps, _, h.rests rfl rfl hresult⟩
    have hkeeps : st.session.Keeps { st'.session with seen } :=
      (hs'.keeps.trans hfollows.session.keeps).trans ⟨rfl, rfl, id⟩
    -- throughout the run the session is alive, and its settings are the same
    refine run_induction o
      (P := fun st₁ => st₁.shelf = st.shelf ∧ st.session.Keeps st₁.session ∧
        ∃ ys', Life o st.shelf true st₁.session ys') (fun st₁ ⟨hw₁, hkeeps₁, ys₁, h₁⟩ => ?_) ?_
      ⟨hfollows.shelf, hkeeps, _, h.begins rfl rfl hresult⟩
    · refine (h₁.step_ends hreadable hw₁ rfl (hkeeps₁.settings ▸ hpace)).imp ?_
        fun _ _ hf => hf.elim
      rintro goesOn st₂ ⟨hw₂, hkeeps₂, hlife⟩
      cases goesOn with
      | false => exact ⟨hkeeps₁.trans hkeeps₂, hlife⟩
      | true => exact ⟨hw₂, hkeeps₁.trans hkeeps₂, hlife⟩
    · rintro st₁ ⟨-, hkeeps₁, ys₁, h₁⟩
      exact ⟨hkeeps₁, true, ys₁, h₁, fun _ => rfl⟩
  · rintro f st' ⟨⟨s', hs', hfollows⟩, hresult⟩
    exact ⟨hs'.keeps.trans hfollows.session.keeps, false, _, h.fails rfl rfl hresult, by simp⟩

end Life

end VisualNovel
