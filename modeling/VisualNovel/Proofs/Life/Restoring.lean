import VisualNovel.Proofs.Life.Play
import VisualNovel.Proofs.Life.Resuming

/-!
# Storing and restoring a session

A session that waits for the reader can be stored as text, and another one over the same scripts can
be restored from it. What comes about is the stored session again exactly if the integers in it can
be read again and if the first step of the restored session leads back to where the stored one
waits.

## Main results

* `Life.restored_iff`: when a stored session is restored to what it was.
-/

namespace VisualNovel

namespace Session

variable {w : Shelf} {s : Session} {ys : List Stay}

/-- A session that waits for the reader is at a decision or at a line. -/
theorem Resting.waits (h : s.Resting w ys)
    (hphase : s.phase = .presenting ∨ s.phase = .choosing) :
    ∃ p, s.At w ys p ∧ ((∃ d, p.stance = .asking d ∧ s.phase = .choosing) ∨
      p.stance = .showing ∧ s.phase = .presenting ∧
        ∃ text, at? p.node.lines p.cursor.line = some text ∧
          Command.isCommandLine text.toList = false ∧
          (Spoken.ofLine text).text.isEmpty = false ∧ s.line = some (Spoken.ofLine text)) := by
  have hpaused : s.phase ≠ .paused := by
    rintro hp
    rw [hp] at hphase
    simp at hphase
  cases h with
  | nowhere _ _ _ _ hidle => simp [hidle] at hphase
  | halted _ _ hidle => simp [hidle] at hphase
  | choosing hp hst hawaits _ =>
    rcases hawaits with hchoosing | ⟨hpause, -⟩
    · exact ⟨_, hp, .inl ⟨_, hst, hchoosing⟩⟩
    · exact absurd hpause hpaused
  | presenting hp hst hawaits _ htext hcommand hblank hline =>
    rcases hawaits with hpresenting | ⟨hpause, -⟩
    · exact ⟨_, hp, .inr ⟨hst, hpresenting, _, htext, hcommand, hblank, hline⟩⟩
    · exact absurd hpause hpaused

/-- It does not matter which line has been recorded already. -/
theorem reproduces_unrecorded {s' : Session} {place : Option (Nat × Int)} :
    s.Reproduces { s' with unrecorded := place } ↔ s.Reproduces s' :=
  ⟨fun h => ⟨h.phase, h.snapshot, h.nodes, h.line, h.labels⟩,
    fun h => ⟨h.phase, h.snapshot, h.nodes, h.line, h.labels⟩⟩

/-- What the first step of a session comes to that resumes another one, and how it fails. -/
theorem Resumes.first_step {s₁ : Session} (h : s.Resumes s₁) (hrest : s.Resting w ys)
    (hphase : s.phase = .presenting ∨ s.phase = .choosing) :
    (∀ goesOn s', s₁.Step w goesOn s' →
      goesOn = false ∧ (s.Reproduces s' ↔ s.TakesUp s₁.settings) ∨
        ¬s.TakesUp s₁.settings ∧
          ∃ name k, s'.Gone name k ∧ ∀ s'', s''.Gone name k → ¬s.Reproduces s'') ∧
      ∀ f s', s₁.Breaks w f s' → ¬s.TakesUp s₁.settings := by
  obtain ⟨p, hp, ⟨d, hst, hchoosing⟩ | ⟨hst, hpresenting, text, htext, hcommand, hblank, hline⟩⟩ :=
    hrest.waits hphase
  · refine ⟨fun goesOn s' hstep => ?_, fun f s' hf => (h.not_breaks_choosing hp hst hf).elim⟩
    refine (h.step_choosing hp hst hchoosing hstep).imp_right fun ⟨hnot, hgone⟩ => ⟨hnot, ?_⟩
    exact ⟨p.frame.node, p.frames.length, hgone, fun s'' => hp.not_reproduces_of_gone⟩
  · refine ⟨fun goesOn s' hstep => .inl ?_, fun f s' hf => ?_⟩
    · exact h.step_presenting hp hst hpresenting htext hcommand hblank hline hstep
    · exact h.not_takesUp_of_breaks hp hst hpresenting htext hcommand hf

end Session

open Act

/-- The run of a session that resumes another one reproduces that one exactly if it is taken up
again by the first step. -/
theorem Act.steps_of_resumes {σ : Type} {o : Observer σ} {w : Shelf} {s : Session}
    {ys : List Stay} {st : Stage σ} (h : s.Resumes st.session) (hrest : s.Resting w ys)
    (hphase : s.phase = .presenting ∨ s.phase = .choosing) (hw : st.shelf = w) {k : Nat}
    (hk : 0 < k) :
    Ends (steps o.hear st.session.era k) st
      (fun _ st' => (s.Reproduces st'.session ↔ s.TakesUp st.session.settings) ∧
        (s.TakesUp st.session.settings →
          st'.session.retiredNodes = st.session.retiredNodes))
      (fun _ _ => ¬s.TakesUp st.session.settings) := by
  obtain ⟨k, rfl⟩ := Nat.exists_eq_succ_of_ne_zero hk.ne'
  obtain ⟨hsteps, hbreaks⟩ := h.first_step hrest hphase
  rw [steps, ends_bind]
  refine (step_ends st o).imp ?_ ?_
  swap
  · rintro f _ ⟨s', hf, _⟩
    exact hbreaks f s' (hw ▸ hf)
  rintro goesOn st' ⟨s', hs', hfollows⟩
  -- the first step settles it: it takes the session up, or it loses a frame for good
  rcases hsteps goesOn s' (hw ▸ hs') with ⟨rfl, hiff⟩ | ⟨hnot, name, k', hgone, hlost⟩
  · refine ⟨hfollows.session.reproduces_iff.trans hiff, fun _ => ?_⟩
    obtain ⟨_, _, _, _, _, hs⟩ := hfollows.session
    rw [hs]
    exact hs'.retiredNodes_eq
  · have hgone := hgone.of_alike hfollows.session
    cases goesOn with
    | false => exact ⟨iff_of_false (hlost _ hgone) hnot, fun htakes => absurd htakes hnot⟩
    | true =>
      -- the run goes on below, but what is gone does not come back
      have hera := (hs'.keeps.trans hfollows.session.keeps).era
      have hrun := steps_keep o (P := Session.Gone name k') (fun _ _ hs h => h.of_alike hs)
        (fun _ _ _ _ hstep h => hstep.gone h) k st' hgone
      rw [hera] at hrun
      refine hrun.imp (fun _ st'' hgone => ?_) fun _ _ _ => hnot
      exact ⟨iff_of_false (hlost _ hgone) hnot, fun htakes => absurd htakes hnot⟩

namespace Life

variable {σ τ : Type} {o : Observer σ} {o' : Observer τ} {w : Shelf} {s : Session}
  {ys : List Stay} {st : Stage τ} (h : Life o w false s ys)
  (hphase : s.phase = .presenting ∨ s.phase = .choosing) (hw : st.shelf = w)

include h hphase hw

/-- How a session is restored whose integers can be read again. -/
theorem restore_stored_ends (o' : Observer τ) (hpatience : 0 < st.setup.patience)
    (hstorable : s.snapshot.Storable) :
    Ends (restore o'.hear s.stored) st
      (fun _ st' => s.Reproduces st'.session ↔ s.TakesUp st.session.settings)
      (fun _ _ => ¬s.TakesUp st.session.settings) := by
  have hrest : s.Resting w ys := h.stands
  obtain ⟨p, hp, -⟩ := hrest.waits hphase
  have hframes : s.snapshot.frames ≠ [] := by
    show s.traversal.frames ≠ []
    simp [hp.frames]
  -- a session that waits fits the nodes over which it is stored, so its run decides
  refine restore_ends (R := fun st' =>
    (s.Reproduces st'.session ↔ s.TakesUp st.session.settings) ∧
      (s.TakesUp st.session.settings →
        st'.session.retiredNodes = st.session.retiredNodes ++ [st.session.nodes]))
    o' hw hstorable hframes hp.holds hp.misfit?_eq_none ?_ ?_ ?_
  · intro st' h'
    have hresumes := (hp.resumes_takenUp h.distinct st.session).of_alike h'.session
    obtain ⟨_, _, _, _, _, hs⟩ := h'.session
    have hsettings : st'.session.settings = st.session.settings := by
      rw [hs]
      rfl
    have hretired :
        st'.session.retiredNodes = st.session.retiredNodes ++ [st.session.nodes] := by
      rw [hs]
      rfl
    -- the settings are still those of the stage, and no era has passed but the one before
    have hrun := Act.steps_of_resumes (o := o') hresumes hrest hphase (h'.shelf.trans hw)
      (h'.setup ▸ hpatience)
    rw [hsettings, hretired] at hrun
    exact hrun
  · rintro st' ⟨hiff, -⟩
    rw [← hiff]
    exact Session.reproduces_unrecorded
  · -- what has been reproduced has nodes
    rintro st' ⟨hiff, hretired⟩ hnone htakes
    rw [Session.nodesOf, hretired htakes, List.getElem?_eq_none (by simp)] at hnone
    have hnil : st'.session.nodes = [] := List.isEmpty_iff.mp hnone
    have hnodes := (hiff.mpr htakes).nodes
    rw [hnil, hp.nodes] at hnodes
    simp at hnodes

/-- A session that waits for the reader and is stored is restored to what it was exactly if its
integers can be read again and if it is taken up again: the cursor has not run past the last line,
the conditionals have nothing to do there and, where a line is on screen, no decision is left to ask
and the text has a pace. -/
theorem restored_iff (hpatience : 0 < st.setup.patience) :
    (∃ st', restore o'.hear s.stored st = .ok () st' ∧ s.Reproduces st'.session) ↔
      s.snapshot.Storable ∧ s.TakesUp st.session.settings := by
  -- what cannot be read again fails before the scripts are looked at
  by_cases hstorable : s.snapshot.Storable
  · have hends := h.restore_stored_ends hphase hw o' hpatience hstorable
    constructor
    · rintro ⟨st', hok, hsame⟩
      exact ⟨hstorable, (hends.of_ok hok).mp hsame⟩
    · rintro ⟨-, htakes⟩
      cases hresult : restore o'.hear s.stored st with
      | ok u st' => exact ⟨st', rfl, (hends.of_ok hresult).mpr htakes⟩
      | error f st' => exact absurd htakes (hends.of_error hresult)
  · have hends : Ends (restore o'.hear s.stored) st (fun _ _ => False) fun _ _ => True :=
      restore_unreadable o' hstorable fun _ _ => trivial
    refine iff_of_false ?_ fun hyes => hstorable hyes.1
    rintro ⟨st', hok, -⟩
    exact hends.of_ok hok

end Life

/-- A script in which the reader may choose in a branch. -/
private def teahouse : List String :=
  ["#Node: main", "if (true)", "#StartDecision", "-Tea", "-Coffee", "Hot.", "#EndDecision", "endif",
    "#EndNode"]

/-- Its node. -/
private def counter : Node where
  name := "main"
  lines := ["Hot."]
  decisions := [⟨0, 0, 1, [⟨"Tea", 0, 0⟩, ⟨"Coffee", 0, 1⟩]⟩]
  conditionals := [{ index := 0, first := ⟨"true", 0, 1⟩, start := 0, stop := 1 }]

/-- Where the reader has chosen the second option. -/
private def hot : Traversal where
  frames := [{ node := "main" }]
  cursor := ⟨0, [0], [1], [0], [0]⟩
  transcript := [⟨"", "Hot."⟩]

/-- A session with a line on screen in an option in a branch is restored. -/
theorem restored_teahouse : ∃ s ys,
    Life (.noting : Observer Unit) (Stage.ofScript teahouse).shelf false s ys ∧
      s.phase = .presenting ∧ s.snapshot = hot ∧
      ∃ st', restore (.noting : Observer Unit).hear s.stored (Stage.ofScript teahouse) =
        .ok () st' ∧ s.Reproduces st'.session := by
  obtain ⟨s, ys, hlife, hphase, hsnapshot, hnodes⟩ := Stage.exists_life_of_play teahouse
    [.start "main" "", .decide 1]
    (fun s _ => s.phase = .presenting ∧ s.snapshot = hot ∧ s.nodes = [counter])
    (by decide +kernel)
  have hnode : s.node = some counter := by simp [Session.node, hnodes]
  have hcursor : s.traversal.cursor = ⟨0, [0], [1], [0], [0]⟩ :=
    congrArg Traversal.cursor hsnapshot
  have hstorable : s.snapshot.Storable := by
    rw [hsnapshot]
    decide +kernel
  -- the branch that was taken is the only one, and it goes on
  have hsettled : counter.Settled ⟨0, [0], [1], [0], [0]⟩ := by
    refine ⟨?_, by simp [counter]⟩
    intro is i ws k x b hi hk htakes
    obtain ⟨-, hi⟩ := List.append_inj' (show [] ++ [0] = is ++ [i] from hi) rfl
    obtain ⟨-, hk⟩ := List.append_inj' (show [] ++ [0] = ws ++ [k] from hk) rfl
    obtain rfl := (List.cons.inj hi).1
    obtain rfl := (List.cons.inj hk).1
    have hopen : counter.Takes 0 0 _ ⟨"true", 0, 1⟩ := ⟨rfl, rfl⟩
    obtain ⟨-, rfl⟩ := hopen.unique htakes
    decide
  have htakes : s.TakesUp (Stage.ofScript teahouse).session.settings := by
    refine ⟨fun n hn => ?_, fun n hn => ?_, fun _ n hn => ?_, fun _ => Settings.exists_pace⟩
    all_goals
      obtain rfl := Option.some.inj (hnode.symm.trans hn)
      rw [hcursor]
    · decide
    · exact hsettled
    · decide
  refine ⟨s, ys, hlife, hphase, hsnapshot, ?_⟩
  exact (hlife.restored_iff (.inl hphase) rfl (by decide)).mpr ⟨hstorable, htakes⟩

/-- It is not so that every session that waits for the reader is restored to what it was: if the
option chosen has no lines, the decision is asked again. -/
theorem not_restored : ¬∀ lines s ys,
    Life (.noting : Observer Unit) (Stage.ofScript lines).shelf false s ys →
    s.phase = .presenting ∨ s.phase = .choosing →
    ∃ st', restore (.noting : Observer Unit).hear s.stored (Stage.ofScript lines) =
      .ok () st' ∧ s.Reproduces st'.session := by
  intro hall
  obtain ⟨s, ys, hlife, hphase, hsnapshot, hnodes⟩ := Stage.exists_life_of_play
    ["#Node: main", "#StartDecision", "-A", "-B", "#EndDecision", "After.", "#EndNode"]
    [.start "main" "", .decide 1]
    (fun s _ => s.phase = .presenting ∧
      s.snapshot = { frames := [{ node := "main" }], transcript := [⟨"", "After."⟩] } ∧
      s.nodes.map Node.decisions = [[⟨0, 0, 0, [⟨"A", 0, 0⟩, ⟨"B", 0, 0⟩]⟩]])
    (by decide +kernel)
  have hstorable : s.snapshot.Storable := by
    rw [hsnapshot]
    decide +kernel
  obtain ⟨st', hok, hsame⟩ := hall _ s ys hlife (.inl hphase)
  have hends := hlife.restore_stored_ends (.inl hphase) rfl .noting (by decide) hstorable
  have htakes := (hends.of_ok hok).mp hsame
  obtain ⟨n, hn, hdecisions⟩ := List.map_eq_singleton_iff.mp hnodes
  have hcursor : s.traversal.cursor = {} := congrArg Traversal.cursor hsnapshot
  -- the decision starts where the text stands, is not open and so would be asked
  have hasked := htakes.asked hphase n (by simp [Session.node, hn]) ⟨0, 0, 0, _⟩
    (by rw [hdecisions]; exact List.mem_singleton_self _) (by rw [hcursor])
  rw [hcursor] at hasked
  cases hasked

end VisualNovel
