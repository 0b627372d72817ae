import VisualNovel.Proofs.Life.Invariant
import VisualNovel.Proofs.Life.Telling

/-!
# What a session does between its lines

Most of what a session does has no bearing on the lines that it presents. It adds nothing to the
transcript, and what it tells is not told of a text. The text on screen stays as it is, or it is
taken off the screen.

## Main definitions

* `Session.Tidy`: no text is on screen unless the session is presenting a line;
* `Session.Hushed`: a session has become another one without presenting anything;
* `Stage.Silent`: the same of stages, where nothing has been told of texts.

## Main results

* `Act.silent_openNode`, `Act.silent_finishNode` and the like: acts that do no more than this.
-/

namespace VisualNovel

open Entry

/-- The events that tell of a text: that it is presented, and that it is complete. -/
def Event.isOfText : Event → Bool
  | linePresented _ _ _ _ | textCompleted => true
  | _ => false

namespace Session

/-- Whether the text on screen is complete, if there is one. -/
def revealed? (s : Session) : Option Bool := s.typewriter.map Typewriter.complete

/-- A session that waits for nothing, or for the reader to choose, has no text on screen. -/
def Tidy (s : Session) : Prop := s.Awaits .idle ∨ s.Awaits .choosing → s.typewriter = none

/-- A session has become another one without presenting anything. -/
structure Hushed (s s' : Session) : Prop where
  transcript : s'.traversal.transcript = s.traversal.transcript
  settings : s'.settings = s.settings
  unrecorded : s'.unrecorded = s.unrecorded
  /-- The text on screen is the same, or it has been taken off the screen. -/
  typewriter : s'.typewriter = s.typewriter ∨ s'.typewriter = none
  tidy : s.Tidy → s'.Tidy

namespace Hushed

variable {s s' s'' : Session}

theorem refl (s : Session) : s.Hushed s := ⟨rfl, rfl, rfl, .inl rfl, id⟩

theorem trans (h : s.Hushed s') (h' : s'.Hushed s'') : s.Hushed s'' where
  transcript := h'.transcript.trans h.transcript
  settings := h'.settings.trans h.settings
  unrecorded := h'.unrecorded.trans h.unrecorded
  typewriter := by
    rcases h'.typewriter with hsame | hnone
    · rw [hsame]
      exact h.typewriter
    · exact .inr hnone
  tidy := h'.tidy ∘ h.tidy

end Hushed

end Session

namespace Traversal

variable (t : Traversal)

theorem transcript_enter (node context : String) :
    (t.enter node context).transcript = t.transcript := by
  unfold enter
  split <;> rfl

theorem transcript_comeBack : t.comeBack.transcript = t.transcript := by
  unfold comeBack
  split <;> rfl

end Traversal

/-- An event is told that is not one of texts, and the transcript holds given lines then. -/
def Entry.IsAside (lines : List Spoken) : Entry → Prop
  | begins => False
  | told e s => e.isOfText = false ∧ s.traversal.transcript = lines

namespace Stage

/-- Nothing has been presented, and what has been told meanwhile is not told of texts. -/
structure Silent (st st' : Stage (List Entry)) : Prop where
  session : st.session.Hushed st'.session
  told : ∃ log, st'.host = st.host ++ log ∧ ∀ x ∈ log, x.IsAside st.session.traversal.transcript

namespace Silent

variable {st st₁ st₂ : Stage (List Entry)}

theorem refl (st : Stage (List Entry)) : st.Silent st := ⟨.refl _, [], by simp, by simp⟩

theorem trans (h : st.Silent st₁) (h' : st₁.Silent st₂) : st.Silent st₂ := by
  obtain ⟨hs, log, hhost, hlog⟩ := h
  obtain ⟨hs', later, hhost', hlater⟩ := h'
  refine ⟨hs.trans hs', log ++ later, by rw [hhost', hhost, List.append_assoc], fun x hx => ?_⟩
  rcases List.mem_append.mp hx with hx | hx
  · exact hlog x hx
  · rw [← hs.transcript]
    exact hlater x hx

end Silent

end Stage

namespace Act

variable {α β : Type} {st : Stage (List Entry)}

/-! ### Acts in general -/

theorem silent_pure (a : α) : Leaves Stage.Silent (pure a) := .refl

theorem silent_throw (f : Failure) : Leaves Stage.Silent (throw f : Act _ α) := .refl

theorem silent_session : Leaves Stage.Silent session := .refl

theorem silent_bind {x : Act (List Entry) α} {f : α → Act (List Entry) β}
    (hx : Leaves Stage.Silent x) (hf : ∀ a, Leaves Stage.Silent (f a)) :
    Leaves Stage.Silent (x >>= f) :=
  fun st => (hx st).bind id Stage.Silent.trans fun a st' _ => hf a st'

theorem silent_edit {f : Session → Session} (hf : ∀ s : Session, s.Hushed (f s)) :
    Leaves Stage.Silent (edit f) := fun st => ⟨hf st.session, [], by simp, by simp⟩

theorem silent_remarkAll (rs : List Remark) : Leaves Stage.Silent (remarkAll rs) :=
  fun st => ⟨.refl _, [], by simp, by simp⟩

theorem silent_ask (c : Call) : Leaves Stage.Silent (ask c) := fun st =>
  ends_ask.mpr ⟨by rw [st.session_asked]; exact .refl _, [], by simp, by simp⟩

theorem silent_hear {e : Event} (he : e.isOfText = false) : Leaves Stage.Silent (scribe.hear e) :=
  fun st => ⟨.refl _, [told e st.session], rfl, by simpa [Entry.IsAside] using he⟩

theorem silent_ofExcept (r : Except Failure α) : Leaves Stage.Silent (ofExcept r : Act _ α) :=
  Leaves.ofExcept .refl r

/-! ### The stack of nodes -/

theorem silent_endSession : Leaves Stage.Silent (endSession scribe.hear) :=
  silent_bind (silent_edit fun _ => ⟨rfl, rfl, rfl, .inr rfl, fun _ _ => rfl⟩) fun _ =>
    silent_hear rfl

theorem silent_findScript (name context : String) :
    Leaves Stage.Silent (findScript name context) :=
  silent_bind (x := get) .refl fun _ =>
    silent_bind (silent_edit fun _ => ⟨rfl, rfl, rfl, .inl rfl, id⟩) fun _ =>
    silent_bind (silent_remarkAll _) fun _ => silent_ofExcept _

theorem silent_enter (n : Node) : Leaves Stage.Silent (enter scribe.hear n) := by
  refine silent_bind silent_session fun s => ?_
  dsimp only
  split
  · exact silent_edit fun _ => ⟨rfl, rfl, rfl, .inl rfl, id⟩
  · refine silent_bind (silent_edit fun s => ⟨?_, rfl, rfl, .inl rfl, id⟩) fun _ =>
      silent_bind (silent_edit fun _ => ⟨rfl, rfl, rfl, .inl rfl, id⟩) fun _ => silent_hear rfl
    exact s.traversal.transcript_enter _ _

theorem silent_abandonNode (name : String) (f : Failure) :
    Leaves Stage.Silent (abandonNode scribe.hear name f) :=
  silent_bind (silent_remarkAll _) fun _ =>
    silent_bind (silent_edit fun _ => ⟨rfl, rfl, rfl, .inr rfl, fun _ _ => rfl⟩) fun _ =>
    silent_hear rfl

theorem silent_openNode (name context : String) :
    Leaves Stage.Silent (openNode scribe.hear name context) := by
  refine silent_bind silent_session fun s => ?_
  split
  · exact silent_pure _
  refine silent_bind ((silent_findScript _ _).attempt _) fun found => ?_
  split
  · exact silent_bind (silent_abandonNode _ _) fun _ => silent_throw _
  · split
    · exact silent_bind (silent_remarkAll _) fun _ => silent_pure _
    · exact silent_bind (silent_enter _) fun _ => silent_pure _

theorem silent_goTo (name : String) : Leaves Stage.Silent (goTo scribe.hear name) :=
  silent_bind silent_session fun _ =>
    silent_bind ((silent_openNode _ _).attempt _) fun _ => silent_pure _

/-- Changing a traversal is silent if its transcript stays the same. -/
theorem silent_modifyTraversalOf (era : Nat) {f : Traversal → Traversal}
    (hf : ∀ t : Traversal, (f t).transcript = t.transcript) :
    Leaves Stage.Silent (edit fun s => s.modifyTraversalOf era f) := by
  refine silent_edit fun s => ?_
  unfold Session.modifyTraversalOf
  split
  · exact ⟨rfl, rfl, rfl, .inl rfl, id⟩
  · exact ⟨hf _, rfl, rfl, .inl rfl, id⟩

theorem silent_finishNode : Leaves Stage.Silent (finishNode scribe.hear) := by
  refine silent_bind silent_session fun s => ?_
  split
  · exact silent_throw _
  refine silent_bind (silent_edit fun _ => ⟨rfl, rfl, rfl, .inl rfl, id⟩) fun _ =>
    silent_bind (silent_hear rfl) fun _ => silent_bind silent_session fun _ =>
    silent_bind (silent_modifyTraversalOf _ Traversal.transcript_comeBack) fun _ => ?_
  split
  · exact silent_bind silent_endSession fun _ => silent_pure _
  · exact silent_pure _

/-! ### Blocks and commands -/

theorem silent_passConditionals (n : Node) : Leaves Stage.Silent (passConditionals n) := by
  refine silent_bind silent_session fun _ =>
    silent_bind (silent_edit fun _ => ⟨rfl, rfl, rfl, .inl rfl, id⟩) fun _ =>
    silent_bind (silent_remarkAll _) fun _ => ?_
  split
  · exact silent_throw _
  · exact silent_pure _

theorem silent_awaitChoice (d : Decision) : Leaves Stage.Silent (awaitChoice scribe.hear d) :=
  silent_bind (silent_edit fun _ => ⟨rfl, rfl, rfl, .inr rfl, fun _ _ => rfl⟩) fun _ =>
    silent_bind (silent_ask _) fun _ => silent_hear rfl

theorem silent_passDecisions (n : Node) : Leaves Stage.Silent (passDecisions scribe.hear n) := by
  refine silent_bind silent_session fun _ =>
    silent_bind (silent_edit fun _ => ⟨rfl, rfl, rfl, .inl rfl, id⟩) fun _ => ?_
  split
  · exact silent_pure _
  · exact silent_throw _
  · exact silent_bind (silent_awaitChoice _) fun _ => silent_pure _

theorem silent_nextLine (era : Nat) : Leaves Stage.Silent (nextLine era) :=
  silent_modifyTraversalOf era fun _ => rfl

theorem silent_dispatch (text : String) :
    Leaves Stage.Silent (dispatch scribe.hear (goTo scribe.hear) text false) := by
  have heffect (e : Effect) : Leaves Stage.Silent (bringAbout (goTo scribe.hear) e) := by
    cases e with
    | none => exact silent_pure _
    | incomplete message => exact silent_remarkAll _
    | call c => exact silent_ask c
    | goTo name => exact silent_goTo name
  unfold dispatch
  split
  · exact silent_pure _
  split
  · exact silent_pure _
  · exact silent_bind (heffect _) fun _ => silent_bind (silent_hear rfl) fun _ => silent_pure _

/-! ### What is on show, and inputs -/

theorem silent_turnTo (speaker : String) : Leaves Stage.Silent (turnTo speaker) := by
  refine silent_bind silent_session fun _ => ?_
  split
  · refine silent_bind (silent_edit fun _ => ⟨rfl, rfl, rfl, .inl rfl, id⟩) fun _ => ?_
    split
    · exact silent_ask _
    · exact silent_pure _
  · exact silent_pure _

theorem silent_setMode (mode : PlaybackMode) : Leaves Stage.Silent (setMode scribe.hear mode) := by
  refine silent_bind (silent_edit fun _ => ⟨rfl, rfl, rfl, .inl rfl, id⟩) fun _ =>
    silent_bind silent_session fun _ => ?_
  split
  · exact silent_bind (silent_edit fun _ => ⟨rfl, rfl, rfl, .inl rfl, id⟩) fun _ =>
      silent_hear rfl
  · exact silent_pure _

theorem silent_leaveLine : Leaves Stage.Silent leaveLine :=
  silent_bind (silent_edit fun _ => ⟨rfl, rfl, rfl, .inl rfl, id⟩) fun _ =>
    silent_bind (silent_edit fun _ => ⟨rfl, rfl, rfl, .inl rfl, id⟩) fun _ => silent_pure _

theorem silent_waitOut (dt : Float) : Leaves Stage.Silent (waitOut dt) := by
  refine silent_bind silent_session fun _ => ?_
  -- each mode but the normal one has a timer
  split
  · exact silent_pure _
  all_goals
    refine silent_bind (silent_edit fun _ => ⟨rfl, rfl, rfl, .inl rfl, id⟩) fun _ =>
      silent_bind silent_session fun _ => ?_
    split
    · exact silent_leaveLine
    · exact silent_pure _

theorem silent_currentNode : Leaves Stage.Silent currentNode := by
  refine silent_bind silent_session fun _ => ?_
  split
  · exact silent_pure _
  · exact silent_throw _

theorem silent_takeOption (index : Int) : Leaves Stage.Silent (takeOption scribe.hear index) := by
  refine silent_bind silent_session fun _ => ?_
  split
  · exact silent_bind (silent_remarkAll _) fun _ => silent_pure _
  split
  · exact silent_throw _
  split
  · exact silent_throw _
  refine silent_bind (silent_edit fun _ => ⟨rfl, rfl, rfl, .inl rfl, id⟩) fun _ =>
    silent_bind (silent_ask _) fun _ => silent_bind (silent_hear rfl) fun _ =>
    silent_bind silent_session fun _ => ?_
  split
  · exact silent_bind (silent_setMode _) fun _ => silent_bind silent_currentNode fun _ =>
      silent_bind silent_session fun _ => silent_pure _
  · exact silent_bind silent_currentNode fun _ => silent_bind silent_session fun _ => silent_pure _

/-- A session that is paused still waits for what it was waiting for. -/
theorem silent_pause : Leaves Stage.Silent pause := by
  refine silent_edit fun s => ?_
  split
  · refine ⟨rfl, rfl, rfl, .inl rfl, fun htidy hawaits => htidy ?_⟩
    have hawaits : s.phase = .idle ∨ s.phase = .choosing := by
      simpa [Session.Awaits] using hawaits
    exact hawaits.imp .inl .inl
  · exact .refl s

theorem silent_resume : Leaves Stage.Silent resume := by
  refine silent_edit fun s => ?_
  split
  · next phase hphase hfrom =>
    refine ⟨rfl, rfl, rfl, .inl rfl, fun htidy hawaits => htidy ?_⟩
    simpa [Session.Awaits, hphase, hfrom] using hawaits
  · exact .refl s

end Act

end VisualNovel
