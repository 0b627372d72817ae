import VisualNovel.Host.Perform
import VisualNovel.Proofs.Life.Observer

/-!
# Failures of a run

A run goes into other nodes on the way and evaluates conditions, but whatever goes wrong with the
scripts then is dealt with on the spot. A run therefore fails only in ways that are no matters of
dialogue, provided that those who listen do so as well. The bus of a host does, whatever its
handlers do.

## Main definitions

* `Act.FailsElsewhere`: an act fails only in ways that are no matters of dialogue.

## Main results

* `Act.failsElsewhere_resumeAt`: this holds of taking up a traversal whose nodes have been loaded;
* `Host.failsElsewhere_publish`: it holds of the bus of a host.
-/

namespace VisualNovel

/-- The only reason why there is no pace. -/
theorem Settings.error_secondsPerCharacter {s : Settings} {f : Failure}
    (h : s.secondsPerCharacter = .error f) : f = .tooLarge := by
  simp only [secondsPerCharacter] at h
  split at h
  · cases h
  · exact (Except.error.inj h).symm

namespace Act

variable {σ α β : Type}

/-- The act fails only in ways that are no matters of dialogue. -/
def FailsElsewhere (x : Act σ α) : Prop :=
  ∀ st f st', x st = .error f st' → f.isDialogue = false

namespace FailsElsewhere

/-- An act that does not fail. -/
theorem of_ok {x : Act σ α} (h : ∀ st, ∃ a st', x st = .ok a st') : FailsElsewhere x := by
  intro st f st' hx
  obtain ⟨a, st₁, hok⟩ := h st
  rw [hok] at hx
  cases hx

theorem pure (a : α) : FailsElsewhere (pure a : Act σ α) := of_ok fun st => ⟨a, st, rfl⟩

theorem throw {f : Failure} (hf : f.isDialogue = false) : FailsElsewhere (throw f : Act σ α) := by
  rintro st f' st' ⟨⟩
  exact hf

/-- Two acts one after the other. -/
theorem bind {x : Act σ α} {f : α → Act σ β} (hx : FailsElsewhere x)
    (hf : ∀ a, FailsElsewhere (f a)) : FailsElsewhere (x >>= f) := by
  intro st e st' h
  rw [bind_apply] at h
  cases hresult : x st with
  | ok a st₁ =>
    rw [hresult] at h
    exact hf a st₁ e st' h
  | error e' st₁ =>
    rw [hresult] at h
    obtain ⟨rfl, rfl⟩ := EStateM.Result.error.inj h
    exact hx st _ _ hresult

theorem get : FailsElsewhere (get : Act σ (Stage σ)) := of_ok fun st => ⟨st, st, rfl⟩

theorem set (st' : Stage σ) : FailsElsewhere (set st' : Act σ PUnit) :=
  of_ok fun _ => ⟨⟨⟩, st', rfl⟩

theorem session : FailsElsewhere (session : Act σ Session) :=
  of_ok fun st => ⟨st.session, st, rfl⟩

theorem edit (f : Session → Session) : FailsElsewhere (edit f : Act σ Unit) :=
  of_ok fun st => ⟨(), { st with session := f st.session }, rfl⟩

theorem remarkAll (rs : List Remark) : FailsElsewhere (remarkAll rs : Act σ Unit) :=
  of_ok fun st => ⟨(), { st with remarks := st.remarks ++ rs }, rfl⟩

theorem ask (c : Call) : FailsElsewhere (ask c : Act σ Unit) := by
  refine .bind .get fun st => ?_
  split
  · exact of_ok fun st => ⟨(), { st with notices := st.notices ++ [.call c] }, rfl⟩
  · exact .pure ()

/-- What is caught are all matters of dialogue. -/
theorem attempt (x : Act σ α) : FailsElsewhere (attempt Failure.isDialogue x) := by
  intro st f st' h
  rw [Act.attempt, tryCatch_apply] at h
  simp only [Bind.bind, EStateM.bind] at h
  cases hx : x st with
  | ok a st₁ =>
    rw [hx] at h
    cases h
  | error e st₁ =>
    rw [hx] at h
    cases he : e.isDialogue with
    | true => simp only [he, if_true] at h; cases h
    | false =>
      simp only [he, Bool.false_eq_true, if_false] at h
      obtain ⟨rfl, rfl⟩ := EStateM.Result.error.inj h
      exact he

end FailsElsewhere

/-- Showing a text does not fail. -/
theorem failsElsewhere_refresh : FailsElsewhere (refresh : Act σ Unit) := by
  refine .bind .session fun s => ?_
  split
  · exact .ask _
  · exact .pure ()

theorem failsElsewhere_turnTo (speaker : String) :
    FailsElsewhere (turnTo speaker : Act σ Unit) := by
  refine .bind .session fun s => ?_
  split
  · refine .bind (.edit _) fun _ => ?_
    split
    · exact .ask _
    · exact .pure ()
  · exact .pure ()

theorem failsElsewhere_record (line : Spoken) : FailsElsewhere (record line : Act σ Unit) := by
  refine .bind .session fun s => ?_
  split
  · exact .bind (.edit _) fun _ => .edit _
  · exact .edit _

theorem failsElsewhere_passConditionals (n : Node) :
    FailsElsewhere (passConditionals n : Act σ Unit) := by
  refine .bind .session fun s => .bind (.edit _) fun _ => .bind (.remarkAll _) fun _ => ?_
  split
  · exact .throw rfl
  · exact .pure ()

variable {hear : Listener σ}

/-- What goes wrong when a command leads to another node is caught. -/
theorem failsElsewhere_goTo (name : String) : FailsElsewhere (goTo hear name) :=
  .bind .session fun _ => .bind (.attempt _) fun _ => .pure ()

section Hearing

variable (hhear : ∀ e, FailsElsewhere (hear e))

include hhear

theorem failsElsewhere_finishNode : FailsElsewhere (finishNode hear) := by
  refine .bind .session fun s => ?_
  split
  · exact .throw rfl
  · refine .bind (.edit _) fun _ => .bind (hhear _) fun _ => .bind .session fun _ =>
      .bind (.edit _) fun _ => ?_
    split
    · exact .bind (.bind (.edit _) fun _ => hhear _) fun _ => .pure _
    · exact .pure _

theorem failsElsewhere_passDecisions (n : Node) : FailsElsewhere (passDecisions hear n) := by
  refine .bind .session fun s => .bind (.edit _) fun _ => ?_
  split
  · exact .pure _
  · exact .throw rfl
  · exact .bind (.bind (.edit _) fun _ => .bind (.ask _) fun _ => hhear _) fun _ => .pure _

theorem failsElsewhere_completeText : FailsElsewhere (completeText hear) := by
  refine .bind .session fun s => ?_
  split
  · exact .pure ()
  · split
    · exact .bind (.edit _) fun _ => .bind (.edit _) fun _ => hhear _
    · exact .pure ()

theorem failsElsewhere_present (n : Node) (line : Spoken) :
    FailsElsewhere (present hear n line) := by
  -- the pace is the only thing that may be missing
  have hpace (s : Settings) :
      FailsElsewhere (ofExcept s.secondsPerCharacter : Act σ Float) := by
    cases hp : s.secondsPerCharacter with
    | ok pace => exact .pure pace
    | error f =>
      obtain rfl := Settings.error_secondsPerCharacter hp
      exact .throw rfl
  refine .bind .session fun _ => .bind .session fun _ => .bind (failsElsewhere_turnTo _) fun _ =>
    .bind (failsElsewhere_record _) fun _ => .bind (.edit _) fun _ => .bind .session fun s =>
    .bind (hpace _) fun _ => .bind (.edit _) fun _ => .bind (.ask _) fun _ =>
    .bind (hhear _) fun _ => .bind .session fun _ => ?_
  split
  · exact .bind (failsElsewhere_completeText hhear) fun _ => failsElsewhere_refresh
  · exact failsElsewhere_refresh

/-- Carrying out a command. -/
theorem failsElsewhere_dispatch (line : String) (replay : Bool) :
    FailsElsewhere (dispatch hear (goTo hear) line replay) := by
  have heffect (e : Effect) : FailsElsewhere (bringAbout (goTo hear) e) := by
    cases e with
    | none => exact .pure ()
    | incomplete message => exact .remarkAll _
    | call c => exact .ask c
    | goTo name => exact failsElsewhere_goTo name
  unfold dispatch
  split
  · exact .pure _
  split
  · exact .pure _
  refine .bind (heffect _) fun _ => ?_
  split
  · exact .bind (hhear _) fun _ => .pure _
  · exact .pure _

theorem failsElsewhere_takeLine (era : Nat) (n : Node) (text : String) :
    FailsElsewhere (takeLine hear era n text) := by
  unfold takeLine
  split
  · exact .bind (.edit _) fun _ => .bind (.edit _) fun _ =>
      .bind (failsElsewhere_dispatch hhear _ _) fun _ => .pure _
  dsimp only
  split
  · exact .bind (.edit _) fun _ => .pure _
  · exact .bind (failsElsewhere_present hhear n _) fun _ => .pure _

theorem failsElsewhere_step (era : Nat) : FailsElsewhere (step hear era) := by
  refine .bind .session fun s => ?_
  split
  · exact .pure _
  split
  · exact .pure _
  dsimp only
  split
  · exact failsElsewhere_finishNode hhear
  refine .bind (failsElsewhere_passConditionals _) fun _ =>
    .bind (failsElsewhere_passDecisions hhear _) fun asked => ?_
  split
  · exact .pure _
  refine .bind .session fun _ => ?_
  split
  · exact .pure _
  split
  · exact .throw rfl
  · exact failsElsewhere_takeLine hhear _ _ _

theorem failsElsewhere_steps (era k : Nat) : FailsElsewhere (steps hear era k) := by
  -- a run that is too long fails, which is no matter of dialogue either
  induction k with
  | zero => exact .throw rfl
  | succ k ih =>
    refine .bind (failsElsewhere_step hhear era) fun goesOn => ?_
    split
    · exact ih
    · exact .pure ()

theorem failsElsewhere_replay (lines : List String) :
    FailsElsewhere (replay hear (goTo hear) lines) := by
  induction lines with
  | nil => exact .pure ()
  | cons line lines ih => exact .bind (failsElsewhere_dispatch hhear line true) fun _ => ih

/-- What goes wrong when a traversal is taken up whose nodes have been loaded is no matter of
dialogue. -/
theorem failsElsewhere_resumeAt (t : Traversal) (nodes : List Node) :
    FailsElsewhere (resumeAt hear t nodes) := by
  have hrun : FailsElsewhere (run hear []) :=
    .bind (.edit _) fun _ => .bind .session fun _ => .bind .get fun _ =>
      failsElsewhere_steps hhear _ _
  refine .bind (.edit _) fun _ => .bind .session fun _ => .bind (failsElsewhere_replay hhear _)
    fun _ => .bind (.edit _) fun _ => .bind hrun fun _ => .bind (.edit _) fun _ =>
    .bind .session fun _ => ?_
  split
  · exact .throw rfl
  · exact .pure ()

end Hearing

end Act

/-- Whatever the handlers on the bus of a host do, publishing an event does not fail in a way that
is a matter of dialogue. -/
theorem Host.failsElsewhere_publish (depth : Nat) (e : Event) :
    Act.FailsElsewhere (Host.publish depth e) := by
  cases depth with
  | zero => exact .throw rfl
  | succ depth =>
    refine .bind .get fun st => ?_
    split
    · exact .set _
    · exact .throw rfl

end VisualNovel
