import VisualNovel.Proofs.Life.Observer

/-!
# Carrying out a history once more

What a command asks of helpers depends on its line alone. When a history is carried out once more,
the helpers are asked for the same as in play, but for effects; no node is gone to and nothing is
told.

## Main definitions

* `Effect.calls`, `Command.calls`: what an effect and the command of a line ask of helpers;
* `Call.isScenery`, `Call.isEffect`: calls of commands, and those that are not made once more.

## Main results

* `Command.calls_replay`: what a command asks of helpers when it is carried out once more;
* `Act.replay_apply`: what comes of a history that is carried out once more.
-/

namespace VisualNovel

/-- The calls that only the commands of scripts make. -/
def Call.isScenery : Call → Bool
  | showPlayer | hidePlayer | showIllustration _ | hideIllustration | playMusic _ | stopMusic
  | playEffect _ => true
  | moveCamera _ | present _ _ _ _ | updateText _ | showDecisions _ | hideDecisions => false

/-- An effect is played, which passes at once. -/
def Call.isEffect : Call → Bool
  | playEffect _ => true
  | _ => false

/-- What an effect asks of helpers. -/
def Effect.calls : Effect → List Call
  | call c => [c]
  | _ => []

/-- What the command of a line asks of helpers, in play or when it is carried out once more. -/
def Command.calls (line : String) (replay : Bool) : List Call :=
  match ofLine? line with
  | none => []
  | some c =>
    match Directive.ofName? c.name with
    | none => []
    | some d => (d.effect c.argument replay).calls

/-- The calls whose helpers are there. -/
def Call.heeded (helpers : List Helper) (cs : List Call) : List Call :=
  cs.filter fun c => helpers.contains c.helper

/-- What becomes of a stage when a helper is asked for something. -/
theorem Stage.asked_eq {σ : Type} (st : Stage σ) (c : Call) : st.asked c =
    { st with notices := st.notices ++ (Call.heeded st.setup.helpers [c]).map .call } := by
  unfold asked Call.heeded
  rw [List.filter_cons, List.filter_nil]
  split <;> simp

/-- Directives cause no other calls. -/
theorem Directive.isScenery_of_effect {d : Directive} {argument : String} {replay : Bool} {c : Call}
    (h : d.effect argument replay = .call c) : c.isScenery := by
  cases d <;> simp only [effect] at h <;> (repeat' split at h) <;> cases h <;> rfl

namespace Command

/-- A command that is carried out once more asks helpers for the same, but for effects. -/
theorem calls_replay (line : String) :
    calls line true = (calls line false).filter fun c => !c.isEffect := by
  unfold calls
  cases ofLine? line with
  | none => rfl
  | some c =>
    dsimp only
    cases Directive.ofName? c.name with
    | none => rfl
    | some d =>
      by_cases hempty : c.argument.isEmpty <;> cases d <;>
        simp only [Directive.effect, hempty, if_true, if_false, Bool.false_eq_true] <;> rfl

end Command

namespace Act

variable {σ : Type} (hear : Listener σ) (goTo : String → Act σ Unit)

/-- What carrying out a command once more does is seen or remarked. -/
theorem dispatch_replay_apply (line : String) :
    ∃ done remarks, ∀ st : Stage σ, dispatch hear goTo line true st = .ok done { st with
      notices := st.notices ++
        (Call.heeded st.setup.helpers (Command.calls line true)).map .call
      remarks := st.remarks ++ remarks } := by
  have hsame (st : Stage σ) : st = { st with
      notices := st.notices ++ (Call.heeded st.setup.helpers []).map .call
      remarks := st.remarks ++ [] } := by simp [Call.heeded]
  unfold dispatch Command.calls
  -- a line that is no command, or no known one, does nothing
  cases Command.ofLine? line with
  | none => exact ⟨false, [], fun st => congrArg _ (hsame st)⟩
  | some c =>
    dsimp only
    cases Directive.ofName? c.name with
    | none => exact ⟨false, [], fun st => congrArg _ (hsame st)⟩
    | some d =>
      dsimp only
      cases heffect : d.effect c.argument true with
      | none => exact ⟨true, [], fun st => congrArg _ (hsame st)⟩
      | incomplete message =>
        refine ⟨true, [⟨.warning, Command.remarkSource, message⟩], fun st => ?_⟩
        simp only [bringAbout, bind_apply, remark, remarkAll, Effect.calls, Call.heeded,
          List.filter_nil, List.map_nil, List.append_nil]
        rfl
      | call c =>
        refine ⟨true, [], fun st => ?_⟩
        have hask : Ends (ask c) st (fun _ st' => st' = st.asked c) fun _ _ => False := by simp
        obtain ⟨_, _, hask, rfl⟩ := hask.exists_ok
        rw [bringAbout, bind_apply, hask]
        show EStateM.Result.ok true (st.asked c) = _
        rw [st.asked_eq, List.append_nil, Effect.calls]
      | goTo name =>
        -- what is carried out once more goes nowhere
        cases d <;> simp [Directive.effect] at heffect <;> split at heffect <;> cases heffect

/-- A history that is carried out once more asks helpers for what its commands ask them, and causes
remarks. Nothing else comes of it, whatever would be done with events and with nodes. -/
theorem replay_apply (lines : List String) :
    ∃ remarks, ∀ st : Stage σ, replay hear goTo lines st = .ok () { st with
      notices := st.notices ++ (Call.heeded st.setup.helpers
        (lines.flatMap fun line => Command.calls line true)).map .call
      remarks := st.remarks ++ remarks } := by
  induction lines with
  | nil => exact ⟨[], fun st => by simp [replay, Call.heeded]; rfl⟩
  | cons line lines ih =>
    obtain ⟨done, rs, hline⟩ := dispatch_replay_apply hear goTo line
    obtain ⟨rs', hrest⟩ := ih
    refine ⟨rs ++ rs', fun st => ?_⟩
    rw [replay, bind_apply, hline st]
    dsimp only
    rw [hrest]
    simp [Call.heeded]

end Act

end VisualNovel
