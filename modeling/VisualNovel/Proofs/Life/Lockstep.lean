import VisualNovel.Proofs.Life.Moves

/-!
# Acts in lockstep

An act that is done on two stages which correspond is in lockstep if it ends in the same way on both
of them and leaves them in correspondence. Which sessions correspond is left open. What had happened
on the stages before some point may differ, and what has happened since is the same.

## Main definitions

* `Past`: what had happened on a stage before some point;
* `Pairing`, `Pairing.Holds`: a correspondence of stages, and that it holds of two of them;
* `Act.Lockstep`: two acts end in the same way on stages that correspond.

## Main results

* `Act.Lockstep.bind`, `Act.Lockstep.attempt` and the other rules by which acts are seen to be in
  lockstep.
-/

namespace VisualNovel

/-- What had happened on a stage before some point. -/
structure Past where
  /-- The traversals that had been put aside. -/
  retired : List Traversal
  /-- The stacks of nodes that had been put aside. -/
  retiredNodes : List (List Node)
  /-- What had been seen. -/
  notices : List Notice
  /-- What had been remarked. -/
  remarks : List Remark

/-- A correspondence of stages: which sessions and which parts of hosts correspond, and what had
been seen and remarked on each stage before some point. -/
structure Pairing (σ : Type) where
  /-- The sessions that correspond. -/
  session : Session → Session → Prop
  /-- The parts of hosts that correspond. -/
  host : σ → σ → Prop
  /-- What had happened on the first stage. -/
  first : Past
  /-- What had happened on the second stage. -/
  second : Past

/-- Two stages correspond. They have the same surroundings and files, and the same has been seen and
remarked on both since their pasts. -/
structure Pairing.Holds {σ : Type} (k : Pairing σ) (st st' : Stage σ) : Prop where
  /-- The surroundings are the same. -/
  setup : st'.setup = st.setup
  /-- The files are the same. -/
  files : st'.files = st.files
  /-- The sessions correspond. -/
  session : k.session st.session st'.session
  /-- What has been seen since is the same. -/
  notices : ∃ later, st.notices = k.first.notices ++ later ∧ st'.notices = k.second.notices ++ later
  /-- What has been remarked since is the same. -/
  remarks : ∃ later, st.remarks = k.first.remarks ++ later ∧ st'.remarks = k.second.remarks ++ later
  /-- The parts of hosts correspond. -/
  host : k.host st.host st'.host

namespace Act

variable {σ α α' β β' : Type} {k : Pairing σ}

/-- Two results are of the same kind: values that are related, or the same failure. The stages
correspond. -/
inductive Agrees (k : Pairing σ) (V : α → α' → Prop) :
    EStateM.Result Failure (Stage σ) α → EStateM.Result Failure (Stage σ) α' → Prop where
  /-- Both have succeeded. -/
  | ok {a : α} {a' : α'} {st st' : Stage σ} (hV : V a a') (hk : k.Holds st st') :
      Agrees k V (.ok a st) (.ok a' st')
  /-- Both have failed. -/
  | error (f : Failure) {st st' : Stage σ} (hk : k.Holds st st') :
      Agrees k V (.error f st) (.error f st')

/-- Two acts on stages that correspond end in the same way, with values that are related, and leave
the stages in correspondence. -/
def Lockstep (k : Pairing σ) (V : α → α' → Prop) (x : Act σ α) (x' : Act σ α') : Prop :=
  ∀ st st', k.Holds st st' → Agrees k V (x st) (x' st')

namespace Lockstep

variable {V : α → α' → Prop} {W : β → β' → Prop} {x y : Act σ α} {x' y' : Act σ α'}

theorem pure {a : α} {a' : α'} (h : V a a') : Lockstep k V (pure a) (pure a') :=
  fun _ _ hk => .ok h hk

theorem throw (f : Failure) : Lockstep k V (throw f : Act σ α) (throw f : Act σ α') :=
  fun _ _ hk => .error f hk

/-- Two acts one after the other. -/
theorem bind {f : α → Act σ β} {f' : α' → Act σ β'} (hx : Lockstep k V x x')
    (hf : ∀ a a', V a a' → Lockstep k W (f a) (f' a')) : Lockstep k W (x >>= f) (x' >>= f') := by
  intro st st' hk
  have h := hx st st' hk
  rw [bind_apply, bind_apply]
  -- the second acts are done only if both first ones have succeeded
  generalize x st = r, x' st' = r' at h
  cases h with
  | ok ha hk₁ => exact hf _ _ ha _ _ hk₁
  | error f hk₁ => exact .error f hk₁

/-- Two acts one after the other, the second of which is given the same value on both stages. -/
theorem seq {x x' : Act σ α} {f : α → Act σ β} {f' : α → Act σ β'} (hx : Lockstep k Eq x x')
    (hf : ∀ a, Lockstep k W (f a) (f' a)) : Lockstep k W (x >>= f) (x' >>= f') :=
  hx.bind fun a _ h => h ▸ hf a

/-- A choice that is the same on both stages. -/
theorem ite {c : Prop} [Decidable c] (hx : Lockstep k V x x') (hy : Lockstep k V y y') :
    Lockstep k V (if c then x else y) (if c then x' else y') := by
  split
  · exact hx
  · exact hy

theorem get : Lockstep k k.Holds get get := fun _ _ hk => .ok hk hk

theorem session : Lockstep k k.session session session := fun _ _ hk => .ok hk.session hk

theorem edit {f f' : Session → Session}
    (h : ∀ s t, k.session s t → k.session (f s) (f' t)) : Lockstep k Eq (edit f) (edit f') :=
  fun _ _ hk => .ok rfl { hk with session := h _ _ hk.session }

theorem notice (n : Notice) : Lockstep k Eq (notice n) (notice n) := by
  intro st st' hk
  obtain ⟨later, h, h'⟩ := hk.notices
  exact .ok rfl { hk with notices := ⟨later ++ [n], by simp [h], by simp [h']⟩ }

theorem remarkAll (rs : List Remark) : Lockstep k Eq (remarkAll rs) (remarkAll rs) := by
  intro st st' hk
  obtain ⟨later, h, h'⟩ := hk.remarks
  exact .ok rfl { hk with remarks := ⟨later ++ rs, by simp [h], by simp [h']⟩ }

theorem ask (c : Call) : Lockstep k Eq (ask c) (ask c) := by
  refine .bind .get fun st st' hk => ?_
  rw [hk.setup]
  exact .ite (.notice _) (.pure rfl)

theorem ofExcept (r : Except Failure α) : Lockstep k Eq (ofExcept r) (ofExcept r) := by
  cases r with
  | ok a => exact .pure rfl
  | error f => exact .throw f

/-- What is caught on one stage is caught on the other one. -/
theorem attempt {x x' : Act σ α} (caught : Failure → Bool) (hx : Lockstep k Eq x x') :
    Lockstep k Eq (attempt caught x) (attempt caught x') := by
  intro st st' hk
  have h := hx st st' hk
  simp only [Act.attempt, tryCatch_apply, Bind.bind, EStateM.bind]
  generalize x st = r, x' st' = r' at h
  cases h with
  | ok ha hk₁ => exact .ok (congrArg _ ha) hk₁
  | error f hk₁ =>
    -- it is the same failure, so it is caught on both stages or on neither
    cases hf : caught f with
    | true => simpa only [hf, if_true] using .ok rfl hk₁
    | false => simpa only [hf, Bool.false_eq_true, if_false] using .error f hk₁

end Lockstep

end Act

end VisualNovel
