import VisualNovel.Proofs.Life.Basic

/-!
# Playing a script

A life can be computed: inputs are performed one after the other, and the stays of the nodes are
kept along with the stage.

## Main definitions

* `Stage.ofScript`: a stage on which nothing has happened, with a single script;
* `Stage.play`: the stage after inputs, and the stays.

## Main results

* `Stage.life_of_play`: what is computed is part of a life.
-/

namespace VisualNovel

/-- The settings with which a session begins give a pace. -/
theorem Settings.exists_pace : ∃ pace, ({} : Settings).secondsPerCharacter = .ok pace := by
  have hok : ({} : Settings).secondsPerCharacter.isOk := by decide +kernel
  cases hpace : ({} : Settings).secondsPerCharacter with
  | ok pace => exact ⟨pace, rfl⟩
  | error f => simp [hpace, Except.isOk, Except.toBool] at hok

namespace Stage

variable {σ : Type}

/-- A stage on which nothing has happened, with a script of the given lines. -/
def ofScript (lines : List String) : Stage Unit where
  setup := ⟨⟨.working, ["dialogue"]⟩, [], ⟨2024, 1, 1, 0, 0⟩, 100⟩
  files := ⟨[(["dialogue"], .folder),
    (["dialogue", "a.dlg"], .file (String.intercalate "\n" lines).toUTF8)]⟩
  session := {}
  notices := []
  remarks := []
  host := ()

variable (o : Observer σ)

/-- The stage when a run has come to rest after some steps at most, and the stays. -/
def playOut : Nat → Stage σ → List Stay → Option (Stage σ × List Stay)
  | 0, _, _ => none
  | k + 1, st, ys =>
    match Act.step o.hear st.session.era st with
    | .ok true st' => playOut k st' (Stay.follow st.session st'.session st.session.deeds ys)
    | .ok false st' => some (st', Stay.follow st.session st'.session st.session.deeds ys)
    | .error _ _ => none

/-- The stage after inputs that have been performed one after the other, and the stays. -/
def play : List Input → Stage σ → List Stay → Option (Stage σ × List Stay)
  | [], st, ys => some (st, ys)
  | i :: is, st, ys =>
    match i.prepare o.hear st with
    | .ok none st' => play is st' (ys.take st'.session.nodes.length)
    | .error _ st' => play is st' (ys.take st'.session.nodes.length)
    | .ok (some seen) st' =>
      let began := { st' with session := { st'.session with seen } }
      match playOut o st'.setup.patience began (i.stays st.session st'.session ys) with
      | some (st'', ys') => play is st'' ys'
      | none => none

variable {o} {st st' : Stage σ} {ys ys' : List Stay}

/-- A run that comes to rest is part of a life. -/
theorem life_of_playOut {w : Shelf} {k : Nat} (h : Life o w true st.session ys) (hw : st.shelf = w)
    (hplay : playOut o k st ys = some (st', ys')) :
    Life o w false st'.session ys' ∧ st'.shelf = w := by
  -- on the steps, each of which is one of the life
  induction k generalizing st ys with
  | zero => cases hplay
  | succ k ih =>
    have hstep := Act.step_ends st o
    unfold playOut at hplay
    cases hresult : Act.step o.hear st.session.era st with
    | error f st₁ => simp [hresult] at hplay
    | ok goesOn st₁ =>
      obtain ⟨s', -, hfollows⟩ := hstep.of_ok hresult
      have hnext := h.steps hw rfl hresult
      rw [hresult] at hplay
      cases goesOn with
      | true => exact ih hnext (hfollows.shelf.trans hw) hplay
      | false =>
        obtain ⟨rfl, rfl⟩ := Prod.mk.inj (Option.some.inj hplay)
        exact ⟨hnext, hfollows.shelf.trans hw⟩

/-- What is computed from inputs is part of a life. -/
theorem life_of_play {w : Shelf} {is : List Input} (h : Life o w false st.session ys)
    (hw : st.shelf = w) (hplay : play o is st ys = some (st', ys')) :
    Life o w false st'.session ys' := by
  -- on the inputs: a preparation that rests or fails, or one that begins a run
  induction is generalizing st ys with
  | nil =>
    obtain ⟨rfl, rfl⟩ := Prod.mk.inj (Option.some.inj hplay)
    exact h
  | cons i is ih =>
    have hprepare := Input.prepare_ends st o i
    unfold play at hplay
    cases hresult : i.prepare o.hear st with
    | error f st₁ =>
      obtain ⟨s', -, hfollows⟩ := hprepare.of_error hresult
      rw [hresult] at hplay
      exact ih (h.fails hw rfl hresult) (hfollows.shelf.trans hw) hplay
    | ok seen? st₁ =>
      have hends := hprepare.of_ok hresult
      rw [hresult] at hplay
      cases seen? with
      | none =>
        obtain ⟨s', -, hfollows⟩ := hends
        exact ih (h.rests hw rfl hresult) (hfollows.shelf.trans hw) hplay
      | some seen =>
        obtain ⟨s', -, hfollows⟩ := hends
        have hbegins := h.begins hw rfl hresult
        dsimp only at hplay
        split at hplay
        · next st₂ ys₂ hout =>
          have hw' : st₁.shelf = w := hfollows.shelf.trans hw
          obtain ⟨hlife, hw'⟩ := life_of_playOut hbegins (by exact hw') hout
          exact ih hlife hw' hplay
        · cases hplay

/-- What is computed from a script and inputs is part of a life. -/
theorem exists_life_of_play (lines : List String) (is : List Input)
    (P : Session → List Stay → Prop) [∀ s ys, Decidable (P s ys)]
    (h : (play .noting is (ofScript lines) []).any fun r => P r.1.session r.2) :
    ∃ s ys, Life (.noting : Observer Unit) (ofScript lines).shelf false s ys ∧ P s ys := by
  cases hplay : play .noting is (ofScript lines) [] with
  | none => simp [hplay] at h
  | some r =>
    have hlife := life_of_play (.fresh {} Variables.distinct_empty) rfl hplay
    exact ⟨r.1.session, r.2, hlife, by simpa [hplay] using h⟩

end Stage

end VisualNovel
