import VisualNovel.Proofs.Life.Forgetting
import VisualNovel.Proofs.Life.Stance

/-!
# Demands one after the other

A host makes demands of a session whether or not the earlier ones have been met. A demand that fails
leaves the stage as it is at that point, and the session goes on from there.

## Main definitions

* `Demand.after`, `Demand.afterAll`: the stage after a demand, and after demands.

## Main results

* `Demand.afterAll_keep`: what every demand keeps is kept by demands one after the other;
* `Act.BlindToStory.setVariable`, `Act.BlindToStory.assignSetting`: what is kept by the demands that
  only change variables and settings.
-/

namespace VisualNovel

open Act

namespace Demand

variable {σ : Type} (hear : Listener σ)

/-- The stage after a demand, whether or not it is met. -/
def after (d : Demand) (st : Stage σ) : Stage σ :=
  match d.perform hear st with
  | .ok _ st' => st'
  | .error _ st' => st'

/-- The stage after demands, whether or not they are met. -/
def afterAll (ds : List Demand) (st : Stage σ) : Stage σ :=
  ds.foldl (fun st d => d.after hear st) st

variable {hear} {st : Stage σ}

/-- What holds however a demand ends holds of the stage after it. -/
theorem after_of_ends {d : Demand} {P : Stage σ → Prop}
    (h : Ends (d.perform hear) st (fun _ => P) fun _ => P) : P (d.after hear st) := by
  unfold Ends at h
  unfold after
  split at h <;> next hd => simpa [hd] using h

theorem afterAll_append (ds es : List Demand) :
    afterAll hear (ds ++ es) st = afterAll hear es (afterAll hear ds st) :=
  List.foldl_append

/-- What every demand keeps is kept by demands one after the other. -/
theorem afterAll_keep {P : Stage σ → Prop}
    (hkeep : ∀ (d : Demand) st, P st → P (d.after hear st))
    (h : P st) (ds : List Demand) : P (afterAll hear ds st) := by
  induction ds generalizing st with
  | nil => exact h
  | cons d ds ih => exact ih (hkeep d st h)

end Demand

namespace Act.BlindToStory

variable {σ : Type} {o : Observer σ} {R : Stage σ → Stage σ → Prop} (hR : BlindToStory o R)

include hR

/-- To set a variable does not change the stance. -/
theorem setVariable (name : String) (value : Json) :
    Leaves R ((Demand.setVariable name value).perform o.hear) := by
  refine hR.bind hR.session fun s => ?_
  split
  · exact hR.edit fun _ => ⟨rfl, rfl, rfl, rfl, rfl, rfl, rfl⟩
  · exact hR.throw _

/-- Nor does it to change a setting. -/
theorem assignSetting (name : String) (value : Json) :
    Leaves R ((Demand.assignSetting name value).perform o.hear) := by
  refine hR.bind hR.session fun s => hR.bind (hR.ofExcept _) fun _ => ?_
  exact hR.edit fun _ => ⟨rfl, rfl, rfl, rfl, rfl, rfl, rfl⟩

end Act.BlindToStory

end VisualNovel
