import VisualNovel.Script.Folder

/-!
# Variables with distinct names

No name occurs twice among the variables of a session: setting a variable replaces its value, and
scripts do nothing else with variables. Variables whose names are distinct are the same as the list
of their entries.

## Main definitions

* `Variables.Distinct`: no name occurs twice.

## Main results

* `Variables.Distinct.ofList_toList`: variables from their own entries are the same;
* `Script.search_distinct`: looking for a node keeps the names distinct.
-/

namespace VisualNovel

namespace Variables

/-- No name occurs twice. -/
def Distinct (vs : Variables) : Prop := (vs.entries.map Prod.fst).Nodup

theorem distinct_empty : empty.Distinct := List.nodup_nil

/-- The names after a name has been set. -/
theorem map_fst_setEntry (name : String) (v : Value) (es : List (String × Value)) :
    (setEntry name v es).map Prod.fst =
      if name ∈ es.map Prod.fst then es.map Prod.fst else es.map Prod.fst ++ [name] := by
  induction es with
  | nil => rfl
  | cons e es ih =>
    by_cases he : e.1 = name
    · simp [setEntry, he]
    · have hne : ¬name = e.1 := fun heq => he heq.symm
      simp only [setEntry, if_neg he, List.map_cons, ih, List.mem_cons, hne, false_or]
      split <;> rfl

/-- Setting a variable keeps the names distinct. -/
theorem Distinct.set {vs : Variables} (h : vs.Distinct) (name : String) (v : Value) :
    (vs.set name v).Distinct := by
  unfold Distinct Variables.set
  rw [map_fst_setEntry]
  split
  · exact h
  · next hname =>
    rw [List.nodup_append]
    refine ⟨h, by simp, fun a ha b hb => ?_⟩
    rintro rfl
    exact hname (List.mem_singleton.mp hb ▸ ha)

/-- A name that is new is set at the end. -/
theorem set_of_not_mem {vs : Variables} {name : String} {v : Value}
    (h : name ∉ vs.entries.map Prod.fst) : vs.set name v = ⟨vs.entries ++ [(name, v)]⟩ := by
  have hset (es : List (String × Value)) (hes : name ∉ es.map Prod.fst) :
      setEntry name v es = es ++ [(name, v)] := by
    induction es with
    | nil => rfl
    | cons e es ih =>
      rw [List.map_cons, List.mem_cons, not_or] at hes
      rw [setEntry, if_neg fun heq => hes.1 heq.symm, ih hes.2]
      rfl
  rw [Variables.set, hset _ h]

/-- Variables with distinct names are made of their entries. -/
theorem Distinct.ofList_toList {vs : Variables} (h : vs.Distinct) : ofList vs.toList = vs := by
  -- entries are added one by one, and each name is new
  have hall (es : List (String × Value)) (acc : Variables)
      (hdistinct : ((acc.entries ++ es).map Prod.fst).Nodup) :
      acc.setAll es = ⟨acc.entries ++ es⟩ := by
    induction es generalizing acc with
    | nil => simp [setAll]
    | cons e es ih =>
      have hnew : e.1 ∉ acc.entries.map Prod.fst := by
        intro hmem
        rw [List.map_append, List.nodup_append] at hdistinct
        exact hdistinct.2.2 e.1 hmem e.1 (by simp) rfl
      have hstep : acc.setAll (e :: es) = (acc.set e.1 e.2).setAll es := rfl
      rw [hstep, set_of_not_mem hnew, ih]
      · simp
      · simpa using hdistinct
  exact hall vs.entries empty h

end Variables

namespace Script

variable {vs : Variables}

/-- Compiling a script keeps the names of variables distinct. -/
theorem compileFrom_distinct (name context : String) (k : Nat) (draft? : Option Draft)
    (lines : List (List Char)) (h : vs.Distinct) :
    (compileFrom name context k draft? vs lines).2.Distinct := by
  induction lines generalizing k draft? vs with
  | nil => cases draft? <;> exact h
  | cons raw rest ih =>
    rw [compileFrom]
    split
    · exact ih _ _ h
    · exact ih _ _ (h.set _ _)
    · split
      · exact ih _ _ h
      · split
        · split <;> exact h
        · split
          · exact ih _ _ h
          · exact h

/-- Looking for a node keeps the names of variables distinct. -/
theorem search_distinct (tree : Files.Tree) (folder : Files.Path) (name context : String)
    (h : vs.Distinct) : (search tree folder vs name context).vars.Distinct := by
  have hfiles (files : List (Files.Path × Files.Entry)) (vs : Variables) (h : vs.Distinct) :
      (searchFiles name context vs files).2.Distinct := by
    induction files generalizing vs with
    | nil => exact h
    | cons x files ih =>
      rw [searchFiles]
      split
      · exact h
      · next source _ =>
        have hcompiled : (compile source name context vs).2.Distinct :=
          compileFrom_distinct _ _ _ _ _ h
        split
        · next heq => rwa [heq] at hcompiled
        · next heq => rwa [heq] at hcompiled
        · next heq =>
          rw [heq] at hcompiled
          exact ih _ hcompiled
  rw [search]
  split
  · exact h
  · exact hfiles _ vs h

end Script

end VisualNovel
