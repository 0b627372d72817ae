import Mathlib.Data.List.Induction
import VisualNovel.Proofs.Variable.Distinct

/-!
# Variables that are set one after the other

A name keeps the place that it was given when it was first set, and of several values for one name
the last one counts. To replace all variables is to start from none and to set the new ones, up to
the first value that no variable can hold.

## Main definitions

* `Variables.hostPair?`: the variable that a host's value makes;
* `Variables.IsReplaced`: the variables are those that a host has given.

## Main results

* `Variables.get?_setAll`, `Variables.map_fst_ofList`: values and names after variables have been
  set one after the other;
* `Variables.setAllHost_append`: a host's values are set up to the first that is refused;
* `Variables.replaceAll_all_or_front`: what the variables are after all of them have been replaced.
-/

namespace VisualNovel.Variables

variable {vs : Variables} {x y : String} {v : Value} {es : List (String × Value)}

section Setting

theorem setAll_nil (vs : Variables) : vs.setAll [] = vs := rfl

theorem setAll_cons (vs : Variables) (e : String × Value) (es : List (String × Value)) :
    vs.setAll (e :: es) = (vs.set e.1 e.2).setAll es := rfl

theorem setAll_append (vs : Variables) (es fs : List (String × Value)) :
    vs.setAll (es ++ fs) = (vs.setAll es).setAll fs := List.foldl_append

theorem setAll_concat (vs : Variables) (es : List (String × Value)) (e : String × Value) :
    vs.setAll (es ++ [e]) = (vs.setAll es).set e.1 e.2 := setAll_append vs es [e]

/-- A variable that has been set has its value, and no other variable has changed. -/
theorem get?_set (vs : Variables) (x y : String) (v : Value) :
    (vs.set x v).get? y = if y = x then some v else vs.get? y := by
  suffices h : ∀ es, findEntry? y (setEntry x v es) = if y = x then some v else findEntry? y es from
    h vs.entries
  intro es
  induction es with
  | nil =>
    by_cases hy : y = x
    · simp [setEntry, findEntry?, hy]
    · simp [setEntry, findEntry?, hy, Ne.symm hy]
  | cons e es ih =>
    by_cases he : e.1 = x
    · by_cases hy : y = x
      · simp [setEntry, findEntry?, he, hy]
      · simp [setEntry, findEntry?, he, hy, Ne.symm hy]
    · by_cases hy : e.1 = y
      · simp [setEntry, findEntry?, hy, show ¬y = x from fun h => he (hy.trans h)]
      · simp [setEntry, findEntry?, he, hy, ih]

/-- After variables have been set one after the other, each has the last value that it was given. -/
theorem get?_setAll (vs : Variables) (es : List (String × Value)) (x : String) :
    (vs.setAll es).get? x = ((mk es.reverse).get? x).or (vs.get? x) := by
  induction es using List.reverseRecOn with
  | nil => rfl
  | append_singleton es e ih =>
    rw [setAll_concat, get?_set, ih, List.reverse_concat]
    by_cases hx : x = e.1
    · simp [get?, findEntry?, hx]
    · simp [get?, findEntry?, hx, Ne.symm hx]

/-- Variables keep their values as long as they are not set. -/
theorem get?_setAll_of_forall_ne (h : ∀ e ∈ es, e.1 ≠ x) : (vs.setAll es).get? x = vs.get? x := by
  induction es using List.reverseRecOn with
  | nil => rfl
  | append_singleton es e ih =>
    have he : e.1 ≠ x := h e List.mem_concat_self
    rw [setAll_concat, get?_set, if_neg he.symm, ih fun e he => h e (List.mem_append_left _ he)]

/-- The names of variables that have been set one after the other stand in the order in which they
first occurred. -/
theorem map_fst_ofList (es : List (String × Value)) :
    (ofList es).entries.map Prod.fst = (es.map Prod.fst).eraseDups := by
  induction es using List.reverseRecOn with
  | nil => rfl
  | append_singleton es e ih =>
    rw [ofList, setAll_concat, Variables.set, map_fst_setEntry, ← ofList, ih, List.map_append,
      List.eraseDups_append]
    -- the new name is left out if it has occurred before
    by_cases he : e.1 ∈ es.map Prod.fst
    · simp_all [List.removeAll, List.mem_eraseDups]
    · simp_all [List.removeAll, List.mem_eraseDups, List.eraseDups_cons]

end Setting

section Replacing

variable {given : List (String × Json)}

/-- The variable that a host's value makes, if a variable can hold it. -/
def hostPair? (h : String × Json) : Option (String × Value) :=
  (Value.ofJson? h.2).map (h.1, ·)

theorem hostPair?_of_isSome {h : String × Json} (hok : (Value.ofJson? h.2).isSome) :
    ∃ w, Value.ofJson? h.2 = some w ∧ hostPair? h = some (h.1, w) := by
  obtain ⟨w, hw⟩ := Option.isSome_iff_exists.mp hok
  exact ⟨w, hw, by simp [hostPair?, hw]⟩

theorem map_fst_hostPairs (hok : ∀ h ∈ given, (Value.ofJson? h.2).isSome) :
    (given.filterMap hostPair?).map Prod.fst = given.map Prod.fst := by
  induction given with
  | nil => rfl
  | cons h given ih =>
    obtain ⟨w, -, hentry⟩ := hostPair?_of_isSome (hok h List.mem_cons_self)
    rw [List.filterMap_cons_some hentry, List.map_cons, List.map_cons,
      ih fun h' hmem => hok h' (List.mem_cons_of_mem _ hmem)]

theorem get?_hostPairs (hok : ∀ h ∈ given, (Value.ofJson? h.2).isSome) (x : String) :
    (mk (given.filterMap hostPair?)).get? x =
      (given.find? (·.1 = x)).bind fun h => Value.ofJson? h.2 := by
  induction given with
  | nil => rfl
  | cons h given ih =>
    obtain ⟨w, hw, hentry⟩ := hostPair?_of_isSome (hok h List.mem_cons_self)
    have hrest := ih fun h' hmem => hok h' (List.mem_cons_of_mem _ hmem)
    rw [get?] at hrest
    rw [List.filterMap_cons_some hentry, get?, findEntry?, hrest, List.find?_cons]
    by_cases hx : h.1 = x <;> simp [hx, hw]

/-- A host's values are set one after the other as long as variables can hold them. -/
theorem setAllHost_append (vs : Variables) (hok : ∀ h ∈ given, (Value.ofJson? h.2).isSome)
    (rest : List (String × Json)) :
    vs.setAllHost (given ++ rest) = (vs.setAll (given.filterMap hostPair?)).setAllHost rest := by
  induction given generalizing vs with
  | nil => rfl
  | cons h given ih =>
    obtain ⟨w, hw, hentry⟩ := hostPair?_of_isSome (hok h List.mem_cons_self)
    rw [List.filterMap_cons_some hentry, setAll_cons, List.cons_append, setAllHost, setHost, hw]
    exact ih _ fun h' hmem => hok h' (List.mem_cons_of_mem _ hmem)

/-- The variables are those that a host has given: the names in the order in which they first occur,
and for each of them the last value that is given for it. -/
structure IsReplaced (given : List (String × Json)) (vs : Variables) : Prop where
  /-- There are the given names and no others, in the order of their first occurrence. -/
  names : vs.entries.map Prod.fst = (given.map Prod.fst).eraseDups
  /-- Each name has the value that was given last. -/
  values : ∀ x, vs.get? x = (given.reverse.find? (·.1 = x)).bind fun h => Value.ofJson? h.2

/-- Variables that are made of a host's values are those that it has given. -/
theorem isReplaced_ofList (hok : ∀ h ∈ given, (Value.ofJson? h.2).isSome) :
    IsReplaced given (ofList (given.filterMap hostPair?)) where
  names := by rw [map_fst_ofList, map_fst_hostPairs hok]
  values x := by
    have hlast : (mk (given.reverse.filterMap hostPair?)).get? x = _ :=
      get?_hostPairs (fun h hmem => hok h (List.mem_reverse.mp hmem)) x
    rw [ofList, get?_setAll, ← List.filterMap_reverse, hlast]
    exact Option.or_none

/-- If variables can hold all values that a host gives, then these replace all variables. Otherwise
the first value that no variable can hold is refused, and there are the variables in front of it;
the old ones are gone. -/
theorem replaceAll_all_or_front (vs : Variables) (given : List (String × Json)) :
    ((∀ h ∈ given, (Value.ofJson? h.2).isSome) ∧
      ∃ ws, vs.replaceAll given = (ws, none) ∧ IsReplaced given ws) ∨
    ∃ front x bad rest, given = front ++ (x, bad) :: rest ∧ Value.ofJson? bad = none ∧
      (∀ h ∈ front, (Value.ofJson? h.2).isSome) ∧
      ∃ ws, vs.replaceAll given = (ws, some (.notAValue x bad)) ∧ IsReplaced front ws := by
  by_cases hok : ∀ h ∈ given, (Value.ofJson? h.2).isSome
  · refine .inl ⟨hok, _, ?_, isReplaced_ofList hok⟩
    have hall := setAllHost_append empty hok []
    rwa [List.append_nil] at hall
  · -- the first value that is refused ends the setting
    obtain ⟨h, hfind⟩ : ∃ h, given.find? (fun h => (Value.ofJson? h.2).isNone) = some h := by
      rw [← Option.isSome_iff_exists, List.find?_isSome]
      simpa using hok
    obtain ⟨hbad, front, rest, rfl, hfront⟩ := List.find?_eq_some_iff_append.mp hfind
    have hbad : Value.ofJson? h.2 = none := by simpa using hbad
    have hfront : ∀ h ∈ front, (Value.ofJson? h.2).isSome := by
      simpa [Option.isSome_iff_ne_none] using hfront
    refine .inr ⟨front, h.1, h.2, rest, rfl, hbad, hfront, _, ?_, isReplaced_ofList hfront⟩
    rw [replaceAll, setAllHost_append empty hfront, setAllHost, setHost, hbad]
    rfl

/-- It is not so that variables stay as they were if not all of them can be replaced: a value that
is refused behind another one leaves nothing but the latter. -/
theorem not_replaceAll_all_or_nothing : ¬∀ (vs : Variables) (given : List (String × Json)),
    (∃ ws, vs.replaceAll given = (ws, none) ∧ IsReplaced given ws) ∨
      ∃ f, vs.replaceAll given = (vs, some f) := by
  intro hall
  have hpart : (⟨[("a", .int 1)]⟩ : Variables).replaceAll [("b", .int 2), ("c", .null)] =
      (⟨[("b", .int 2)]⟩, some (.notAValue "c" .null)) := rfl
  rcases hall ⟨[("a", .int 1)]⟩ [("b", .int 2), ("c", .null)] with ⟨ws, hws, -⟩ | ⟨f, hf⟩
  · rw [hpart] at hws
    cases (Prod.mk.inj hws).2
  · rw [hpart] at hf
    revert hf
    simp

end Replacing

end VisualNovel.Variables
