import VisualNovel.Proofs.Json.Token

/-!
# JSON text is read as it has been written

A value without real numbers is read from the text that it is printed as, however the text is laid
out, provided that its integers are not too long. Integers may come back as wide ones.

## Main definitions

* `Json.asRead`: a value as a dialect has it;
* `Json.isExact`: a value without real numbers.

## Main results

* `Json.asRead_obj`: members with distinct names are not joined;
* `Json.read_render`: a printed value is read again;
* `Json.read_render_error`: a value with an integer that is too long is not.
-/

namespace VisualNovel.Json

open Number

mutual
/-- The value as a dialect has it: integers may be wide and members may be joined. -/
def asRead (d : Dialect) : Json → Json
  | .int n | .wide n => d.int n
  | .arr items => .arr (itemsAsRead d items)
  | .obj members => d.object (membersAsRead d members)
  | v => v
/-- Items as a dialect has them. -/
def itemsAsRead (d : Dialect) : List Json → List Json
  | [] => []
  | v :: vs => v.asRead d :: itemsAsRead d vs
/-- Members as a dialect has them. -/
def membersAsRead (d : Dialect) : List (String × Json) → List (String × Json)
  | [] => []
  | (k, v) :: ms => (k, v.asRead d) :: membersAsRead d ms
end

mutual
/-- The value has no real numbers, and all its strings are texts. -/
def isExact : Json → Bool
  | .real _ | .broken _ => false
  | .arr items => itemsExact items
  | .obj members => membersExact members
  | _ => true
/-- The items have no real numbers, and all their strings are texts. -/
def itemsExact : List Json → Bool
  | [] => true
  | v :: vs => v.isExact && itemsExact vs
/-- The members have no real numbers, and all their strings are texts. -/
def membersExact : List (String × Json) → Bool
  | [] => true
  | (_, v) :: ms => v.isExact && membersExact ms
end

section Objects

variable {name : String} {v : Json} {ms : List (String × Json)}

/-- A member with a new name comes last. -/
theorem setMember_of_notMem (h : name ∉ ms.map Prod.fst) :
    setMember name v ms = ms ++ [(name, v)] := by
  induction ms with
  | nil => rfl
  | cons m ms ih =>
    rw [List.map_cons, List.mem_cons, not_or] at h
    rw [setMember, if_neg (Ne.symm h.1), ih h.2]
    rfl

/-- Members with new and distinct names come after those that are there. -/
theorem foldl_setMember (acc : List (String × Json)) (h : ((acc ++ ms).map Prod.fst).Nodup) :
    ms.foldl (fun acc m => setMember m.1 m.2 acc) acc = acc ++ ms := by
  induction ms generalizing acc with
  | nil => rw [List.append_nil, List.foldl_nil]
  | cons m ms ih =>
    have hnew : m.1 ∉ acc.map Prod.fst := by
      rw [List.map_append, List.map_cons] at h
      exact fun hmem => (List.nodup_append.mp h).2.2 _ hmem _ List.mem_cons_self rfl
    have hnext : (((acc ++ [m]) ++ ms).map Prod.fst).Nodup := by
      rwa [List.append_assoc, List.singleton_append]
    rw [List.foldl_cons, setMember_of_notMem hnew]
    exact (ih _ hnext).trans (List.append_assoc acc [m] ms)

/-- Members with distinct names are not joined. -/
theorem Dialect.object_of_nodup (d : Dialect) (h : (ms.map Prod.fst).Nodup) :
    d.object ms = .obj ms := by
  cases d with
  | model => rfl
  | slot => exact congrArg Json.obj (foldl_setMember [] h)

theorem map_fst_membersAsRead (d : Dialect) (ms : List (String × Json)) :
    (membersAsRead d ms).map Prod.fst = ms.map Prod.fst := by
  induction ms with
  | nil => rfl
  | cons m ms ih => rw [membersAsRead, List.map_cons, List.map_cons, ih]

/-- An object keeps its members if they have distinct names. -/
theorem asRead_obj (d : Dialect) (h : (ms.map Prod.fst).Nodup) :
    asRead d (.obj ms) = .obj (membersAsRead d ms) := by
  rw [asRead, d.object_of_nodup]
  rwa [map_fst_membersAsRead]

end Objects

section Layout

variable {st : Style} {level : Nat} {rest : List Char} {d : Dialect}

/-- Reading passes over the start of a line. -/
theorem skipSpace_newline : skipSpace (st.newline level ++ rest) = skipSpace rest := by
  unfold Style.newline
  split
  · rfl
  · next k _ =>
    have hspaces (m : Nat) : skipSpace (List.replicate m ' ' ++ rest) = skipSpace rest := by
      induction m with
      | zero => rfl
      | succ m ih => exact ih
    exact hspaces (k * level)

/-- What is no space is not passed over. -/
theorem skipSpace_cons {c : Char} (hc : c ∉ [' ', '\t', '\n', '\r']) :
    skipSpace (c :: rest) = c :: rest := by
  simp only [List.mem_cons, List.not_mem_nil, or_false, not_or] at hc
  simp [skipSpace, hc]

variable (st level) in
/-- A value starts with a character that neither is a space nor closes anything. -/
theorem print_head (v : Json) (hv : v.isExact) :
    ∃ c cs, print st level v = c :: cs ∧ c ∉ [' ', '\t', '\n', '\r', ']', '}', ','] := by
  -- a number starts with a digit or a minus sign
  have hdigits (n : Nat) : ∃ c cs, decimal n = c :: cs ∧
      c ∉ [' ', '\t', '\n', '\r', ']', '}', ','] := by
    obtain ⟨c, cs, hcs⟩ := List.exists_cons_of_ne_nil (decimal_ne_nil (n := n))
    refine ⟨c, cs, hcs, fun hmem => ?_⟩
    have hc : c.isDigit := isDigit_of_mem_decimal (n := n) (by rw [hcs]; exact List.mem_cons_self)
    have hclear : [' ', '\t', '\n', '\r', ']', '}', ','].all (fun c => !c.isDigit) := rfl
    have hnot := List.all_eq_true.mp hclear c hmem
    simp [hc] at hnot
  have hint (n : Int) : ∃ c cs, formatInt n = c :: cs ∧
      c ∉ [' ', '\t', '\n', '\r', ']', '}', ','] := by
    cases n with
    | ofNat k => exact hdigits k
    | negSucc k => exact ⟨'-', _, rfl, by decide⟩
  cases v with
  | null => exact ⟨'n', _, rfl, by decide⟩
  | bool b => cases b <;> exact ⟨_, _, rfl, by decide⟩
  | int n => simpa only [print] using hint n
  | wide n => simpa only [print] using hint n
  | real x => cases hv
  | str s => exact ⟨'"', _, rfl, by decide⟩
  | broken points => cases hv
  | arr items => cases items <;> exact ⟨'[', _, rfl, by decide⟩
  | obj members => cases members <;> exact ⟨'{', _, rfl, by decide⟩

/-- Reading a value passes over the start of a line. -/
theorem span_newline (fuel : Nat) :
    span d fuel (st.newline level ++ rest) = span d fuel rest := by
  cases fuel with
  | zero => rfl
  | succ fuel => rw [span, span, skipSpace_newline]

/-- A text that starts with a digit is read as a number. -/
theorem span_digit {c : Char} (hc : c.isDigit) (fuel : Nat) :
    span d (fuel + 1) (c :: rest) = spanNumber d (c :: rest) := by
  -- the reader looks for other characters first, none of which is a digit
  have hne : ∀ x : Char, x.isDigit = false → c ≠ x := by
    rintro x hx rfl
    rw [hx] at hc
    cases hc
  have hspace : c ∉ [' ', '\t', '\n', '\r'] := by
    intro hmem
    have hclear : [' ', '\t', '\n', '\r'].all (fun c => !c.isDigit) := rfl
    have hnot := List.all_eq_true.mp hclear c hmem
    simp [hc] at hnot
  rw [span, skipSpace_cons hspace]
  split
  all_goals first
    | rfl
    | next heq => exact absurd (List.cons.inj heq).1 (hne _ rfl)

/-- So is a text that starts with a minus sign and a digit. -/
theorem span_minus {c : Char} (hc : c.isDigit) (fuel : Nat) :
    span d (fuel + 1) ('-' :: c :: rest) = spanNumber d ('-' :: c :: rest) := by
  rw [span, skipSpace_cons (by decide)]
  split
  all_goals first
    | rfl
    | next heq => exact absurd (List.cons.inj heq).1 (by decide)
    | skip
  -- the one word that starts with a minus sign goes on with a letter
  next heq =>
    rw [(List.cons.inj (List.cons.inj heq).2).1] at hc
    cases hc

/-- A line may start behind a value. -/
theorem Closes.newline (level : Nat) {c : Char} (hc : c = ']' ∨ c = '}') (rest : List Char) :
    Closes (st.newline level ++ c :: rest) := by
  intro x hx
  unfold Style.newline at hx
  split at hx
  · obtain rfl : c = x := by simpa using hx
    tauto
  · obtain rfl : '\n' = x := by simpa using hx
    tauto

/-- Further items may stand behind a value. -/
theorem Closes.printItems (level : Nat) (vs : List Json) {rest : List Char} (hrest : Closes rest) :
    Closes (printItems st level vs ++ rest) := by
  cases vs with
  | nil => exact hrest
  | cons v vs =>
    intro x hx
    obtain rfl : ',' = x := by simpa [Json.printItems] using hx
    exact .inl rfl

/-- Further members may stand behind a value. -/
theorem Closes.printMembers (level : Nat) (ms : List (String × Json)) {rest : List Char}
    (hrest : Closes rest) :
    Closes (printMembers st level ms ++ rest) := by
  cases ms with
  | nil => exact hrest
  | cons v vs =>
    intro x hx
    obtain rfl : ',' = x := by simpa [Json.printMembers] using hx
    exact .inl rfl

/-- An integer is read as it has been written, unless it is too long. -/
theorem gives_int {n : Int} {fuel : Nat} {rest : List Char} (hrest : Closes rest)
    (hfuel : 2 * (formatInt n).length ≤ fuel) :
    Gives d [n] (span d fuel (formatInt n ++ rest)) (d.int n) rest := by
  have hdigits (k : Nat) : ∃ c cs, decimal k = c :: cs ∧ c.isDigit := by
    obtain ⟨c, cs, hcs⟩ := List.exists_cons_of_ne_nil (decimal_ne_nil (n := k))
    exact ⟨c, cs, hcs, isDigit_of_mem_decimal (n := k) (by rw [hcs]; exact List.mem_cons_self)⟩
  have hgives := gives_formatInt (d := d) hrest n
  -- the sign decides which character the reader sees first
  cases n with
  | ofNat k =>
    obtain ⟨c, cs, hcs, hc⟩ := hdigits k
    rw [formatInt, hcs] at hgives hfuel ⊢
    obtain ⟨fuel, rfl⟩ := Nat.exists_eq_succ_of_ne_zero
      (show fuel ≠ 0 by simp only [List.length_cons] at hfuel; omega)
    rw [List.cons_append, Nat.succ_eq_add_one, span_digit hc]
    exact hgives
  | negSucc k =>
    obtain ⟨c, cs, hcs, hc⟩ := hdigits (k + 1)
    rw [formatInt, hcs] at hgives hfuel ⊢
    obtain ⟨fuel, rfl⟩ := Nat.exists_eq_succ_of_ne_zero
      (show fuel ≠ 0 by simp only [List.length_cons] at hfuel; omega)
    rw [List.cons_append, List.cons_append, Nat.succ_eq_add_one, span_minus hc]
    exact hgives

/-- The items of a list with the bracket behind them. -/
def itemsText (st : Style) (level : Nat) (v : Json) (vs : List Json) : List Char :=
  st.newline (level + 1) ++ (print st (level + 1) v ++
    (printItems st (level + 1) vs ++ (st.newline level ++ [']'])))

/-- The members of an object with the brace behind them. -/
def membersText (st : Style) (level : Nat) (k : String) (v : Json) (ms : List (String × Json)) :
    List Char :=
  st.newline (level + 1) ++ (printString st.asciiOnly k ++ (st.colon ++ (print st (level + 1) v ++
    (printMembers st (level + 1) ms ++ (st.newline level ++ ['}'])))))

/-- A list is written as its items between brackets. -/
theorem print_arr (level : Nat) (v : Json) (vs : List Json) :
    print st level (.arr (v :: vs)) = '[' :: itemsText st level v vs := by
  simp [print, itemsText]

/-- An object is written as its members between braces. -/
theorem print_obj (level : Nat) (k : String) (v : Json) (ms : List (String × Json)) :
    print st level (.obj ((k, v) :: ms)) = '{' :: membersText st level k v ms := by
  simp [print, membersText]

/-- Behind the first item stand a comma and the other items. -/
theorem itemsText_cons (level : Nat) (v w : Json) (ws : List Json) :
    itemsText st level v (w :: ws) =
      st.newline (level + 1) ++ (print st (level + 1) v ++ ',' :: itemsText st level w ws) := by
  simp [itemsText, printItems]

/-- Behind the first member stand a comma and the other members. -/
theorem membersText_cons (level : Nat) (k : String) (v : Json) (m : String × Json)
    (ms : List (String × Json)) :
    membersText st level k v (m :: ms) = st.newline (level + 1) ++ (printString st.asciiOnly k ++
      (st.colon ++ (print st (level + 1) v ++ ',' :: membersText st level m.1 m.2 ms))) := by
  simp [membersText, printMembers]

variable (st) in
/-- A value is written with one character at least. -/
theorem length_print_pos (level : Nat) {v : Json} (hv : v.isExact) :
    0 < (print st level v).length := by
  obtain ⟨c, cs, hcs, -⟩ := print_head st level v hv
  rw [hcs]
  exact Nat.succ_pos _

variable (st d) in
/-- Reading passes over what stands between a name and its value. -/
theorem skipSpace_colon (rest : List Char) :
    ∃ rest', skipSpace (st.colon ++ rest) = ':' :: rest' ∧
      ∀ fuel, span d fuel rest' = span d fuel rest := by
  unfold Style.colon
  split
  · refine ⟨' ' :: rest, rfl, fun fuel => ?_⟩
    cases fuel with
    | zero => rfl
    | succ fuel => rw [span, span]; rfl
  · exact ⟨rest, rfl, fun _ => rfl⟩

variable (st) in
/-- Items do not start with a closing bracket. -/
theorem skipSpace_itemsText (level : Nat) {v : Json} (hv : v.isExact) (vs : List Json)
    (rest : List Char) :
    ∃ c cs, skipSpace (itemsText st level v vs ++ rest) = c :: cs ∧ c ≠ ']' := by
  obtain ⟨c, cs, hcs, hc⟩ := print_head st (level + 1) v hv
  -- the first item starts behind the spaces, with what is neither space nor bracket
  have hspace : c ∉ [' ', '\t', '\n', '\r'] := fun hmem =>
    hc (List.mem_append_left [']', '}', ','] hmem)
  rw [itemsText, List.append_assoc, skipSpace_newline, hcs, List.cons_append, List.cons_append,
    skipSpace_cons hspace]
  exact ⟨c, _, rfl, fun heq => hc (by rw [heq]; decide)⟩

variable (st) in
/-- Members start with a quote. -/
theorem skipSpace_membersText (level : Nat) (k : String) (v : Json)
    (ms : List (String × Json)) (rest : List Char) :
    ∃ cs, skipSpace (membersText st level k v ms ++ rest) = '"' :: cs := by
  rw [membersText, List.append_assoc, skipSpace_newline, printString]
  exact ⟨_, skipSpace_cons (by decide)⟩

/-- The name of a member is read as it has been written. -/
theorem gives_name (level : Nat) (k : String) (rest : List Char) :
    Gives d [] (spanName d (skipSpace (st.newline level ++ (printString st.asciiOnly k ++ rest))))
      k rest := by
  have hskip : skipSpace (printString st.asciiOnly k ++ rest) =
      printString st.asciiOnly k ++ rest :=
    skipSpace_cons (by decide)
  rw [skipSpace_newline, hskip, spanName_printString]
  exact .pure

mutual
/-- A value is read as it has been written, unless an integer in it is too long. -/
theorem gives_span :
    ∀ (v : Json) (level fuel : Nat) (rest : List Char), v.isExact → Closes rest →
      2 * (print st level v).length ≤ fuel →
      Gives d v.numbers (span d fuel (print st level v ++ rest)) (v.asRead d) rest
  | .int n, _, _, _, _, hrest, hfuel => gives_int hrest hfuel
  | .wide n, _, _, _, _, hrest, hfuel => gives_int hrest hfuel
  -- fuel lasts for two units for each character, and a value has one character at least
  | v, level, 0, rest, hv, _, hfuel => by
    have := length_print_pos st level hv
    omega
  | .null, level, fuel + 1, rest, _, _, _ => by
    simp [print, span, skipSpace, numbers, asRead, Gives.pure]
  | .bool b, level, fuel + 1, rest, _, _, _ => by
    cases b <;> simp [print, span, skipSpace, numbers, asRead, Gives.pure]
  | .real _, _, _ + 1, _, hv, _, _ => by cases hv
  | .broken _, _, _ + 1, _, hv, _, _ => by cases hv
  | .str s, level, fuel + 1, rest, _, _, _ => by
    have hprint : print st level (.str s) ++ rest =
        '"' :: (escape st.asciiOnly s.toList ++ '"' :: rest) := by
      simp [print, printString]
    rw [hprint, span, skipSpace_cons (by decide)]
    simp only [spanText_escape]
    exact .pure
  | .arr [], level, fuel + 1, rest, _, _, _ => by
    simp [print, span, skipSpace, numbers, numbersOfItems, asRead, itemsAsRead, Gives.pure]
  | .arr (v :: vs), level, fuel + 1, rest, hv, _, hfuel => by
    rw [print_arr, List.length_cons] at hfuel
    have hitems := gives_spanItems v vs level fuel rest hv (by omega)
    obtain ⟨c, cs, hcs, hc⟩ :=
      skipSpace_itemsText st level (Bool.and_eq_true_iff.mp hv).1 vs rest
    rw [print_arr, List.cons_append, span, skipSpace_cons (by decide)]
    simp only [hcs]
    split
    · next heq => exact absurd (List.cons.inj heq).1 hc
    · exact hitems.map Json.arr
  | .obj [], level, fuel + 1, rest, _, _, _ => by
    cases d <;> simp [print, span, skipSpace, numbers, numbersOfMembers, asRead, membersAsRead,
      Gives.pure, Dialect.object]
  | .obj ((k, v) :: ms), level, fuel + 1, rest, hv, _, hfuel => by
    rw [print_obj, List.length_cons] at hfuel
    have hmembers := gives_spanMembers k v ms level fuel rest hv (by omega)
    obtain ⟨cs, hcs⟩ := skipSpace_membersText st level k v ms rest
    rw [print_obj, List.cons_append, span, skipSpace_cons (by decide)]
    simp only [hcs]
    exact hmembers.map d.object
/-- Items are read as they have been written. -/
theorem gives_spanItems :
    ∀ (v : Json) (vs : List Json) (level fuel : Nat) (rest : List Char), itemsExact (v :: vs) →
      2 * (itemsText st level v vs).length ≤ fuel →
      Gives d (numbersOfItems (v :: vs)) (spanItems d fuel (itemsText st level v vs ++ rest))
        (itemsAsRead d (v :: vs)) rest
  | v, [], level, 0, rest, hv, hfuel => by simp [itemsText] at hfuel
  | v, [], level, fuel + 1, rest, hv, hfuel => by
    have htext : itemsText st level v [] ++ rest = st.newline (level + 1) ++
        (print st (level + 1) v ++ (st.newline level ++ ']' :: rest)) := by
      simp [itemsText, printItems]
    have hlength : 2 * (print st (level + 1) v).length ≤ fuel := by
      simp only [itemsText, List.length_append, List.length_cons] at hfuel
      omega
    have hvalue := gives_span v (level + 1) fuel (st.newline level ++ ']' :: rest)
      (Bool.and_eq_true_iff.mp hv).1 (.newline level (.inl rfl) rest) hlength
    rw [spanItems, htext, span_newline]
    refine hvalue.bind ?_
    simp only [skipSpace_newline, skipSpace_cons (c := ']') (by decide)]
    exact .pure
  | v, w :: ws, level, 0, rest, hv, hfuel => by simp [itemsText] at hfuel
  -- the text of the other items is shorter, so fuel is left for them
  | v, w :: ws, level, fuel + 1, rest, hv, hfuel => by
    obtain ⟨hv, hws⟩ := Bool.and_eq_true_iff.mp hv
    rw [itemsText_cons] at hfuel ⊢
    simp only [List.length_append, List.length_cons] at hfuel
    have hpos := length_print_pos st (level + 1) hv
    have hvalue := gives_span v (level + 1) fuel (',' :: (itemsText st level w ws ++ rest)) hv
      (fun c hc => .inl (Option.some.inj hc).symm) (by omega)
    have hitems := gives_spanItems w ws level fuel rest hws (by omega)
    rw [spanItems, List.append_assoc, List.append_assoc, List.cons_append, span_newline]
    refine hvalue.bind ?_
    simp only [skipSpace_cons (c := ',') (by decide)]
    exact hitems.map (List.cons (v.asRead d))
/-- Members are read as they have been written. -/
theorem gives_spanMembers :
    ∀ (k : String) (v : Json) (ms : List (String × Json)) (level fuel : Nat) (rest : List Char),
      membersExact ((k, v) :: ms) → 2 * (membersText st level k v ms).length ≤ fuel →
      Gives d (numbersOfMembers ((k, v) :: ms))
        (spanMembers d fuel (membersText st level k v ms ++ rest)) (membersAsRead d ((k, v) :: ms))
        rest
  | k, v, [], level, 0, rest, hv, hfuel => by simp [membersText] at hfuel
  | k, v, [], level, fuel + 1, rest, hv, hfuel => by
    have htext : membersText st level k v [] ++ rest = st.newline (level + 1) ++
        (printString st.asciiOnly k ++ (st.colon ++
          (print st (level + 1) v ++ (st.newline level ++ '}' :: rest)))) := by
      simp [membersText, printMembers]
    have hlength : 2 * (print st (level + 1) v).length ≤ fuel := by
      simp only [membersText, List.length_append, List.length_cons] at hfuel
      omega
    have hvalue := gives_span v (level + 1) fuel (st.newline level ++ '}' :: rest)
      (Bool.and_eq_true_iff.mp hv).1 (.newline level (.inr rfl) rest) hlength
    obtain ⟨rest', hcolon, hspan⟩ := skipSpace_colon st d
      (print st (level + 1) v ++ (st.newline level ++ '}' :: rest))
    rw [spanMembers, htext]
    show Gives d ([] ++ numbersOfMembers [(k, v)]) _ _ _
    refine (gives_name (level + 1) k _).bind ?_
    simp only [hcolon, hspan]
    refine hvalue.bind ?_
    simp only [skipSpace_newline, skipSpace_cons (c := '}') (by decide)]
    exact .pure
  | k, v, m :: ms, level, 0, rest, hv, hfuel => by simp [membersText] at hfuel
  | k, v, (l, w) :: ms, level, fuel + 1, rest, hv, hfuel => by
    obtain ⟨hv, hms⟩ := Bool.and_eq_true_iff.mp hv
    rw [membersText_cons] at hfuel ⊢
    simp only [List.length_append, List.length_cons] at hfuel
    have hpos := length_print_pos st (level + 1) hv
    have hvalue := gives_span v (level + 1) fuel
      (',' :: (membersText st level l w ms ++ rest)) hv
      (fun c hc => .inl (Option.some.inj hc).symm) (by omega)
    have hmembers := gives_spanMembers l w ms level fuel rest hms (by omega)
    obtain ⟨rest', hcolon, hspan⟩ := skipSpace_colon st d
      (print st (level + 1) v ++ ',' :: (membersText st level l w ms ++ rest))
    simp only [List.append_assoc, List.cons_append]
    rw [spanMembers]
    -- there are no numbers in a name
    show Gives d ([] ++ numbersOfMembers ((k, v) :: (l, w) :: ms)) _ _ _
    refine (gives_name (level + 1) k _).bind ?_
    simp only [hcolon, hspan]
    refine hvalue.bind ?_
    simp only [skipSpace_cons (c := ',') (by decide)]
    exact hmembers.map (List.cons (k, v.asRead d))
end

variable {v : Json} (hv : v.isExact)

include hv

/-- A value is read from its text, of which nothing is left. -/
theorem gives_render :
    Gives d v.numbers (span d (2 * (v.render st).length + 2) (v.render st).toList) (v.asRead d)
      [] := by
  have hlength : (v.render st).length = (print st 0 v).length := by simp [render]
  have hgives : Gives d v.numbers (span d (2 * (v.render st).length + 2) (print st 0 v ++ []))
      (v.asRead d) [] :=
    gives_span v 0 _ [] hv (by simp [Closes]) (by omega)
  rw [List.append_nil] at hgives
  rw [show (v.render st).toList = print st 0 v by simp [render]]
  exact hgives

/-- A value is read as it has been written, if all integers in it can be read. -/
theorem read_render (hreads : ∀ n ∈ v.numbers, d.Reads n) :
    read d (v.render st) = .ok (v.asRead d) := by
  rw [read, (gives_render hv).ok hreads]
  rfl

/-- A model is read as it has been written, if its integers can be read and it is not too deep. -/
theorem readModel?_render (hreads : ∀ n ∈ v.numbers, Dialect.model.Reads n)
    (hdepth : (v.asRead .model).depth ≤ maxDepth) :
    readModel? (v.render st) = some (v.asRead .model) := by
  simp [readModel?, read_render hv hreads, Except.toOption, hdepth]

/-- A value with an integer that is too long cannot be read. -/
theorem read_render_error {n : Int} (hn : n ∈ v.numbers) (hnot : ¬d.Reads n) :
    ∃ k, read d (v.render st) = .error (.oversized k) := by
  obtain ⟨k, hk⟩ := (gives_render hv).error n hn hnot
  refine ⟨k, ?_⟩
  rw [read, hk]
  rfl

end Layout

end VisualNovel.Json
