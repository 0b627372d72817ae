import VisualNovel.Proofs.Script.Surroundings
import VisualNovel.Proofs.Variable.Literal

/-!
# A declaration sets its variable to the value that its literal writes

A declaration goes through the trimming of the line, the search for a comment, the reading of a name
and that of a literal. None of them cuts into the literal: its blanks and its pairs of slashes stand
behind a double quote. As the lines behind it are read, the variable keeps its value until one of
them sets it again.

## Main definitions

* `Script.declarationLine`: the line that declares a variable;
* `Script.linesRead`: the lines up to the one that ends the reading.

## Main results

* `Script.declared?_declarationLine`: what the line sets;
* `Script.compileFrom_variables`: all that reading does to variables is to set those that the lines
  declare;
* `Script.compile_declared`: what a variable is after a script with its declaration has been read.
-/

namespace VisualNovel.Script

open Text Value

/-- The line that declares a variable with a literal. -/
def declarationLine (x : String) (text : List Char) : List Char :=
  "var ".toList ++ (x.toList ++ (" = ".toList ++ text))

/-- Without a double quote or a slash in front of it a text has a comment or not as before. -/
theorem Uncommented.append_left {s t : List Char} (ht : Uncommented t) (hquote : '"' ∉ s)
    (hslash : '/' ∉ s) : Uncommented (s ++ t) := by
  intro before after heq
  rcases List.append_eq_append_iff.mp heq with ⟨rest, rfl, hrest⟩ | ⟨rest, rfl, hrest⟩
  · rw [List.count_append, List.count_eq_zero_of_not_mem hquote, Nat.zero_add]
    exact ht rest after hrest
  · -- the first slash would be in front, unless the text starts with it
    cases rest with
    | nil => exact absurd (ht [] after (by simpa using hrest.symm)) (by simp)
    | cons c rest =>
      obtain ⟨rfl, -⟩ := List.cons.inj hrest
      simp at hslash

section Line

variable {x : String} {v : Value} {text : List Char}

/-- Slashes in a literal start no comment: they are inside the quotes of a text. -/
theorem uncommented_of_isLiteral (h : v.IsLiteral text) : Uncommented text := by
  cases h with
  | flag b => cases b <;> decide
  | number hsign _ hds =>
    intro before after heq
    have hslash := mem_sign_append hsign hds (heq ▸ by simp : '/' ∈ _)
    simp at hslash
  | @text s hquote _ =>
    intro before after heq
    cases before with
    | nil => cases (List.cons.inj heq).1
    | cons c before =>
      obtain ⟨rfl, hrest⟩ := List.cons.inj heq
      -- there is one quote before the slashes, since the other one ends the text
      have hbegin : before <+: s.toList := by
        refine ((List.prefix_concat_iff).mp ⟨_, hrest.symm⟩).resolve_left fun hall => ?_
        simp [hall] at hrest
      have hnone : before.count '"' = 0 :=
        List.count_eq_zero_of_not_mem fun hmem => hquote (hbegin.subset hmem)
      simp [hnone]

/-- The line that declares a variable is read as its declaration. -/
theorem declaration?_declarationLine (hx : x ≠ "") (hword : ∀ c ∈ x.toList, isWord c)
    (htext : v.IsLiteral text) :
    declaration? (declarationLine x text) = some (x, ofLiteral text) := by
  -- the name goes up to the blank behind it, the literal starts behind that after the equals sign
  have hname : trimLeft isBlank (x.toList ++ (" = ".toList ++ text)) =
      x.toList ++ (" = ".toList ++ text) := by
    refine trimLeft_eq_self_iff.mpr fun c hc => ?_
    have hne : x.toList ≠ [] := by simpa using hx
    rw [List.head?_append_of_ne_nil _ hne] at hc
    exact isBlank_of_isWord (hword c (List.mem_of_mem_head? hc))
  have hspan : spanWord (x.toList ++ (" = ".toList ++ text)) = (x.toList, " = ".toList ++ text) :=
    spanWord_append_cons hword (by decide) _
  have hliteral : trimLeft isBlank (' ' :: text) = text :=
    trimLeft_eq_self_iff.mpr (trim_eq_self_iff.mp htext.trimmed).1
  have hequals : trimLeft isBlank (" = ".toList ++ text) = '=' :: ' ' :: text := rfl
  have hdrop : dropPrefix? "var".toList (declarationLine x text) =
      some (' ' :: (x.toList ++ (" = ".toList ++ text))) := rfl
  have hskip : skipBlanks? (' ' :: (x.toList ++ (" = ".toList ++ text))) =
      some (x.toList ++ (" = ".toList ++ text)) := by
    rw [skipBlanks?, if_pos (by decide), hname]
  rw [declaration?, hdrop]
  simp only [Option.bind_eq_bind, Option.bind_some, hskip, hspan, hequals, hliteral]
  simp [hx, htext.ne_nil, htext.newline_notMem, htext.trimmed]

/-- The line that declares a variable has no blanks at its ends. -/
theorem trim_declarationLine (x : String) (htext : v.IsLiteral text) :
    trim (declarationLine x text) = declarationLine x text := by
  refine trim_eq_self_iff.mpr ⟨fun c hc => ?_, fun c hc => ?_⟩
  · obtain rfl : 'v' = c := by simpa [declarationLine] using hc
    rfl
  · -- it ends as the literal does
    rw [declarationLine, ← List.append_assoc, ← List.append_assoc,
      List.getLast?_append_of_ne_nil _ htext.ne_nil] at hc
    exact (trim_eq_self_iff.mp htext.trimmed).2 c hc

/-- No comment starts in the line that declares a variable. -/
theorem uncommented_declarationLine (hword : ∀ c ∈ x.toList, isWord c) (htext : v.IsLiteral text) :
    Uncommented (declarationLine x text) := by
  have hname : ∀ c ∈ x.toList, c ≠ '"' ∧ c ≠ '/' := fun c hc => by
    constructor <;> rintro rfl <;> exact absurd (hword _ hc) (by decide)
  have hequals : ∀ c ∈ " = ".toList, c ≠ '"' ∧ c ≠ '/' := by simp
  have hvar : ∀ c ∈ "var ".toList, c ≠ '"' ∧ c ≠ '/' := by simp
  have hfront {s t : List Char} (hs : ∀ c ∈ s, c ≠ '"' ∧ c ≠ '/') (ht : Uncommented t) :
      Uncommented (s ++ t) :=
    ht.append_left (fun h => (hs _ h).1 rfl) (fun h => (hs _ h).2 rfl)
  exact hfront hvar (hfront hname (hfront hequals (uncommented_of_isLiteral htext)))

/-- A line that declares a variable sets it to what the literal is read as. -/
theorem declared?_declarationLine (hx : x ≠ "") (hword : ∀ c ∈ x.toList, isWord c)
    (htext : v.IsLiteral text) :
    Line.declared? (declarationLine x text) = some (x, v.readBack text) := by
  have hread := read?_of_trimmed (s := declarationLine x text) (by simp [declarationLine])
    (trim_declarationLine x htext) (uncommented_declarationLine hword htext)
  rw [Line.declared?, hread, Line.classify, declaration?_declarationLine hx hword htext,
    ofLiteral_of_isLiteral htext]

end Line

section Reading

variable {name context : String} {draft? : Option Draft} {k : Nat} {vs : Variables}
variable {before after raws : List (List Char)}

/-- The lines up to the one that ends the reading. -/
def linesRead (name context : String) : Option Draft → List (List Char) → List (List Char)
  | _, [] => []
  | draft?, raw :: raws => raw :: match progress name context draft? raw with
    | .goesOn draft? => linesRead name context draft? raws
    | .ends _ => []

theorem linesRead_isPrefix (name context : String) (draft? : Option Draft)
    (raws : List (List Char)) : linesRead name context draft? raws <+: raws := by
  induction raws generalizing draft? with
  | nil => cases draft? <;> exact List.prefix_rfl
  | cons raw raws ih =>
    rw [linesRead, List.cons_prefix_cons]
    refine ⟨rfl, ?_⟩
    cases progress name context draft? raw with
    | goesOn draft? => exact ih draft?
    | ends result => exact List.nil_prefix

/-- The line that ends the reading sets no variable. -/
theorem declarations_of_progress_ends {raw : List Char} {result : Except ScriptFault Node}
    (h : progress name context draft? raw = .ends result) : declarations [raw] = [] := by
  cases draft? with
  | none => cases h
  | some d =>
    cases hmarkup : Line.markup? raw with
    | none => simp [progress, hmarkup] at h
    | some line => simp [declarations, declared?_of_markup? hmarkup]

/-- All that reading does to variables is to set those that the lines declare. -/
theorem compileFrom_variables :
    (compileFrom name context k draft? vs raws).2 =
      vs.setAll (declarations (linesRead name context draft? raws)) := by
  induction raws generalizing k draft? vs with
  | nil => cases draft? <;> rfl
  | cons raw raws ih =>
    rw [compileFrom_cons, linesRead]
    cases hprogress : progress name context draft? raw with
    | goesOn draft? =>
      dsimp only
      rw [ih, setAll_declarations_cons]
    | ends result =>
      dsimp only
      rw [declarations_of_progress_ends hprogress, Variables.setAll_nil]

/-- Lines that do not end the reading are all read, and then those behind them. -/
theorem exists_linesRead_append
    (h : (compileFrom name context k draft? vs before).1.isSettled = false) :
    ∃ draft?', ∀ after, linesRead name context draft? (before ++ after) =
      before ++ linesRead name context draft?' after := by
  -- by induction as the lines are read; one that ended the reading would have settled the outcome
  induction before generalizing k draft? vs with
  | nil => exact ⟨draft?, fun after => rfl⟩
  | cons raw before ih =>
    rw [compileFrom_cons] at h
    cases hprogress : progress name context draft? raw with
    | goesOn next? =>
      rw [hprogress] at h
      obtain ⟨draft?', hrest⟩ := ih h
      refine ⟨draft?', fun after => ?_⟩
      rw [List.cons_append, linesRead, hprogress, List.cons_append]
      exact congrArg _ (hrest after)
    | ends result =>
      rw [hprogress] at h
      cases result <;> cases h

/-- Reading goes on behind a declaration. -/
theorem progress_of_declared? {raw : List Char} {e : String × Value}
    (h : Line.declared? raw = some e) :
    progress name context draft? raw = .goesOn draft? := by
  obtain ⟨x, v, hread⟩ : ∃ x v, Line.read? raw = some (.declaration x v) := by
    unfold Line.declared? at h
    split at h
    · next x v hread => exact ⟨x, v, hread⟩
    · cases h
  cases draft? with
  | none => simp [progress, isHeader_eq_false, hread]
  | some d => simp [progress, Line.markup?, hread]

/-- A declaration that is reached sets its variable, and reading goes on behind it. -/
theorem exists_compileFrom_declared {raw : List Char} {e : String × Value}
    (hset : Line.declared? raw = some e)
    (hreached : (compileFrom name context k draft? vs before).1.isSettled = false)
    (rest : List (List Char)) :
    ∃ after, after <+: rest ∧
      linesRead name context draft? (before ++ raw :: rest) = before ++ raw :: after ∧
      (compileFrom name context k draft? vs (before ++ raw :: rest)).2 =
        ((vs.setAll (declarations before)).set e.1 e.2).setAll (declarations after) := by
  obtain ⟨draft?', happend⟩ := exists_linesRead_append hreached
  have hread : linesRead name context draft? (before ++ raw :: rest) =
      before ++ raw :: linesRead name context draft?' rest := by
    rw [happend, linesRead, progress_of_declared? hset]
  refine ⟨_, linesRead_isPrefix name context draft?' rest, hread, ?_⟩
  rw [compileFrom_variables, hread, declarations, List.filterMap_append,
    List.filterMap_cons_some hset, Variables.setAll_append, Variables.setAll_cons]
  rfl

end Reading

section Declaring

variable {name context source x : String} {vs : Variables} {v : Value} {text : List Char}
variable {before rest : List (List Char)}

/-- A script in which a declaration is reached sets the variable to exactly the value that the
literal writes; if that is an integer of too many digits, to the text of the literal. The variable
keeps it as long as the lines that are read behind it do not declare it again. -/
theorem compile_declared (hx : x ≠ "") (hword : ∀ c ∈ x.toList, isWord c)
    (htext : v.IsLiteral text)
    (hlines : lines source.toList = before ++ declarationLine x text :: rest)
    (hreached : (compileFrom name context 1 none vs before).1.isSettled = false) :
    ∃ after, linesRead name context none (lines source.toList) =
        before ++ declarationLine x text :: after ∧
      (compile source name context vs).2 =
        ((vs.setAll (declarations before)).set x (v.readBack text)).setAll (declarations after) ∧
      ((∀ e ∈ declarations after, e.1 ≠ x) →
        (compile source name context vs).2.get? x = some (v.readBack text)) := by
  have hset := declared?_declarationLine hx hword htext
  obtain ⟨after, -, hread, hstore⟩ := exists_compileFrom_declared hset hreached rest
  rw [compile, hlines]
  refine ⟨after, hread, hstore, fun hlater => ?_⟩
  rw [hstore, Variables.get?_setAll_of_forall_ne hlater, Variables.get?_set, if_pos rfl]

/-- A scene that declares a variable which is declared again behind the scene. -/
private def quay : String := "\n".intercalate ["var motto = 1", "#Node:quay",
  "var motto = \" // 007 = true \"", "Ava|So it says.", "#EndNode", "var motto = \"\""]

/-- A text keeps its blanks and slashes. -/
theorem compile_declared_quay :
    (compile quay "quay" "" .empty).2.get? "motto" = some (.str " // 007 = true ") := by
  have hmotto : IsLiteral (.str " // 007 = true ") (literal (.str " // 007 = true ")) :=
    .text (by decide) (by decide)
  have hlines : lines quay.toList = ["var motto = 1".toList, "#Node:quay".toList] ++
      declarationLine "motto" (literal (.str " // 007 = true ")) ::
        ["Ava|So it says.".toList, "#EndNode".toList, "var motto = \"\"".toList] := by
    decide +kernel
  have hreached : (compileFrom "quay" "" 1 none .empty
      ["var motto = 1".toList, "#Node:quay".toList]).1.isSettled = false := by
    decide +kernel
  obtain ⟨after, hread, -, hget⟩ :=
    compile_declared (by decide) (List.all_eq_true.mp (by decide)) hmotto hlines hreached
  have hall : linesRead "quay" "" none (lines quay.toList) =
      ["var motto = 1".toList, "#Node:quay".toList] ++
        declarationLine "motto" (literal (.str " // 007 = true ")) ::
          ["Ava|So it says.".toList, "#EndNode".toList] := by
    decide +kernel
  have hafter := (List.cons.inj (List.append_cancel_left (hread.symm.trans hall))).2
  exact hget (by rw [hafter]; decide +kernel)

/-- The lines of a scene that declares a variable with a literal. -/
def noticeLines (text : List Char) : List (List Char) :=
  ["#Node:main".toList, declarationLine "x" text, "#EndNode".toList]

/-- A scene that declares a variable with a literal. -/
def notice (text : List Char) : String := String.ofList (join ['\n'] (noticeLines text))

theorem compile_notice (htext : v.IsLiteral text) :
    (compile (notice text) "main" "" .empty).2 = Variables.empty.set "x" (v.readBack text) := by
  have hset := declared?_declarationLine (x := "x") (by decide) (List.all_eq_true.mp (by decide))
    htext
  have hlines : lines (notice text).toList = noticeLines text := by
    have hline : '\n' ∉ declarationLine "x" text := by
      simp [declarationLine, htext.newline_notMem]
    rw [notice, String.toList_ofList, lines_join (by simp [noticeLines])]
    simpa [noticeLines] using hline
  have hreached : (compileFrom "main" "" 1 none .empty ["#Node:main".toList]).1.isSettled =
      false := by
    decide +kernel
  obtain ⟨after, hafter, -, hstore⟩ := exists_compileFrom_declared hset hreached
    ["#EndNode".toList]
  have hnone : declarations after = [] :=
    List.prefix_nil.mp (hafter.filterMap Line.declared?)
  rw [compile, hlines]
  exact hstore.trans (by rw [hnone]; rfl)

/-- The digit five behind a number of zeros. -/
def fiveBehind (n : Nat) : List Char := List.replicate n '0' ++ ['5']

theorem isDigit_of_mem_fiveBehind {n : Nat} {c : Char} (hc : c ∈ fiveBehind n) : c.isDigit := by
  rcases List.mem_append.mp hc with hc | hc
  · rw [List.eq_of_mem_replicate hc]
    rfl
  · rw [List.mem_singleton.mp hc]
    rfl

theorem isLiteral_fiveBehind (n : Nat) : IsLiteral (.int 5) (fiveBehind n) := by
  have hvalue : Number.ofDigits ((fiveBehind n).map fun c => c.toNat - 48) = 5 := by
    rw [fiveBehind, List.map_append, List.map_replicate]
    exact Number.ofDigits_replicate_append n [5]
  have hliteral : IsLiteral (.int _) ([] ++ fiveBehind n) :=
    .number (by decide) (by simp [fiveBehind]) fun c hc => isDigit_of_mem_fiveBehind hc
  rwa [hvalue] at hliteral

/-- It is not so that a variable is set to every integer: if there are too many digits, be they its
own or zeros in front of it, the variable is a text. -/
theorem compile_notice_ne :
    (IsLiteral (.int 5) (fiveBehind 4300) ∧
      (compile (notice (fiveBehind 4300)) "main" "" .empty).2.get? "x" ≠ some (.int 5)) ∧
    (compile (notice (literal (.int (10 ^ 4300)))) "main" "" .empty).2.get? "x" ≠
      some (.int (10 ^ 4300)) := by
  have hlong {n : Int} {text : List Char} (htext : IsLiteral (.int n) text)
      (hdigits : Number.maxDigits < text.countP Char.isDigit) :
      (compile (notice text) "main" "" .empty).2.get? "x" ≠ some (.int n) := by
    rw [compile_notice htext, Variables.get?_set]
    simp [readBack, isOverlong, hdigits]
  refine ⟨⟨isLiteral_fiveBehind 4300, hlong (isLiteral_fiveBehind 4300) ?_⟩,
    hlong (isLiteral_formatInt _) ?_⟩
  · rw [List.countP_eq_length.mpr fun c hc => isDigit_of_mem_fiveBehind hc, fiveBehind,
      List.length_append, List.length_replicate]
    decide
  · exact Number.lt_countP_formatInt_pow 4300

end Declaring

end VisualNovel.Script
