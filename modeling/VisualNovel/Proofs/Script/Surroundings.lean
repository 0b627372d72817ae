import VisualNovel.Proofs.Script.Line
import VisualNovel.Proofs.Script.Markup
import VisualNovel.Proofs.Variable.Setting

/-!
# A node does not depend on the text around it

A text is read line by line. Each line either ends the reading or hands a draft on to the next one,
and sets a variable at most. So the lines in front of a node leave behind nothing but the variables
that they set, unless one of them opens the node, and the lines behind the one that ends the reading
are not looked at.

## Main definitions

* `Script.Progress`, `Script.progress`: what comes of one line;
* `Script.Outcome.isSettled`: one of the lines has ended the reading;
* `Script.isHeader`: the line opens the node of a name;
* `Script.declarations`, `Script.upToEnd`: the variables that lines set, and the lines in front of
  the closing marker.

## Main results

* `Script.compileFrom_cons`: a text is read line by line;
* `Script.compileFrom_append_of_isSettled`: what is behind the line that ends the reading makes no
  difference;
* `Script.compileFrom_behind`: lines are counted from the one at which reading starts;
* `Script.compile_surrounded`: a node is compiled in any surroundings as it is alone.
-/

namespace VisualNovel.Script

open Text

/-- The variable that a line sets, and its value. -/
def Line.declared? (raw : List Char) : Option (String × Value) :=
  match Line.read? raw with
  | some (.declaration x v) => some (x, v)
  | _ => none

/-- The variables that lines set, one after the other. -/
def declarations (raws : List (List Char)) : List (String × Value) :=
  raws.filterMap Line.declared?

/-- The lines in front of the first closing marker. -/
def upToEnd (raws : List (List Char)) : List (List Char) :=
  raws.takeWhile fun raw => Line.read? raw ≠ some .endNode

/-- The line opens the node of a name. -/
def isHeader (name : String) (raw : List Char) : Bool :=
  let s := stripComment (trim raw)
  nodeMarker.isPrefixOf s && trim (s.drop nodeMarker.length) = name.toList

/-- The fault as it is found behind a number of other lines. -/
def LocatedFault.behind (f : LocatedFault) (m : Nat) : LocatedFault :=
  { f with line := f.line.map (· + m) }

/-- One of the lines has ended the reading: the node is complete, or the line is at fault. -/
def Outcome.isSettled : Outcome → Bool
  | .ok (some _) | .error ⟨_, some _⟩ => true
  | _ => false

/-- What comes of a line. -/
inductive Progress where
  /-- Reading goes on, with the draft of the node if it is open. -/
  | goesOn (draft? : Option Draft)
  /-- Reading ends. -/
  | ends (result : Except ScriptFault Node)

/-- What comes of a line that is read with the draft of the node, if it is open. -/
def progress (name context : String) : Option Draft → List Char → Progress
  | none, raw => .goesOn (if isHeader name raw then some (.blank name context) else none)
  | some d, raw => match Line.markup? raw with
    | none => .goesOn (some d)
    | some line =>
      if line = .endNode then .ends d.close
      else match d.take line with
        | .ok d => .goesOn (some d)
        | .error f => .ends (.error f)

/-- The outcome of reading that ends at the line with the given number. -/
def outcomeAt (k : Nat) : Except ScriptFault Node → Outcome
  | .ok n => .ok (some n)
  | .error f => .error ⟨f, some k⟩

section Lines

variable {name context : String} {raw : List Char} {draft? : Option Draft} {d : Draft}

/-- A header is what opens a node. -/
theorem isHeader_iff :
    isHeader name raw ↔ ∃ whole, Line.read? raw = some (.node name.toList whole) := by
  simp only [isHeader, Bool.and_eq_true, decide_eq_true_eq, List.isPrefixOf_iff_prefix,
    read?_eq_some_iff]
  constructor
  · rintro ⟨⟨rest, hrest⟩, hname⟩
    rw [← hrest, List.drop_left] at hname
    refine ⟨nodeMarker ++ rest, by simp [← hrest, nodeMarker], ?_⟩
    rw [← hrest, ← hname]
    rfl
  · rintro ⟨whole, -, hclassify⟩
    unfold Line.classify at hclassify
    repeat' split at hclassify
    all_goals try cases hclassify
    next hmarker =>
      obtain ⟨hname, -⟩ := Line.node.inj hclassify
      exact ⟨List.isPrefixOf_iff_prefix.mp hmarker, hname⟩

theorem isHeader_eq_false (h : ∀ whole, Line.read? raw ≠ some (.node name.toList whole)) :
    isHeader name raw = false :=
  Bool.eq_false_iff.mpr fun hheader => by
    obtain ⟨whole, hread⟩ := isHeader_iff.mp hheader
    exact h whole hread

/-- A line that means something to a node sets no variable. -/
theorem declared?_of_markup? {line : Line} (h : Line.markup? raw = some line) :
    Line.declared? raw = none := by
  obtain ⟨hread, hne⟩ := markup?_eq_some_iff.mp h
  unfold Line.declared?
  split
  · next x v hdeclaration =>
    exact absurd (Option.some.inj (hread.symm.trans hdeclaration)) (hne x v)
  · rfl

/-- An open draft stays open in front of the closing marker. -/
theorem progress_eq_goesOn (h : progress name context (some d) raw = .goesOn draft?) :
    Line.read? raw ≠ some .endNode ∧ ∃ d', draft? = some d' := by
  simp only [progress] at h
  split at h
  · next hmarkup =>
    refine ⟨fun hread => ?_, d, (Progress.goesOn.inj h).symm⟩
    simp [Line.markup?, hread] at hmarkup
  · next line hmarkup =>
    split at h
    · cases h
    · next hne =>
      split at h
      · next d' _ =>
        refine ⟨fun hread => hne ?_, d', (Progress.goesOn.inj h).symm⟩
        exact Option.some.inj ((markup?_eq_some_iff.mp hmarkup).1.symm.trans hread)
      · cases h

/-- Only the closing marker completes a node. -/
theorem read?_of_progress_ends {n : Node} (h : progress name context (some d) raw = .ends (.ok n)) :
    Line.read? raw = some .endNode := by
  simp only [progress] at h
  split at h
  · cases h
  · next line hmarkup =>
    split at h
    · next hend => exact hend ▸ (markup?_eq_some_iff.mp hmarkup).1
    · split at h <;> cases h

end Lines

section Reading

variable {name context : String} {draft? : Option Draft} {k : Nat} {vs : Variables}
variable {raw : List Char} {before after raws : List (List Char)}

/-- A text is read line by line: a line sets its variable and hands the draft on, or it ends the
reading. -/
theorem compileFrom_cons :
    compileFrom name context k draft? vs (raw :: after) =
      match progress name context draft? raw with
      | .goesOn draft? =>
        compileFrom name context (k + 1) draft? (vs.setAll (declarations [raw])) after
      | .ends result => (outcomeAt k result, vs) := by
  rw [compileFrom]
  split
  · next hread =>
    have hheader : isHeader name raw = false := isHeader_eq_false (by simp [hread])
    cases draft? <;> simp [progress, hheader, Line.markup?, declarations, Line.declared?, hread,
      Variables.setAll_nil]
  · next x v hread =>
    have hheader : isHeader name raw = false := isHeader_eq_false (by simp [hread])
    cases draft? <;> simp [progress, hheader, Line.markup?, declarations, Line.declared?, hread,
      Variables.setAll_cons, Variables.setAll_nil]
  · next line hline hread =>
    have hmarkup : Line.markup? raw = some line := markup?_eq_some_iff.mpr ⟨hread, hline⟩
    have hnone : declarations [raw] = [] := by simp [declarations, declared?_of_markup? hmarkup]
    rw [hnone, Variables.setAll_nil]
    cases draft? with
    | none =>
      dsimp only [progress]
      congr 1
      split
      · next header whole =>
        by_cases hname : header = name.toList
        · have hheader : isHeader name raw := isHeader_iff.mpr ⟨whole, by rw [hread, hname]⟩
          rw [if_pos hname, if_pos hheader]
          rfl
        · rw [if_neg hname, isHeader_eq_false (by simp [hread, hname])]
          rfl
      · next hnode =>
        rw [isHeader_eq_false (by simpa [hread] using fun whole h => hnode _ whole h)]
        rfl
    | some d =>
      simp only [progress, hmarkup]
      split
      · cases d.close <;> rfl
      · cases d.take line <;> rfl

/-- What is behind the line that ends the reading makes no difference. -/
theorem compileFrom_append_of_isSettled
    (h : (compileFrom name context k draft? vs before).1.isSettled) :
    compileFrom name context k draft? vs (before ++ after) =
      compileFrom name context k draft? vs before := by
  induction before generalizing k draft? vs with
  | nil => cases draft? <;> cases h
  | cons raw before ih =>
    rw [List.cons_append, compileFrom_cons, compileFrom_cons]
    rw [compileFrom_cons] at h
    cases hprogress : progress name context draft? raw with
    | goesOn draft? =>
      rw [hprogress] at h
      exact ih h
    | ends result => rfl

theorem setAll_declarations_cons (vs : Variables) (raw : List Char) (raws : List (List Char)) :
    (vs.setAll (declarations [raw])).setAll (declarations raws) =
      vs.setAll (declarations (raw :: raws)) := by
  rw [← Variables.setAll_append, declarations, declarations, ← List.filterMap_append]
  rfl

/-- Lines that do not open the node set their variables, and no more. -/
theorem compileFrom_append_of_not_isHeader (h : ∀ raw ∈ before, isHeader name raw = false) :
    compileFrom name context k none vs (before ++ after) =
      compileFrom name context (k + before.length) none (vs.setAll (declarations before))
        after := by
  induction before generalizing k vs with
  | nil => rfl
  | cons raw before ih =>
    have hraw : isHeader name raw = false := h raw List.mem_cons_self
    simp only [List.cons_append, compileFrom_cons, progress, hraw, Bool.false_eq_true, if_false]
    rw [ih fun raw' hmem => h raw' (List.mem_cons_of_mem _ hmem), setAll_declarations_cons,
      List.length_cons, Nat.add_right_comm]
    rfl

/-- Lines are counted from the one at which reading starts. -/
theorem compileFrom_behind (m : Nat) :
    compileFrom name context (k + m) draft? vs raws =
      ((compileFrom name context k draft? vs raws).1.mapError (·.behind m),
        (compileFrom name context k draft? vs raws).2) := by
  induction raws generalizing k draft? vs with
  | nil => cases draft? <;> rfl
  | cons raw raws ih =>
    rw [compileFrom_cons, compileFrom_cons]
    cases progress name context draft? raw with
    | goesOn draft? =>
      dsimp only
      rw [Nat.add_right_comm, ih]
    | ends result => cases result <;> rfl

/-- An open draft becomes a node at the first closing marker; up to there variables are set. -/
theorem compileFrom_eq_ok {d : Draft} {n : Node}
    (h : (compileFrom name context k (some d) vs raws).1 = .ok (some n)) :
    (compileFrom name context k (some d) vs raws).2 = vs.setAll (declarations (upToEnd raws)) := by
  induction raws generalizing k d vs with
  | nil => cases h
  | cons raw raws ih =>
    rw [compileFrom_cons] at h ⊢
    cases hprogress : progress name context (some d) raw with
    | goesOn draft? =>
      obtain ⟨hread, d', rfl⟩ := progress_eq_goesOn hprogress
      rw [hprogress] at h
      have hend : upToEnd (raw :: raws) = raw :: upToEnd raws := by simp [upToEnd, hread]
      dsimp only
      rw [ih h, hend, setAll_declarations_cons]
    | ends result =>
      rw [hprogress] at h
      obtain ⟨n', rfl⟩ : ∃ n', result = .ok n' := by
        cases result with
        | ok n' => exact ⟨n', rfl⟩
        | error f => cases h
      have hend : upToEnd (raw :: raws) = [] := by
        simp [upToEnd, read?_of_progress_ends hprogress]
      rw [hend]
      rfl

/-- In front of a line that is at fault, variables are set. -/
theorem compileFrom_eq_error {f : ScriptFault} {j : Nat}
    (h : (compileFrom name context k draft? vs raws).1 = .error ⟨f, some j⟩) :
    k ≤ j ∧ (compileFrom name context k draft? vs raws).2 =
      vs.setAll (declarations (raws.take (j - k))) := by
  induction raws generalizing k draft? vs with
  | nil => cases draft? <;> simp [compileFrom] at h
  | cons raw raws ih =>
    rw [compileFrom_cons] at h ⊢
    cases hprogress : progress name context draft? raw with
    | goesOn draft? =>
      rw [hprogress] at h
      obtain ⟨hle, hvs⟩ := ih h
      refine ⟨by omega, ?_⟩
      have htake : (raw :: raws).take (j - k) = raw :: raws.take (j - (k + 1)) := by
        rw [show j - k = j - (k + 1) + 1 by omega, List.take_succ_cons]
      dsimp only
      rw [hvs, htake, setAll_declarations_cons]
    | ends result =>
      rw [hprogress] at h
      cases result with
      | ok n => cases h
      | error f' =>
        cases h
        simp [declarations, Variables.setAll_nil]

end Reading

section Surroundings

variable {name context pre body post : String} {vs : Variables}

/-- A text that starts with the header of a node is read up to its closing marker if the node is
complete. -/
theorem compile_eq_ok {n : Node} (hbody : ∃ raw ∈ (lines body.toList).head?, isHeader name raw)
    (h : (compile body name context vs).1 = .ok (some n)) :
    (compile body name context vs).2 = vs.setAll (declarations (upToEnd (lines body.toList))) := by
  obtain ⟨raw, hraw, hheader⟩ := hbody
  obtain ⟨rest, hlines⟩ := List.head?_eq_some_iff.mp hraw
  have hend : upToEnd (raw :: rest) = raw :: upToEnd rest := by
    obtain ⟨whole, hread⟩ := isHeader_iff.mp hheader
    simp [upToEnd, hread]
  simp only [compile, hlines, compileFrom_cons, progress, hheader, if_true] at h ⊢
  rw [compileFrom_eq_ok h, hend, setAll_declarations_cons]

/-- A text is read up to the line that is at fault. -/
theorem compile_eq_error {f : ScriptFault} {j : Nat}
    (h : (compile body name context vs).1 = .error ⟨f, some j⟩) :
    (compile body name context vs).2 =
      vs.setAll (declarations ((lines body.toList).take (j - 1))) :=
  (compileFrom_eq_error h).2

/-- Surroundings that do not open the node add their number of lines to the place of a fault, and
what they declare in front of the node to the variables. -/
theorem compile_append (hpre : ∀ raw ∈ lines pre.toList, isHeader name raw = false)
    (hbody : (compile body name context vs).1.isSettled) :
    compile (pre ++ "\n" ++ body ++ "\n" ++ post) name context vs =
      ((compile body name context (vs.setAll (declarations (lines pre.toList)))).1.mapError
          (·.behind (lines pre.toList).length),
        (compile body name context (vs.setAll (declarations (lines pre.toList)))).2) := by
  have hlines : lines (pre ++ "\n" ++ body ++ "\n" ++ post).toList =
      lines pre.toList ++ (lines body.toList ++ lines post.toList) := by
    rw [← lines_append_newline_append, ← lines_append_newline_append]
    simp
  have hcount : compileFrom name context (1 + (lines pre.toList).length) none
      (vs.setAll (declarations (lines pre.toList))) (lines body.toList) = _ :=
    compileFrom_behind (lines pre.toList).length
  rw [compile, hlines, compileFrom_append_of_not_isHeader hpre, compileFrom_append_of_isSettled,
    hcount]
  · rfl
  · -- where the lines are counted from and which variables there are does not matter
    rw [hcount]
    rw [compile, compileFrom_congr vs (vs.setAll (declarations (lines pre.toList)))] at hbody
    generalize (compileFrom name context 1 none _ (lines body.toList)).1 = outcome at hbody
    rcases outcome with ⟨f, _ | j⟩ | _ | n <;> simp_all [Outcome.isSettled, Except.mapError,
      LocatedFault.behind]

/-- A node is compiled in any surroundings as it is alone, and a line of it that is at fault is
found at its place among all lines. Variables are set by the lines in front of the node, and then by
its own. What stands behind the node is not looked at. -/
theorem compile_surrounded (hpre : ∀ raw ∈ lines pre.toList, isHeader name raw = false)
    (hbody : ∃ raw ∈ (lines body.toList).head?, isHeader name raw) (ws : Variables) :
    (∀ n, (compile body name context vs).1 = .ok (some n) →
      compile (pre ++ "\n" ++ body ++ "\n" ++ post) name context ws =
        (.ok (some n), ws.setAll
          (declarations (lines pre.toList) ++ declarations (upToEnd (lines body.toList))))) ∧
    ∀ f j, (compile body name context vs).1 = .error ⟨f, some j⟩ →
      compile (pre ++ "\n" ++ body ++ "\n" ++ post) name context ws =
        (.error ⟨f, some (j + (lines pre.toList).length)⟩, ws.setAll
          (declarations (lines pre.toList) ++
            declarations ((lines body.toList).take (j - 1)))) := by
  have hsame (ws' : Variables) : (compile body name context vs).1 =
      (compile body name context ws').1 := compileFrom_congr vs ws'
  constructor
  · intro n hn
    have hok := hsame (ws.setAll (declarations (lines pre.toList))) ▸ hn
    rw [compile_append hpre (by rw [← hsame, hn]; rfl), hok, compile_eq_ok hbody hok,
      Variables.setAll_append]
    rfl
  · intro f j hf
    have herror := hsame (ws.setAll (declarations (lines pre.toList))) ▸ hf
    rw [compile_append hpre (by rw [← hsame, hf]; rfl), herror, compile_eq_error herror,
      Variables.setAll_append]
    rfl

/-- A scene with a declaration in it and one behind it. -/
private def pier : String := "\n".intercalate ["#Node:pier // the end of the town", "var tide = 2",
  "Ava|Hm.", "#EndNode", "var tide = 3"]

/-- A scene with a line that is at fault. -/
private def wreck : String := "\n".intercalate ["#Node:wreck", "var seen = true", "endif",
  "var seen = false"]

/-- What stands around a node may be out of order, with a quote and a node that are never closed. -/
theorem compile_surrounded_pier :
    (compile pier "pier" "" .empty).1 = .ok (some ⟨"pier", "", 0, ["Ava|Hm."], [], []⟩) ∧
    compile ("var tide = \"low\nelse" ++ "\n" ++ pier ++ "\n" ++ "#EndDecision\n#Node:pier") "pier"
        "" .empty =
      (.ok (some ⟨"pier", "", 0, ["Ava|Hm."], [], []⟩), ⟨[("tide", .int 2)]⟩) ∧
    (compile wreck "wreck" "" .empty).1 = .error ⟨.unopenedConditional, some 3⟩ ∧
    compile ("#Node:pier\nvar fog = 1" ++ "\n" ++ wreck ++ "\n" ++ "#EndNode") "wreck" "" .empty =
      (.error ⟨.unopenedConditional, some 5⟩, ⟨[("fog", .int 1), ("seen", .bool true)]⟩) := by
  have hpier : (compile pier "pier" "" .empty).1 =
      .ok (some ⟨"pier", "", 0, ["Ava|Hm."], [], []⟩) := by decide +kernel
  have hwreck : (compile wreck "wreck" "" .empty).1 = .error ⟨.unopenedConditional, some 3⟩ := by
    decide +kernel
  refine ⟨hpier, ?_, hwreck, ?_⟩
  · refine ((compile_surrounded (by decide +kernel) ⟨_, rfl, by decide +kernel⟩ .empty).1 _
      hpier).trans ?_
    decide +kernel
  · refine ((compile_surrounded (by decide +kernel) ⟨_, rfl, by decide +kernel⟩ .empty).2 _ _
      hwreck).trans ?_
    decide +kernel

end Surroundings

end VisualNovel.Script
