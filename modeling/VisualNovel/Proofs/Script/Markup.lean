import VisualNovel.Proofs.Layout.Compile

/-!
# The markup of a text

To a node a text is a list of lines without the blank ones and the declarations. Its section starts
behind the header of the node; the node is made of the lines up to the first closing marker, one
after the other.

## Main definitions

* `Script.markup`, `Script.sectionOf?`, `Script.body`: the lines that matter to a node;
* `Script.Draft.finish`: the node that a draft becomes.

## Main results

* `Script.compile_eq_ok_some_iff`: a compiled node is the empty draft, finished with the section;
* `Script.compile_eq_ok_none_iff`: nothing is found exactly if there is no section.
-/

namespace VisualNovel.Script

/-- What a line means to a node; blank lines, comments and declarations mean nothing. -/
def Line.markup? (raw : List Char) : Option Line :=
  match Line.read? raw with
  | some (.declaration _ _) => none
  | line? => line?

/-- The lines that mean something to a node. -/
def markup (raws : List (List Char)) : List Line := raws.filterMap Line.markup?

/-- The lines behind the first header with a name. -/
def behindHeader? (name : List Char) : List Line → Option (List Line)
  | [] => none
  | .node header _ :: ls => if header = name then some ls else behindHeader? name ls
  | _ :: ls => behindHeader? name ls

/-- The section of a node in a text: all that stands behind its header. -/
def sectionOf? (source name : String) : Option (List Line) :=
  behindHeader? name.toList (markup (Text.lines source.toList))

/-- The lines before the first closing marker. -/
def body (ls : List Line) : List Line := ls.takeWhile (· ≠ .endNode)

/-- The draft of a node that has just been opened. -/
def Draft.blank (name context : String) : Draft := ⟨name, context, [], [], none, [], []⟩

/-- The node that a draft becomes with the lines of its section. -/
def Draft.finish (d : Draft) (name : String) (ls : List Line) : Except ScriptFault Node := do
  let d ← (body ls).foldlM Draft.take d
  if .endNode ∈ ls then d.close else .error (.unclosedNode name)

section Reading

variable {raw : List Char} {line : Line}

/-- A line that means something to a node has been read and is no declaration. -/
theorem markup?_eq_some_iff :
    Line.markup? raw = some line ↔
      Line.read? raw = some line ∧ ∀ x v, line ≠ .declaration x v := by
  unfold Line.markup?
  split
  · next x v h =>
    simp only [h, reduceCtorEq, Option.some.injEq, false_iff, not_and]
    rintro rfl hne
    exact hne x v rfl
  · next h =>
    refine ⟨fun heq => ⟨heq, ?_⟩, And.left⟩
    rintro x v rfl
    exact h x v heq

theorem markup_cons_of_none {raws : List (List Char)} (h : Line.markup? raw = none) :
    markup (raw :: raws) = markup raws := List.filterMap_cons_none h

theorem markup_cons_of_some {raws : List (List Char)} (h : Line.markup? raw = some line) :
    markup (raw :: raws) = line :: markup raws := List.filterMap_cons_some h

/-- What a node sees of a text has been read from its lines. -/
theorem read?_of_mem_markup {raws : List (List Char)} (h : line ∈ markup raws) :
    ∃ raw ∈ raws, Line.read? raw = some line := by
  obtain ⟨raw, hraw, hline⟩ := List.mem_filterMap.mp h
  exact ⟨raw, hraw, (markup?_eq_some_iff.mp hline).1⟩

/-- What stands behind a header is part of the text. -/
theorem mem_of_behindHeader? {name : List Char} {ls rest : List Line}
    (h : behindHeader? name ls = some rest) (hline : line ∈ rest) : line ∈ ls := by
  fun_induction behindHeader? name ls with
  | case1 => cases h
  | case2 whole ls => cases h; exact List.mem_cons_of_mem _ hline
  | case3 header whole ls hne ih => exact List.mem_cons_of_mem _ (ih h)
  | case4 l ls hl ih => exact List.mem_cons_of_mem _ (ih h)

/-- The lines of a section have been read from the lines of the text. -/
theorem read?_of_mem_section {source name : String} {ls : List Line}
    (h : sectionOf? source name = some ls) (hline : line ∈ ls) :
    ∃ raw ∈ Text.lines source.toList, Line.read? raw = some line :=
  read?_of_mem_markup (mem_of_behindHeader? h hline)

/-- The lines before the closing marker are part of the section. -/
theorem mem_of_mem_body {ls : List Line} (h : line ∈ body ls) : line ∈ ls :=
  (List.takeWhile_prefix _).subset h

end Reading

section Finishing

variable {d : Draft} {name : String} {ls : List Line}

@[simp]
theorem finish_endNode : d.finish name (.endNode :: ls) = d.close := by
  simp [Draft.finish, body, pure, Except.pure, bind, Except.bind]

/-- A line before the closing marker is taken up. -/
theorem finish_cons {line : Line} (h : line ≠ .endNode) :
    d.finish name (line :: ls) = (d.take line).bind (·.finish name ls) := by
  simp only [Draft.finish, body, List.takeWhile_cons, h, ne_eq, not_false_eq_true, decide_true,
    if_true, List.foldlM_cons, List.mem_cons, Ne.symm h, false_or]
  cases d.take line <;> rfl

/-- A draft becomes a node if the lines up to the closing marker can be taken up and nothing is
left open. -/
theorem finish_eq_ok_iff {n : Node} :
    d.finish name ls = .ok n ↔
      .endNode ∈ ls ∧ ∃ d', (body ls).foldlM Draft.take d = .ok d' ∧ d'.close = .ok n := by
  unfold Draft.finish
  cases (body ls).foldlM Draft.take d with
  | error f => simp [bind, Except.bind]
  | ok d' => by_cases h : .endNode ∈ ls <;> simp [bind, Except.bind, h]

end Finishing

section Compiling

variable {name context : String} {k : Nat} {vs : Variables} {raws : List (List Char)}

variable (name context k vs raws) in
/-- A line that means nothing to a node leaves the draft alone; at most a variable is set. -/
theorem compileFrom_cons_of_none (draft? : Option Draft) {raw : List Char}
    (h : Line.markup? raw = none) : ∃ ws, compileFrom name context k draft? vs (raw :: raws) =
      compileFrom name context (k + 1) draft? ws raws := by
  rw [compileFrom]
  split
  · exact ⟨_, rfl⟩
  · exact ⟨_, rfl⟩
  · next line hline hread =>
    rw [markup?_eq_some_iff.mpr ⟨hread, hline⟩] at h
    cases h

/-- Before the node is open, only its header matters. -/
theorem compileFrom_none_cons {raw : List Char} {line : Line} (h : Line.markup? raw = some line) :
    compileFrom name context k none vs (raw :: raws) =
      compileFrom name context (k + 1)
        (match line with
          | .node header _ => if header = name.toList then some (.blank name context) else none
          | _ => none) vs raws := by
  obtain ⟨hread, hline⟩ := markup?_eq_some_iff.mp h
  rw [compileFrom, hread]
  cases line with
  | declaration x v => exact absurd rfl (hline x v)
  | _ => rfl

/-- Once it is open, a line ends it or is taken up. -/
theorem compileFrom_some_cons {d : Draft} {raw : List Char} {line : Line}
    (h : Line.markup? raw = some line) :
    compileFrom name context k (some d) vs (raw :: raws) =
      if line = .endNode then
        match d.close with
        | .ok n => (.ok (some n), vs)
        | .error f => (.error ⟨f, some k⟩, vs)
      else match d.take line with
        | .ok d => compileFrom name context (k + 1) (some d) vs raws
        | .error f => (.error ⟨f, some k⟩, vs) := by
  obtain ⟨hread, hline⟩ := markup?_eq_some_iff.mp h
  rw [compileFrom, hread]
  cases line with
  | declaration x v => exact absurd rfl (hline x v)
  | _ => rfl

/-- An open draft is finished with the lines that follow. -/
theorem compileFrom_some {d : Draft} :
    (compileFrom name context k (some d) vs raws).1.mapError LocatedFault.fault =
      (d.finish name (markup raws)).map some := by
  induction raws generalizing k d vs with
  | nil => rfl
  | cons raw raws ih =>
    cases hmarkup : Line.markup? raw with
    | none =>
      obtain ⟨ws, hskip⟩ := compileFrom_cons_of_none name context k vs raws (some d) hmarkup
      rw [hskip, markup_cons_of_none hmarkup, ih]
    | some line =>
      rw [compileFrom_some_cons hmarkup, markup_cons_of_some hmarkup]
      split
      · next hend =>
        subst hend
        rw [finish_endNode]
        cases d.close <;> rfl
      · next hend =>
        rw [finish_cons hend]
        cases d.take line with
        | error f => rfl
        | ok d' => exact ih

/-- Before the node is open, its header is looked for. -/
theorem compileFrom_none :
    (compileFrom name context k none vs raws).1.mapError LocatedFault.fault =
      match behindHeader? name.toList (markup raws) with
      | none => .ok none
      | some ls => ((Draft.blank name context).finish name ls).map some := by
  induction raws generalizing k vs with
  | nil => rfl
  | cons raw raws ih =>
    cases hmarkup : Line.markup? raw with
    | none =>
      obtain ⟨ws, hskip⟩ := compileFrom_cons_of_none name context k vs raws none hmarkup
      rw [hskip, markup_cons_of_none hmarkup, ih]
    | some line =>
      rw [compileFrom_none_cons hmarkup, markup_cons_of_some hmarkup]
      cases line with
      | node header whole =>
        simp only [behindHeader?]
        split
        · exact compileFrom_some
        · exact ih
      | _ => exact ih

variable {source : String}

/-- What compiling gives, without the place of a fault. -/
theorem compile_mapError :
    (compile source name context vs).1.mapError LocatedFault.fault =
      match sectionOf? source name with
      | none => .ok none
      | some ls => ((Draft.blank name context).finish name ls).map some :=
  compileFrom_none

/-- Leaving out the place of a fault changes nothing if there is none. -/
theorem mapError_eq_ok_iff {α β γ : Type} {f : α → β} {x : Except α γ} {y : γ} :
    x.mapError f = .ok y ↔ x = .ok y := by
  cases x <;> simp [Except.mapError]

/-- A compiled node is the empty draft, finished with the section of the node. -/
theorem compile_eq_ok_some_iff {n : Node} :
    (compile source name context vs).1 = .ok (some n) ↔
      ∃ ls, sectionOf? source name = some ls ∧
        (Draft.blank name context).finish name ls = .ok n := by
  rw [← mapError_eq_ok_iff (f := LocatedFault.fault), compile_mapError]
  cases sectionOf? source name with
  | none => simp
  | some ls => cases h : (Draft.blank name context).finish name ls <;> simp [h, Except.map]

/-- Compiling finds nothing exactly if the text has no section for the node. -/
theorem compile_eq_ok_none_iff :
    (compile source name context vs).1 = .ok none ↔ sectionOf? source name = none := by
  rw [← mapError_eq_ok_iff (f := LocatedFault.fault), compile_mapError]
  cases sectionOf? source name with
  | none => simp
  | some ls => cases h : (Draft.blank name context).finish name ls <;> simp [h, Except.map]

end Compiling

end VisualNovel.Script
