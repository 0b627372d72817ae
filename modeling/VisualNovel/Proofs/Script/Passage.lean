import Mathlib.Data.List.Infix
import VisualNovel.Proofs.Script.Line
import VisualNovel.Proofs.Script.Markup
import VisualNovel.Proofs.Text.Split

/-!
# Passages of a script

A passage is what an author means by the lines of a node: content, chains of branches and decisions
inside each other. It is written as lines of a script, and these lines are read as the markers that
were meant.

## Main definitions

* `Script.Passage`, with the further branches `Script.Others` and the further options
  `Script.Options` of its blocks;
* `Script.Passage.render`: a passage as lines of a script, and `Script.Passage.script` with the
  markers of a node around it;
* `Script.Passage.Written`: what the texts in a passage have to be like to be written as lines;
* `Script.Passage.markers`: what the lines of a passage mean.

## Main results

* `Script.extractCondition_group`: a condition is found in its line if its parentheses match;
* `Script.Passage.markup_render`: the lines of a passage are read as what they mean;
* `Script.Passage.sectionOf?_script`: the section of a node that is written as a script.
-/

namespace VisualNovel.Script

open Text

mutual

/-- A passage of a node. -/
inductive Passage where
  | done
  /-- A line of content. -/
  | text (line : List Char) (next : Passage)
  /-- A chain of branches, of which the first has a condition. -/
  | conditional (condition : List Char) (body : Passage) (others : Others) (next : Passage)
  /-- A decision with an option at least. -/
  | decision (label : List Char) (body : Passage) (further : Options) (next : Passage)

/-- The further branches of a conditional. -/
inductive Others where
  | done
  /-- The last branch, without a condition. -/
  | otherwise (body : Passage)
  | elseIf (condition : List Char) (body : Passage) (others : Others)

/-- The further options of a decision. -/
inductive Options where
  | done
  | option (label : List Char) (body : Passage) (further : Options)

end

/-- A line with a keyword and a condition in parentheses. -/
def guardLine (keyword condition : List Char) : List Char := keyword ++ '(' :: condition ++ [')']

/-- The keyword of a conditional. -/
def ifKeyword : List Char := "if ".toList
/-- The keyword of a further branch with a condition. -/
def elseIfKeyword : List Char := "else if ".toList

mutual

/-- The lines of a script that say a passage. -/
def Passage.render : Passage → List (List Char)
  | .done => []
  | .text line next => line :: next.render
  | .conditional condition body others next =>
    guardLine ifKeyword condition :: body.render ++ others.render ++ next.render
  | .decision label body further next =>
    startDecisionMarker :: ('-' :: label) :: body.render ++ further.render ++ next.render

/-- The lines of a script up to the end of a conditional. -/
def Others.render : Others → List (List Char)
  | .done => ["endif".toList]
  | .otherwise body => "else".toList :: body.render ++ ["endif".toList]
  | .elseIf condition body others =>
    guardLine elseIfKeyword condition :: body.render ++ others.render

/-- The lines of a script up to the end of a decision. -/
def Options.render : Options → List (List Char)
  | .done => [endDecisionMarker]
  | .option label body further => ('-' :: label) :: body.render ++ further.render

end

/-- The script of a node with a passage in it. -/
def Passage.script (name : String) (p : Passage) : String :=
  String.ofList (join ['\n'] ((nodeMarker ++ name.toList) :: p.render ++ [endNodeMarker]))

mutual

/-- What the lines of a passage mean. -/
def Passage.markers : Passage → List Line
  | .done => []
  | .text line next => .content line :: next.markers
  | .conditional condition body others next =>
    .startIf condition :: body.markers ++ others.markers ++ next.markers
  | .decision label body further next =>
    .startDecision :: .option label ('-' :: label) :: body.markers ++ further.markers ++
      next.markers

/-- What the lines up to the end of a conditional mean. -/
def Others.markers : Others → List Line
  | .done => [.endIf]
  | .otherwise body => .otherwise :: body.markers ++ [.endIf]
  | .elseIf condition body others => .elseIf condition :: body.markers ++ others.markers

/-- What the lines up to the end of a decision mean. -/
def Options.markers : Options → List Line
  | .done => [.endDecision]
  | .option label body further =>
    .option label ('-' :: label) :: body.markers ++ further.markers

end

/-- The parentheses of a text match: none is closed that has not been opened before, and all are
closed. -/
structure Balanced (s : List Char) : Prop where
  /-- No parenthesis is closed too early. -/
  opened : ∀ t, t <+: s → t.count ')' ≤ t.count '('
  /-- Every parenthesis is closed. -/
  closed : s.count '(' = s.count ')'

instance (s : List Char) : Decidable (Balanced s) :=
  decidable_of_iff ((∀ t ∈ s.inits, t.count ')' ≤ t.count '(') ∧ s.count '(' = s.count ')')
    ⟨fun ⟨h, h'⟩ => ⟨fun t ht => h t ((List.mem_inits ..).mpr ht), h'⟩,
      fun ⟨h, h'⟩ => ⟨fun t ht => h t ((List.mem_inits ..).mp ht), h'⟩⟩

/-- A text that stands in a line by itself: it is trimmed, and the whole line has no comment. -/
structure Fills (s whole : List Char) : Prop where
  /-- It is a single line. -/
  one_line : '\n' ∉ s
  /-- There are no blanks at its ends. -/
  trimmed : trim s = s
  /-- Nothing of the line is taken for a comment. -/
  uncommented : stripComment whole = whole

instance (s whole : List Char) : Decidable (Fills s whole) :=
  decidable_of_iff ('\n' ∉ s ∧ trim s = s ∧ stripComment whole = whole)
    ⟨fun ⟨h₁, h₂, h₃⟩ => ⟨h₁, h₂, h₃⟩, fun ⟨h₁, h₂, h₃⟩ => ⟨h₁, h₂, h₃⟩⟩

mutual

/-- A passage can be written: its texts stand in lines by themselves and no decision is in another
one. It is given whether the passage is in a decision. -/
def Passage.Written : Bool → Passage → Prop
  | _, .done => True
  | inside, .text line next => IsContent line ∧ next.Written inside
  | inside, .conditional condition body others next =>
    (Balanced condition ∧ Fills condition (guardLine ifKeyword condition)) ∧
      body.Written inside ∧ others.Written inside ∧ next.Written inside
  | inside, .decision label body further next =>
    inside = false ∧ Fills label ('-' :: label) ∧ body.Written true ∧ further.Written ∧
      next.Written inside

/-- Further branches can be written. -/
def Others.Written : Bool → Others → Prop
  | _, .done => True
  | inside, .otherwise body => body.Written inside
  | inside, .elseIf condition body others =>
    (Balanced condition ∧ Fills condition (guardLine elseIfKeyword condition)) ∧
      body.Written inside ∧ others.Written inside

/-- Further options can be written. -/
def Options.Written : Options → Prop
  | .done => True
  | .option label body further =>
    Fills label ('-' :: label) ∧ body.Written true ∧ further.Written

end

section Reading

/-- Text in which parentheses match is passed over up to the parenthesis behind it. So many
parentheses are open before it, and after it. -/
theorem closingGroup?_append {s : List Char} {depth depth' : Nat} (rest : List Char)
    (hopened : ∀ t, t <+: s → t.count ')' ≤ depth + t.count '(')
    (hclosed : depth + s.count '(' = depth' + s.count ')') :
    closingGroup? depth (s ++ rest) = (closingGroup? depth' rest).map (s ++ ·) := by
  -- on the text, at any depth: each parenthesis changes the depth for the rest
  induction s generalizing depth with
  | nil =>
    obtain rfl : depth = depth' := by simpa using hclosed
    cases h : closingGroup? depth rest <;> simp [h]
  | cons c s ih =>
    have hrest (t : List Char) (ht : t <+: s) :=
      hopened (c :: t) (List.cons_prefix_cons.mpr ⟨rfl, ht⟩)
    rw [List.cons_append, closingGroup?.eq_def]
    dsimp only
    split
    · next hc =>
      subst hc
      rw [@ih (depth + 1) (fun t ht => by have := hrest t ht; grind) (by grind)]
      cases closingGroup? depth' rest <;> rfl
    · next hc =>
      split
      · next hc' =>
        subst hc'
        cases depth with
        | zero =>
          -- no prefix closes more than is open
          have := hrest [] List.nil_prefix
          simp at this
        | succ depth =>
          dsimp only
          rw [ih (fun t ht => by have := hrest t ht; grind) (by grind)]
          cases closingGroup? depth' rest <;> rfl
      · rw [ih (fun t ht => by have := hrest t ht; grind) (by grind)]
        cases closingGroup? depth' rest <;> rfl

/-- A trimmed condition whose parentheses match is found in its line. -/
theorem extractCondition_group {keyword condition : List Char} (hkeyword : '(' ∉ keyword)
    (hbalanced : Balanced condition) (htrim : trim condition = condition) :
    extractCondition (guardLine keyword condition) = condition := by
  have hgroup : closingGroup? 0 (condition ++ [')']) = some condition := by
    have hopened : ∀ t, t <+: condition → t.count ')' ≤ 0 + t.count '(' := by
      simpa using hbalanced.opened
    have hclosed : 0 + condition.count '(' = 0 + condition.count ')' := by
      simpa using hbalanced.closed
    rw [closingGroup?_append [')'] hopened hclosed]
    simp [closingGroup?.eq_def]
  have hbreak : breakAt '(' (guardLine keyword condition) = some (keyword, condition ++ [')']) := by
    rw [guardLine, List.append_assoc]
    exact breakAt_append hkeyword _
  simp only [extractCondition, hbreak, hgroup, htrim]

variable {condition label : List Char}

/-- A line is trimmed if it ends with a trimmed text or has such a text between two characters that
are no blanks. -/
theorem trim_guardLine {c : Char} {keyword : List Char} (hc : isBlank c = false) :
    trim (guardLine (c :: keyword) condition) = guardLine (c :: keyword) condition := by
  rw [trim_eq_self_iff]
  refine ⟨by simp [guardLine, hc], fun d hd => ?_⟩
  obtain rfl : ')' = d := by simpa [guardLine, List.getLast?_cons] using hd
  rfl

theorem trim_cons {c : Char} {s : List Char} (hc : isBlank c = false) (hs : trim s = s) :
    trim (c :: s) = c :: s := by
  rw [trim_eq_self_iff] at hs ⊢
  refine ⟨by simp [hc], fun d hd => ?_⟩
  rcases List.eq_nil_or_concat s with rfl | ⟨init, e, rfl⟩
  · obtain rfl : c = d := by simpa using hd
    exact hc
  · exact hs.2 d (by simpa [List.getLast?_cons] using hd)

theorem trim_append {s t : List Char} (hs : s.any isBlank = false) (ht : trim t = t) :
    trim (s ++ t) = s ++ t := by
  induction s with
  | nil => exact ht
  | cons c s ih =>
    obtain ⟨hc, hs⟩ := Bool.or_eq_false_iff.mp hs
    exact trim_cons hc (ih hs)

/-- A trimmed line without a comment that is no declaration is read as what it is. -/
theorem markup?_of_trimmed {s : List Char} {line : Line} (hne : s ≠ []) (htrim : trim s = s)
    (hs : stripComment s = s) (hline : Line.classify s = line)
    (h : ∀ x v, line ≠ .declaration x v) :
    Line.markup? s = some line :=
  markup?_eq_some_iff.mpr
    ⟨hline ▸ read?_of_trimmed hne htrim (stripComment_eq_self_iff.mp hs), h⟩

theorem classify_if (condition : List Char) :
    Line.classify (guardLine ifKeyword condition) =
      .startIf (extractCondition (guardLine ifKeyword condition)) := rfl

theorem classify_elseIf (condition : List Char) :
    Line.classify (guardLine elseIfKeyword condition) =
      .elseIf (extractCondition (guardLine elseIfKeyword condition)) := rfl

theorem classify_option (label : List Char) :
    Line.classify ('-' :: label) = .option (trim label) ('-' :: label) := rfl

theorem classify_header (name : List Char) :
    Line.classify (nodeMarker ++ name) = .node (trim name) (nodeMarker ++ name) := rfl

theorem markup_append (as bs : List (List Char)) : markup (as ++ bs) = markup as ++ markup bs :=
  List.filterMap_append

/-- A content line is read as content. -/
theorem IsContent.markup? {s : List Char} (h : IsContent s) :
    Line.markup? s = some (.content s) :=
  markup?_eq_some_iff.mpr ⟨h.read?, by simp⟩

/-- The line of a condition opens a conditional with the condition. -/
theorem Fills.markup?_if (h : Fills condition (guardLine ifKeyword condition))
    (hbalanced : Balanced condition) :
    Line.markup? (guardLine ifKeyword condition) = some (.startIf condition) := by
  refine markup?_of_trimmed (by simp [guardLine]) (trim_guardLine rfl) h.uncommented ?_ (by simp)
  rw [classify_if, extractCondition_group (by decide) hbalanced h.trimmed]

/-- The line of a further condition continues a conditional with the condition. -/
theorem Fills.markup?_elseIf (h : Fills condition (guardLine elseIfKeyword condition))
    (hbalanced : Balanced condition) :
    Line.markup? (guardLine elseIfKeyword condition) = some (.elseIf condition) := by
  refine markup?_of_trimmed (by simp [guardLine]) (trim_guardLine rfl) h.uncommented ?_ (by simp)
  rw [classify_elseIf, extractCondition_group (by decide) hbalanced h.trimmed]

/-- The line of a label is an option with the label. -/
theorem Fills.markup?_option (h : Fills label ('-' :: label)) :
    Line.markup? ('-' :: label) = some (.option label ('-' :: label)) := by
  refine markup?_of_trimmed (by simp) (trim_cons rfl h.trimmed) h.uncommented ?_ (by simp)
  rw [classify_option, h.trimmed]

/-- The line of a name is a header with the name. -/
theorem Fills.markup?_header {name : List Char} (h : Fills name (nodeMarker ++ name)) :
    Line.markup? (nodeMarker ++ name) = some (.node name (nodeMarker ++ name)) := by
  refine markup?_of_trimmed (by simp [nodeMarker]) ?_ h.uncommented ?_ (by simp)
  · exact trim_append rfl h.trimmed
  · rw [classify_header, h.trimmed]

theorem markup?_startDecision : Line.markup? startDecisionMarker = some .startDecision := rfl

theorem markup?_otherwise : Line.markup? "else".toList = some .otherwise := rfl

theorem markup_endIf : markup ["endif".toList] = [.endIf] := rfl

theorem markup_endDecision : markup [endDecisionMarker] = [.endDecision] := rfl

theorem markup_endNode : markup [endNodeMarker] = [.endNode] := rfl

mutual

/-- The lines of a passage are read as what they mean. -/
theorem Passage.markup_render {inside : Bool} :
    (p : Passage) → p.Written inside → markup p.render = p.markers
  | .done, _ => rfl
  | .text line next, ⟨hline, hnext⟩ => by
    rw [Passage.render, Passage.markers, markup_cons_of_some hline.markup?,
      next.markup_render hnext]
  | .conditional condition body others next, ⟨⟨hbalanced, hfills⟩, hbody, hothers, hnext⟩ => by
    rw [Passage.render, Passage.markers, List.cons_append, List.cons_append,
      markup_cons_of_some (hfills.markup?_if hbalanced), markup_append, markup_append,
      body.markup_render hbody, others.markup_render hothers, next.markup_render hnext]
    rfl
  | .decision label body further next, ⟨_, hfills, hbody, hfurther, hnext⟩ => by
    rw [Passage.render, Passage.markers]
    simp only [List.cons_append]
    rw [markup_cons_of_some markup?_startDecision, markup_cons_of_some hfills.markup?_option,
      markup_append, markup_append, body.markup_render hbody, further.markup_render hfurther,
      next.markup_render hnext]

theorem Others.markup_render {inside : Bool} :
    (o : Others) → o.Written inside → markup o.render = o.markers
  | .done, _ => markup_endIf
  | .otherwise body, hbody => by
    rw [Others.render, Others.markers, List.cons_append, markup_cons_of_some markup?_otherwise,
      markup_append, body.markup_render hbody, markup_endIf]
    rfl
  | .elseIf condition body others, ⟨⟨hbalanced, hfills⟩, hbody, hothers⟩ => by
    rw [Others.render, Others.markers, List.cons_append,
      markup_cons_of_some (hfills.markup?_elseIf hbalanced), markup_append,
      body.markup_render hbody, others.markup_render hothers]
    rfl

theorem Options.markup_render : (f : Options) → f.Written → markup f.render = f.markers
  | .done, _ => markup_endDecision
  | .option label body further, ⟨hfills, hbody, hfurther⟩ => by
    rw [Options.render, Options.markers, List.cons_append,
      markup_cons_of_some hfills.markup?_option, markup_append, body.markup_render hbody,
      further.markup_render hfurther]
    rfl

end

theorem newline_notMem_guardLine {keyword : List Char} (hkeyword : '\n' ∉ keyword)
    (h : '\n' ∉ condition) : '\n' ∉ guardLine keyword condition := by
  simp [guardLine, hkeyword, h]

theorem newline_notMem_option (h : '\n' ∉ label) : '\n' ∉ '-' :: label := by
  simp [h]

mutual

/-- Every line of a passage is a single line. -/
theorem Passage.newline_notMem_render {inside : Bool} :
    (p : Passage) → p.Written inside → ∀ l ∈ p.render, '\n' ∉ l
  | .done, _ => by simp [Passage.render]
  | .text line next, ⟨hline, hnext⟩ => by
    simp only [Passage.render, List.forall_mem_cons]
    exact ⟨hline.one_line, next.newline_notMem_render hnext⟩
  | .conditional condition body others next, ⟨⟨_, hfills⟩, hbody, hothers, hnext⟩ => by
    simp only [Passage.render, List.forall_mem_append, List.forall_mem_cons]
    exact ⟨⟨⟨newline_notMem_guardLine (by decide) hfills.one_line,
      body.newline_notMem_render hbody⟩, others.newline_notMem_render hothers⟩,
      next.newline_notMem_render hnext⟩
  | .decision label body further next, ⟨_, hfills, hbody, hfurther, hnext⟩ => by
    simp only [Passage.render, List.forall_mem_append, List.forall_mem_cons]
    exact ⟨⟨⟨by decide, newline_notMem_option hfills.one_line, body.newline_notMem_render hbody⟩,
      further.newline_notMem_render hfurther⟩, next.newline_notMem_render hnext⟩

theorem Others.newline_notMem_render {inside : Bool} :
    (o : Others) → o.Written inside → ∀ l ∈ o.render, '\n' ∉ l
  | .done, _ => by decide
  | .otherwise body, hbody => by
    simp only [Others.render, List.forall_mem_append, List.forall_mem_cons]
    exact ⟨⟨by decide, body.newline_notMem_render hbody⟩, by decide⟩
  | .elseIf condition body others, ⟨⟨_, hfills⟩, hbody, hothers⟩ => by
    simp only [Others.render, List.forall_mem_append, List.forall_mem_cons]
    exact ⟨⟨newline_notMem_guardLine (by decide) hfills.one_line,
      body.newline_notMem_render hbody⟩, others.newline_notMem_render hothers⟩

theorem Options.newline_notMem_render :
    (f : Options) → f.Written → ∀ l ∈ f.render, '\n' ∉ l
  | .done, _ => by decide
  | .option label body further, ⟨hfills, hbody, hfurther⟩ => by
    simp only [Options.render, List.forall_mem_append, List.forall_mem_cons]
    exact ⟨⟨newline_notMem_option hfills.one_line, body.newline_notMem_render hbody⟩,
      further.newline_notMem_render hfurther⟩

end

/-- The section of a node that is written as a script has the markers of its passage. -/
theorem Passage.sectionOf?_script {p : Passage} {name : String} (hp : p.Written false)
    (hname : Fills name.toList (nodeMarker ++ name.toList)) :
    sectionOf? (p.script name) name = some (p.markers ++ [.endNode]) := by
  have hlines : Text.lines (p.script name).toList =
      (nodeMarker ++ name.toList) :: p.render ++ [endNodeMarker] := by
    rw [Passage.script, String.toList_ofList, lines_join (by simp)]
    simp only [List.forall_mem_append, List.forall_mem_cons, List.cons_append]
    refine ⟨?_, p.newline_notMem_render hp, by decide⟩
    simpa [nodeMarker] using hname.one_line
  rw [sectionOf?, hlines, List.cons_append, markup_cons_of_some hname.markup?_header, markup_append,
    p.markup_render hp, markup_endNode]
  simp [behindHeader?]

end Reading

end VisualNovel.Script
