import VisualNovel.Proofs.Script.Passage

/-!
# The node of a passage

The node of a passage has the content of the passage as its lines, and its blocks are where the
blocks of the passage lie in this content. Decisions are numbered as they are written and
conditionals as they are opened. Compiling the script of a passage gives its node.

## Main definitions

* `Script.Passage.lines`: the content of a passage;
* `Script.Passage.decisions`, `Script.Passage.conditionals`: its blocks, from a line on;
* `Script.Passage.toNode`: the node of a passage;
* `Script.Draft.extend`: a draft with a passage added to it.

## Main results

* `Script.Passage.finish_markers`: taking up what a passage means adds the passage to a draft;
* `Script.Passage.compile_script`: the script of a passage is compiled to the node of the passage.
-/

namespace VisualNovel.Script

/-- Gives numbers to blocks, in order. -/
def numbered {α : Type} : Nat → List (Int → α) → List α
  | _, [] => []
  | k, block :: blocks => block k :: numbered (k + 1) blocks

section Numbering

variable {α : Type}

@[simp]
theorem numbered_nil (k : Nat) : numbered k ([] : List (Int → α)) = [] := rfl

@[simp]
theorem length_numbered (k : Nat) (blocks : List (Int → α)) :
    (numbered k blocks).length = blocks.length := by
  induction blocks generalizing k with
  | nil => rfl
  | cons block blocks ih => simp [numbered, ih]

theorem numbered_append (k : Nat) (as bs : List (Int → α)) :
    numbered k (as ++ bs) = numbered k as ++ numbered (k + as.length) bs := by
  induction as generalizing k with
  | nil => rfl
  | cons a as ih => simp [numbered, ih, Nat.add_assoc, Nat.add_comm 1]

end Numbering

mutual

/-- The content of a passage. -/
def Passage.lines : Passage → List (List Char)
  | .done => []
  | .text line next => line :: next.lines
  | .conditional _ body others next => body.lines ++ others.lines ++ next.lines
  | .decision _ body further next => body.lines ++ further.lines ++ next.lines

/-- The content of further branches. -/
def Others.lines : Others → List (List Char)
  | .done => []
  | .otherwise body => body.lines
  | .elseIf _ body others => body.lines ++ others.lines

/-- The content of further options. -/
def Options.lines : Options → List (List Char)
  | .done => []
  | .option _ body further => body.lines ++ further.lines

end

/-- The line behind a passage that starts at a line. -/
def Passage.after (p : Passage) (line : Int) : Int := line + p.lines.length

/-- The line behind further branches. -/
def Others.after (o : Others) (line : Int) : Int := line + o.lines.length

/-- The line behind further options. -/
def Options.after (f : Options) (line : Int) : Int := line + f.lines.length

/-- The further options, from a line on. -/
def Options.choices : Options → Int → List Choice
  | .done, _ => []
  | .option label body further, line =>
    ⟨String.ofList label, line, body.after line⟩ :: further.choices (body.after line)

/-- The further branches that have a condition, from a line on. -/
def Others.guarded : Others → Int → List Branch
  | .done, _ => []
  | .otherwise _, _ => []
  | .elseIf condition body others, line =>
    ⟨String.ofList condition, line, body.after line⟩ :: others.guarded (body.after line)

/-- The branch without a condition. -/
def Others.last? : Others → Int → Option Branch
  | .done, _ => none
  | .otherwise body, line => some ⟨"", line, body.after line⟩
  | .elseIf _ body others, line => others.last? (body.after line)

mutual

/-- The decisions of a passage, from a line on, still without their numbers. -/
def Passage.decisions : Passage → Int → List (Int → Decision)
  | .done, _ => []
  | .text _ next, line => next.decisions (line + 1)
  | .conditional _ body others next, line =>
    body.decisions line ++ others.decisions (body.after line) ++
      next.decisions (others.after (body.after line))
  | .decision label body further next, line =>
    (fun index => ⟨index, line, further.after (body.after line),
      ⟨String.ofList label, line, body.after line⟩ :: further.choices (body.after line)⟩) ::
      next.decisions (further.after (body.after line))

/-- The decisions in further branches. -/
def Others.decisions : Others → Int → List (Int → Decision)
  | .done, _ => []
  | .otherwise body, line => body.decisions line
  | .elseIf _ body others, line => body.decisions line ++ others.decisions (body.after line)

end

mutual

/-- The conditionals of a passage, from a line on, still without their numbers. -/
def Passage.conditionals : Passage → Int → List (Int → Conditional)
  | .done, _ => []
  | .text _ next, line => next.conditionals (line + 1)
  | .conditional condition body others next, line =>
    (fun index => ⟨index, ⟨String.ofList condition, line, body.after line⟩,
      others.guarded (body.after line), others.last? (body.after line), line,
      others.after (body.after line)⟩) ::
      (body.conditionals line ++ others.conditionals (body.after line) ++
        next.conditionals (others.after (body.after line)))
  | .decision _ body further next, line =>
    body.conditionals line ++ further.conditionals (body.after line) ++
      next.conditionals (further.after (body.after line))

/-- The conditionals in further branches. -/
def Others.conditionals : Others → Int → List (Int → Conditional)
  | .done, _ => []
  | .otherwise body, line => body.conditionals line
  | .elseIf _ body others, line => body.conditionals line ++ others.conditionals (body.after line)

/-- The conditionals in further options. -/
def Options.conditionals : Options → Int → List (Int → Conditional)
  | .done, _ => []
  | .option _ body further, line =>
    body.conditionals line ++ further.conditionals (body.after line)

end

/-- The node of a passage. -/
def Passage.toNode (p : Passage) (name context : String) : Node where
  name := name
  context := context
  lines := p.lines.map String.ofList
  decisions := numbered 0 (p.decisions 0)
  conditionals := numbered 0 (p.conditionals 0)

/-- The draft with a passage added at its end. -/
def Draft.extend (d : Draft) (p : Passage) : Draft :=
  { d with
    lines := d.lines ++ p.lines.map String.ofList
    decisions := d.decisions ++ numbered d.decisions.length (p.decisions d.cursor)
    conditionals := d.conditionals ++ numbered d.conditionals.length (p.conditionals d.cursor) }

/-- A conditional whose last branch so far ends at a line, completed with further branches. -/
def Others.complete (o : Others) (line : Int) (c : Conditional) : Conditional :=
  { c.endBranch line with
    others := (c.endBranch line).others ++ o.guarded line
    otherwise := o.last? line
    stop := o.after line }

/-- A decision whose last option so far ends at a line, completed with further options. -/
def Options.complete (f : Options) (line : Int) (e : Decision) : Decision :=
  { e.endOption line with
    options := (e.endOption line).options ++ f.choices line
    stop := f.after line }

mutual

/-- A passage in a decision has no decisions. -/
theorem Passage.decisions_eq_nil : (p : Passage) → p.Written true → ∀ line, p.decisions line = []
  | .done, _, _ => rfl
  | .text _ next, ⟨_, hnext⟩, line => next.decisions_eq_nil hnext _
  | .conditional _ body others next, ⟨_, hbody, hothers, hnext⟩, line => by
    rw [Passage.decisions, body.decisions_eq_nil hbody, others.decisions_eq_nil hothers,
      next.decisions_eq_nil hnext]
    rfl
  | .decision .., ⟨hinside, _⟩, _ => by cases hinside

theorem Others.decisions_eq_nil : (o : Others) → o.Written true → ∀ line, o.decisions line = []
  | .done, _, _ => rfl
  | .otherwise body, hbody, line => body.decisions_eq_nil hbody line
  | .elseIf _ body others, ⟨_, hbody, hothers⟩, line => by
    rw [Others.decisions, body.decisions_eq_nil hbody, others.decisions_eq_nil hothers]
    rfl

end

section Taking

variable {d : Draft} {name : String} {rest : List Line}

/-- The line behind a passage is the next one of a draft with the passage. -/
@[simp]
theorem Draft.cursor_extend (d : Draft) (p : Passage) : (d.extend p).cursor = p.after d.cursor := by
  simp [Draft.extend, Draft.cursor, Passage.after]

/-- Changing an element in the midst of a list. -/
theorem modify_length_append {α : Type} (pre : List α) (a : α) (post : List α) (f : α → α) :
    (pre ++ a :: post).modify pre.length f = pre ++ f a :: post := by
  induction pre with
  | nil => rfl
  | cons b pre ih => simp [ih]

variable {pre post : List Conditional} {c : Conditional} {opened : List Nat}

/-- A conditional with a further branch that starts at a line. -/
def startBranch (c : Conditional) (line : Int) (condition : List Char) : Conditional :=
  { c.endBranch line with
    others := (c.endBranch line).others ++ [⟨String.ofList condition, line, line⟩] }

/-- A conditional with a last branch that starts at a line. -/
def startLast (c : Conditional) (line : Int) : Conditional :=
  { c.endBranch line with otherwise := some ⟨"", line, line⟩ }

/-- A conditional that ends at a line. -/
def closeAt (c : Conditional) (line : Int) : Conditional :=
  { c.endBranch line with stop := line }

/-- The draft with another conditional in the place of the innermost one. -/
def Draft.replace (d : Draft) (pre : List Conditional) (c : Conditional)
    (post : List Conditional) : Draft :=
  { d with conditionals := pre ++ c :: post }

section Branches

variable (hcs : d.conditionals = pre ++ c :: post)
  (hopen : d.openConditionals = pre.length :: opened) (hc : c.otherwise = none)

include hcs hopen

/-- The innermost conditional is closed. -/
theorem endIf_of_open : d.endIf =
    .ok { d.replace pre (closeAt c d.cursor) post with openConditionals := opened } := by
  simp [Draft.endIf, Draft.replace, closeAt, hopen, hcs, modify_length_append]

include hc

/-- The innermost conditional gets a further branch with a condition. -/
theorem elseIf_of_open (condition : List Char) : d.elseIf condition =
    .ok (d.replace pre (startBranch c d.cursor condition) post) := by
  simp [Draft.elseIf, Draft.branchable, Draft.replace, startBranch, hopen, hcs, hc,
    modify_length_append, bind, Except.bind, pure, Except.pure]

/-- The innermost conditional gets its last branch. -/
theorem otherwise_of_open : d.otherwise =
    .ok (d.replace pre (startLast c d.cursor) post) := by
  simp [Draft.otherwise, Draft.branchable, Draft.replace, startLast, hopen, hcs, hc,
    modify_length_append, bind, Except.bind, pure, Except.pure]

end Branches

section Completing

/-- The branch that has been added last is ended. -/
theorem endBranch_others_concat (hc : c.otherwise = none) (bs : List Branch) (b : Branch)
    (line : Int) : Conditional.endBranch { c with others := bs ++ [b] } line =
      { c with others := bs ++ [{ b with stop := line }] } := by
  simp [Conditional.endBranch, hc]

variable {line : Int}

theorem Others.complete_done (hc : c.otherwise = none) :
    Others.done.complete line c = closeAt c line := by
  have hnone := Conditional.otherwise_endBranch hc line
  simp [Others.complete, closeAt, Others.guarded, Others.last?, Others.after, Others.lines, hnone]

theorem Others.complete_otherwise (body : Passage) :
    (Others.otherwise body).complete line c = closeAt (startLast c line) (body.after line) := by
  simp [Others.complete, closeAt, startLast, Others.guarded, Others.last?, Others.after,
    Others.lines, Passage.after, Conditional.endBranch]

theorem Others.complete_elseIf (hc : c.otherwise = none) (condition : List Char) (body : Passage)
    (others : Others) : (Others.elseIf condition body others).complete line c =
      others.complete (body.after line) (startBranch c line condition) := by
  have hnone := Conditional.otherwise_endBranch hc line
  unfold Others.complete startBranch
  rw [endBranch_others_concat hnone]
  simp [Others.guarded, Others.last?, Others.after, Others.lines, Passage.after, Int.add_assoc]

end Completing

section Adding

variable {e : Decision}

/-- The draft with further branches added to its innermost conditional, which is closed. -/
def Draft.branch (d : Draft) (o : Others) (pre : List Conditional) (c : Conditional)
    (post : List Conditional) (opened : List Nat) : Draft :=
  { d with
    lines := d.lines ++ o.lines.map String.ofList
    decisions := d.decisions ++ numbered d.decisions.length (o.decisions d.cursor)
    conditionals := pre ++ o.complete d.cursor c ::
      (post ++ numbered d.conditionals.length (o.conditionals d.cursor))
    openConditionals := opened }

/-- The draft with further options added to its open decision, which is closed. -/
def Draft.decide (d : Draft) (f : Options) (e : Decision) : Draft :=
  { d with
    lines := d.lines ++ f.lines.map String.ofList
    decisions := d.decisions ++ [f.complete d.cursor e]
    openDecision := none
    conditionals := d.conditionals ++ numbered d.conditionals.length (f.conditionals d.cursor) }

theorem Draft.extend_done : d.extend .done = d := by
  simp [extend, Passage.lines, Passage.decisions, Passage.conditionals]

theorem Draft.extend_text (line : List Char) (next : Passage) :
    (d.addLine line).extend next = d.extend (.text line next) := by
  simp [extend, addLine, cursor, Passage.lines, Passage.decisions, Passage.conditionals]

/-- A conditional that has just been opened. -/
def Draft.opening (d : Draft) (condition : List Char) : Conditional :=
  ⟨d.conditionals.length, ⟨String.ofList condition, d.cursor, d.cursor⟩, [], none, d.cursor,
    d.cursor⟩

/-- A conditional is added in three steps: it is opened with its first branch, gets its further
branches, and is followed by the rest. -/
theorem Draft.extend_conditional (condition : List Char) (body : Passage) (others : Others)
    (next : Passage) :
    (((d.startIf condition).extend body).branch others d.conditionals (d.opening condition)
      (numbered (d.conditionals.length + 1) (body.conditionals d.cursor))
      d.openConditionals).extend next = d.extend (.conditional condition body others next) := by
  simp [extend, branch, startIf, opening, cursor, Passage.lines, Passage.decisions,
    Passage.conditionals, numbered_append, numbered, Others.complete, Conditional.endBranch,
    Passage.after, Others.after, Int.add_assoc, Nat.add_assoc, Nat.add_comm 1]

/-- A decision that has just been opened, with its first option. -/
def Draft.question (d : Draft) (label : List Char) : Decision :=
  ⟨d.decisions.length, d.cursor, d.cursor, [⟨String.ofList label, d.cursor, d.cursor⟩]⟩

/-- The draft with a decision that has just been opened. -/
def Draft.ask (d : Draft) (label : List Char) : Draft :=
  { d with openDecision := some (d.question label) }

/-- A decision is opened with its first option. -/
theorem Draft.finish_ask (hnone : d.openDecision = none) (label whole : List Char) :
    d.finish name (.startDecision :: .option label whole :: rest) =
      (d.ask label).finish name rest := by
  rw [finish_cons (by simp), take, startDecision, hnone]
  dsimp only [Except.bind]
  rw [finish_cons (by simp)]
  rfl

/-- A decision is added in three steps: it is opened with its first option, gets its further
options, and is followed by the rest. -/
theorem Draft.extend_decision (hnone : d.openDecision = none) (label : List Char) {body : Passage}
    (hbody : ∀ line, body.decisions line = []) (further : Options) (next : Passage) :
    ((((d.ask label).extend body).decide further (d.question label)).extend next) =
      d.extend (.decision label body further next) := by
  simp [extend, decide, ask, question, cursor, Passage.lines, Passage.decisions,
    Passage.conditionals, numbered_append, numbered, hbody, hnone, Options.complete,
    Decision.endOption, modifyLast, Passage.after, Options.after, Int.add_assoc, Nat.add_assoc]

/-- Closing the innermost conditional adds no branches to it. -/
theorem Draft.branch_done (hc : c.otherwise = none) :
    { d.replace pre (closeAt c d.cursor) post with openConditionals := opened } =
      d.branch .done pre c post opened := by
  simp [branch, replace, Others.complete_done hc, Others.lines, Others.decisions,
    Others.conditionals]

/-- The last branch is added in three steps: it is started and filled, and the conditional is
closed. -/
theorem Draft.branch_otherwise (hcs : d.conditionals = pre ++ c :: post) (body : Passage) :
    { ((d.replace pre (startLast c d.cursor) post).extend body).replace pre
        (closeAt (startLast c d.cursor) (body.after d.cursor))
        (post ++ numbered d.conditionals.length (body.conditionals d.cursor)) with
      openConditionals := opened } = d.branch (.otherwise body) pre c post opened := by
  rw [branch, Others.complete_otherwise]
  simp [extend, replace, cursor, hcs, Others.lines, Others.decisions, Others.conditionals]

/-- A further branch with a condition is added in three steps: it is started, filled, and followed
by other branches. -/
theorem Draft.branch_elseIf (hcs : d.conditionals = pre ++ c :: post) (hc : c.otherwise = none)
    (condition : List Char) (body : Passage) (others : Others) :
    ((d.replace pre (startBranch c d.cursor condition) post).extend body).branch others pre
      (startBranch c d.cursor condition)
      (post ++ numbered d.conditionals.length (body.conditionals d.cursor)) opened =
        d.branch (.elseIf condition body others) pre c post opened := by
  rw [branch, branch, Others.complete_elseIf hc, cursor_extend]
  simp [extend, replace, cursor, hcs, Others.lines, Others.decisions, Others.conditionals,
    numbered_append, Passage.after, Nat.add_assoc, Nat.add_comm 1]

/-- The conditionals of a draft with a passage in the innermost conditional. -/
theorem Draft.conditionals_extend_replace (hcs : d.conditionals = pre ++ c :: post)
    (c' : Conditional) (body : Passage) :
    ((d.replace pre c' post).extend body).conditionals =
      pre ++ c' :: (post ++ numbered d.conditionals.length (body.conditionals d.cursor)) := by
  simp [extend, replace, cursor, hcs]

/-- Closing the open decision adds no options to it. -/
theorem Draft.endDecision_of_open (he : d.openDecision = some e) (hne : e.options ≠ []) :
    d.endDecision = .ok (d.decide .done e) := by
  simp [endDecision, he, hne, decide, Options.complete, Options.choices, Options.after,
    Options.lines, Options.conditionals]

/-- A decision with a further option that starts at a line. -/
def startOption (e : Decision) (line : Int) (label : List Char) : Decision :=
  { e.endOption line with
    options := (e.endOption line).options ++ [⟨String.ofList label, line, line⟩] }

/-- The open decision gets a further option. -/
theorem Draft.addOption_of_open (he : d.openDecision = some e) (label whole : List Char) :
    d.addOption label whole =
      .ok { d with openDecision := some (startOption e d.cursor label) } := by
  simp [addOption, startOption, he]

/-- A further option is added in three steps: it is started, filled, and followed by other
options. -/
theorem Draft.decide_option (label : List Char) {body : Passage}
    (hbody : ∀ line, body.decisions line = []) (further : Options) :
    (({ d with openDecision := some (startOption e d.cursor label) } : Draft).extend body).decide
      further (startOption e d.cursor label) = d.decide (.option label body further) e := by
  simp [extend, decide, startOption, cursor, hbody, Options.lines, Options.conditionals,
    Options.complete, Options.choices, Options.after, Decision.endOption, Passage.after,
    numbered_append, Int.add_assoc]

mutual

/-- Taking up what a passage means adds the passage to a draft. -/
theorem Passage.finish_markers {inside : Bool} : (p : Passage) → p.Written inside →
    ∀ d : Draft, d.openDecision.isSome = inside → ∀ rest,
      d.finish name (p.markers ++ rest) = (d.extend p).finish name rest
  | .done, _, d, _, rest => by rw [d.extend_done]; rfl
  | .text line next, ⟨_, hnext⟩, d, hinside, rest => by
    rw [Passage.markers, List.cons_append, finish_cons (by simp), Draft.take]
    dsimp only [Except.bind]
    rw [next.finish_markers hnext, d.extend_text]
    exact hinside
  | .conditional condition body others next, ⟨_, hbody, hothers, hnext⟩, d, hinside, rest => by
    rw [Passage.markers, List.cons_append, List.cons_append, List.cons_append, List.append_assoc,
      List.append_assoc, finish_cons (by simp), Draft.take]
    dsimp only [Except.bind]
    -- the branches that follow are added to the conditional that has just been opened, which is
    -- the first of those behind the ones of the draft
    rw [body.finish_markers hbody, others.finish_markers hothers _ ?_ d.conditionals
      (d.opening condition) (numbered (d.conditionals.length + 1) (body.conditionals d.cursor))
      d.openConditionals ?_ rfl rfl, next.finish_markers hnext, d.extend_conditional]
    · exact hinside
    · exact hinside
    · simp [Draft.extend, Draft.startIf, Draft.opening, Draft.cursor]
    · exact hinside
  | .decision label body further next, ⟨hfalse, _, hbody, hfurther, hnext⟩, d, hinside, rest => by
    have hnone : d.openDecision = none := by simpa [hfalse] using hinside
    rw [Passage.markers]
    simp only [List.cons_append, List.append_assoc]
    rw [d.finish_ask hnone, body.finish_markers hbody _ rfl,
      further.finish_markers hfurther _ (d.question label) rfl (by simp [Draft.question]),
      next.finish_markers hnext, d.extend_decision hnone label (body.decisions_eq_nil hbody)]
    exact hfalse.symm

/-- Taking up what further branches mean adds them to the innermost conditional. -/
theorem Others.finish_markers {inside : Bool} : (o : Others) → o.Written inside →
    ∀ d : Draft, d.openDecision.isSome = inside → ∀ pre c post opened,
      d.conditionals = pre ++ c :: post → d.openConditionals = pre.length :: opened →
      c.otherwise = none → ∀ rest,
      d.finish name (o.markers ++ rest) = (d.branch o pre c post opened).finish name rest
  | .done, _, d, _, pre, c, post, opened, hcs, hopen, hc, rest => by
    rw [Others.markers, List.singleton_append, finish_cons (by simp), Draft.take,
      endIf_of_open hcs hopen, d.branch_done hc]
    rfl
  | .otherwise body, hbody, d, hinside, pre, c, post, opened, hcs, hopen, hc, rest => by
    rw [Others.markers, List.cons_append, List.cons_append, List.append_assoc,
      finish_cons (by simp), Draft.take, otherwise_of_open hcs hopen hc]
    dsimp only [Except.bind]
    rw [body.finish_markers hbody, List.singleton_append, finish_cons (by simp), Draft.take,
      endIf_of_open (d.conditionals_extend_replace hcs _ body) hopen, Draft.cursor_extend,
      ← d.branch_otherwise hcs body]
    · rfl
    · exact hinside
  | .elseIf condition body others, ⟨_, hbody, hothers⟩, d, hinside, pre, c, post, opened, hcs,
      hopen, hc, rest => by
    rw [Others.markers, List.cons_append, List.cons_append, List.append_assoc,
      finish_cons (by simp), Draft.take, elseIf_of_open hcs hopen hc]
    dsimp only [Except.bind]
    rw [body.finish_markers hbody, others.finish_markers hothers _ ?_ pre _ _ opened
      (d.conditionals_extend_replace hcs _ body) hopen ?_, d.branch_elseIf hcs hc condition body
        others]
    · exact hinside
    · exact Conditional.otherwise_endBranch hc _
    · exact hinside

/-- Taking up what further options mean adds them to the open decision. -/
theorem Options.finish_markers : (f : Options) → f.Written → ∀ (d : Draft) (e : Decision),
    d.openDecision = some e → e.options ≠ [] → ∀ rest,
      d.finish name (f.markers ++ rest) = (d.decide f e).finish name rest
  | .done, _, d, e, he, hne, rest => by
    rw [Options.markers, List.singleton_append, finish_cons (by simp), Draft.take,
      d.endDecision_of_open he hne]
    rfl
  | .option label body further, ⟨_, hbody, hfurther⟩, d, e, he, hne, rest => by
    rw [Options.markers, List.cons_append, List.cons_append, List.append_assoc,
      finish_cons (by simp), Draft.take, d.addOption_of_open he]
    dsimp only [Except.bind]
    rw [body.finish_markers hbody _ rfl,
      further.finish_markers hfurther _ _ rfl (by simp [startOption]),
      d.decide_option label (body.decisions_eq_nil hbody)]

end

end Adding

end Taking

/-- The script of a passage is compiled to the node of the passage, in any scene and whatever the
variables are, if the texts in the passage and the name can be written. -/
theorem Passage.compile_script {p : Passage} {name : String} (hp : p.Written false)
    (hname : Fills name.toList (nodeMarker ++ name.toList)) (context : String) (vs : Variables) :
    (compile (p.script name) name context vs).1 = .ok (some (p.toNode name context)) := by
  have hclose : ((Draft.blank name context).extend p).close = .ok (p.toNode name context) := by
    simp [Draft.close, Draft.extend, Draft.blank, Draft.cursor, Passage.toNode]
  refine compile_eq_ok_some_iff.mpr ⟨_, Passage.sectionOf?_script hp hname, ?_⟩
  rw [p.finish_markers hp _ rfl, finish_endNode, hclose]

/-- A conditional with a decision in its first branch, which has a conditional in an option, and
with an empty branch. -/
private def crossroads : Passage :=
  .text "Where to?".toList <|
  .conditional "day < (7)".toList
    (.decision "Say \"a//b\"".toList (.text "Snow.".toList .done)
      (.option "South".toList
        (.conditional "true".toList (.text "Sun.".toList .done) .done .done) .done) .done)
    (.elseIf "day == 7".toList .done (.otherwise (.text "Too late.".toList .done)))
    (.text "Home.".toList .done)

/-- A passage with blocks in each other is found again in its script. -/
theorem compile_script_crossroads :
    crossroads.Written false ∧ Fills "main".toList (nodeMarker ++ "main".toList) ∧
      (compile (crossroads.script "main") "main" "" .empty).1 = .ok (some
        ⟨"main", "", 0, ["Where to?", "Snow.", "Sun.", "Too late.", "Home."],
          [⟨0, 1, 3, [⟨"Say \"a//b\"", 1, 2⟩, ⟨"South", 2, 3⟩]⟩],
          [⟨0, ⟨"day < (7)", 1, 3⟩, [⟨"day == 7", 3, 3⟩], some ⟨"", 3, 4⟩, 1, 4⟩,
            ⟨1, ⟨"true", 2, 3⟩, [], none, 2, 3⟩]⟩) := by
  have hwritten : crossroads.Written false := by
    simp only [crossroads, Passage.Written, Others.Written, Options.Written, and_true, true_and]
    decide
  have hname : Fills "main".toList (nodeMarker ++ "main".toList) := by decide
  exact ⟨hwritten, hname, (Passage.compile_script hwritten hname "" .empty).trans (by decide)⟩

end VisualNovel.Script
