import VisualNovel.Proofs.Script.Line
import VisualNovel.Proofs.Script.Markup

/-!
# The shape of a compiled node

Every line of a compiled node is a content line, its blocks are laid out properly, and every line
number in it is that of one of its lines or the one behind the last.

## Main definitions

* `Node.places`: all line numbers of a node;
* `Node.Shaped`: what holds of a compiled node.

## Main results

* `Script.Draft.lines_foldlM_take`: the lines of a draft are the content that it has taken up;
* `Script.compile_shaped`: a compiled node has the shape.
-/

namespace VisualNovel

/-- The line numbers of a decision. -/
def Decision.places (d : Decision) : List Int :=
  d.start :: d.stop :: d.options.flatMap fun o => [o.start, o.stop]

/-- The line numbers of a conditional. -/
def Conditional.places (c : Conditional) : List Int :=
  c.start :: c.stop :: c.branches.flatMap fun b => [b.start, b.stop]

/-- All line numbers of a node. -/
def Node.places (n : Node) : List Int :=
  n.line :: (n.decisions.flatMap Decision.places ++ n.conditionals.flatMap Conditional.places)

/-- The shape of a node as it is compiled. -/
structure Node.Shaped (n : Node) : Prop extends n.Laid where
  /-- The lines are content lines. -/
  content : ∀ l ∈ n.lines, Script.IsContent l.toList
  /-- Line numbers are those of the lines, or of the end. -/
  places_within : ∀ p ∈ n.places, 0 ≤ p ∧ p ≤ n.lines.length

/-- The line numbers of a decision lie in its range. -/
theorem Decision.Laid.places_within {d : Decision} (h : d.Laid) :
    ∀ p ∈ d.places, d.start ≤ p ∧ p ≤ d.stop := by
  have hle := h.start_le_stop
  intro p hp
  simp only [Decision.places, List.mem_cons, List.mem_flatMap, List.not_mem_nil, or_false] at hp
  rcases hp with rfl | rfl | ⟨o, ho, hp⟩
  · exact ⟨le_rfl, hle⟩
  · exact ⟨hle, le_rfl⟩
  · have := h.option_within ho
    omega

/-- The line numbers of a conditional lie in its range. -/
theorem Conditional.Laid.places_within {c : Conditional} (h : c.Laid) :
    ∀ p ∈ c.places, c.start ≤ p ∧ p ≤ c.stop := by
  have hle := h.start_le_stop
  intro p hp
  simp only [Conditional.places, List.mem_cons, List.mem_flatMap, List.not_mem_nil, or_false] at hp
  rcases hp with rfl | rfl | ⟨b, hb, hp⟩
  · exact ⟨le_rfl, hle⟩
  · exact ⟨hle, le_rfl⟩
  · have := h.branch_within hb
    omega

/-- A node at its start that is laid out properly has no line numbers beyond its lines. -/
theorem Node.Laid.places_within {n : Node} (h : n.Laid) (hline : n.line = 0) :
    ∀ p ∈ n.places, 0 ≤ p ∧ p ≤ n.lines.length := by
  intro p hp
  simp only [Node.places, List.mem_cons, List.mem_append, List.mem_flatMap] at hp
  rcases hp with rfl | ⟨d, hd, hp⟩ | ⟨c, hc, hp⟩
  · omega
  · have := (h.decision_laid d hd).places_within p hp
    have := h.decision_within d hd
    omega
  · have := (h.conditional_laid c hc).places_within p hp
    have := h.conditional_within c hc
    omega

namespace Script

/-- The content of a line, if it is content. -/
def Line.content? : Line → Option (List Char)
  | .content text => some text
  | _ => none

namespace Draft

variable {d d' : Draft}

/-- A line that is taken up adds its content to the lines. -/
theorem lines_take {line : Line} (h : d.take line = .ok d') :
    d'.lines = d.lines ++ line.content?.toList.map String.ofList := by
  -- only content changes the lines
  cases line <;> simp only [take, startDecision, endDecision, addOption, elseIf, otherwise, endIf,
    bind, Except.bind, pure, Except.pure] at h
  all_goals
    repeat' split at h
    all_goals cases h <;> simp [Line.content?, addLine, startIf]

/-- The lines of a draft are those it had and the content that it has taken up. -/
theorem lines_foldlM_take {ls : List Line} (h : ls.foldlM take d = .ok d') :
    d'.lines = d.lines ++ (ls.filterMap Line.content?).map String.ofList := by
  induction ls generalizing d with
  | nil =>
    cases h
    simp
  | cons line ls ih =>
    rw [List.foldlM_cons] at h
    cases htake : d.take line with
    | error f => simp [htake, bind, Except.bind] at h
    | ok d₁ =>
      simp only [htake, bind, Except.bind] at h
      rw [ih h, lines_take htake]
      cases hline : line.content? <;> simp [hline]

/-- The node of a draft has its lines. -/
theorem lines_close {n : Node} (h : d.close = .ok n) : n.lines = d.lines := by
  unfold close at h
  repeat' split at h
  all_goals cases h
  rfl

end Draft

variable {source name context : String} {vs : Variables} {n : Node}

/-- The lines of a compiled node are the content of its section up to the closing marker. -/
theorem compile_lines (hn : (compile source name context vs).1 = .ok (some n)) :
    ∃ ls, sectionOf? source name = some ls ∧
      n.lines = ((body ls).filterMap Line.content?).map String.ofList := by
  obtain ⟨ls, hls, hfinish⟩ := compile_eq_ok_some_iff.mp hn
  obtain ⟨-, d, htake, hclose⟩ := finish_eq_ok_iff.mp hfinish
  refine ⟨ls, hls, ?_⟩
  rw [Draft.lines_close hclose, Draft.lines_foldlM_take htake]
  rfl

/-- A compiled node has its shape: its lines are content lines, the decisions and conditionals are
numbered in order and filled by their options and branches, decisions are apart and conditionals
nested, and all line numbers are within the node. -/
theorem compile_shaped (hn : (compile source name context vs).1 = .ok (some n)) : n.Shaped := by
  have hlaid := compile_laid hn
  refine ⟨hlaid, ?_, hlaid.places_within (compile_header hn).2.2⟩
  intro l hl
  obtain ⟨ls, hls, hlines⟩ := compile_lines hn
  rw [hlines] at hl
  obtain ⟨text, htext, rfl⟩ := List.mem_map.mp hl
  obtain ⟨line, hline, hcontent⟩ := List.mem_filterMap.mp htext
  obtain rfl : line = .content text := by
    cases line <;> simp_all [Line.content?]
  obtain ⟨raw, hraw, hread⟩ := read?_of_mem_section hls (mem_of_mem_body hline)
  rw [String.toList_ofList]
  exact isContent_of_read? (Text.newline_notMem_of_mem_lines hraw) hread

/-- A script with slashes in quotes and in a comment. -/
private def signpost : String := "\n".intercalate ["#Node:main", "var x = 1",
  "  Go to \"http://a\". // here", "if (x > 0)", "#StartDecision", "-Yes", "One.", "-No",
  "#EndDecision", "else", "Two.", "endif", "#EndNode"]

/-- A comment is left out of a node, slashes in quotes are kept, and a decision may lie in a branch
of a conditional. -/
theorem compile_shaped_signpost : ∃ n, (compile signpost "main" "" .empty).1 = .ok (some n) ∧
    n.lines = ["Go to \"http://a\".", "One.", "Two."] ∧ n.decisions.length = 1 ∧
    n.conditionals.length = 1 ∧ n.Shaped := by
  obtain ⟨n, hn, hlines⟩ : ∃ n, (compile signpost "main" "" .empty).1 = .ok (some n) ∧
      n.lines = ["Go to \"http://a\".", "One.", "Two."] ∧ n.decisions.length = 1 ∧
      n.conditionals.length = 1 :=
    ⟨⟨"main", "", 0, ["Go to \"http://a\".", "One.", "Two."],
      [⟨0, 1, 2, [⟨"Yes", 1, 2⟩, ⟨"No", 2, 2⟩]⟩],
      [⟨0, ⟨"x > 0", 1, 2⟩, [], some ⟨"", 2, 3⟩, 1, 3⟩]⟩, by decide +kernel⟩
  exact ⟨n, hn, hlines.1, hlines.2.1, hlines.2.2, compile_shaped hn⟩

end Script

end VisualNovel
