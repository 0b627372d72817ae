import VisualNovel.Proofs.Script.Markup
import VisualNovel.Traversal.Motion

/-!
# Markers that are nested

Conditionals and decisions may be opened and closed in any order, as long as each kind on its own is
in order. A script is well nested if the markers of both kinds are in order together: what is opened
last is branched and closed first. In a node that is compiled from such a script, a conditional and
a decision are apart from each other, or one of them lies inside a single part of the other.

## Main definitions

* `Script.nest`: what a line makes of the blocks that are open;
* `Script.isWellNested`: the markers of a node are nested;
* `Conditional.Fits`, `Node.Nested`: how the blocks of such a node lie.

## Main results

* `Script.compile_nested`: a node that is compiled from a script that is well nested is nested.
-/

namespace VisualNovel

namespace Script

/-- The blocks that are open after a line, innermost first, if the line is in order. -/
def nest : List BlockKind → Line → Option (List BlockKind)
  | ks, .startIf _ => some (.conditional :: ks)
  | .conditional :: ks, .elseIf _ => some (.conditional :: ks)
  | .conditional :: ks, .otherwise => some (.conditional :: ks)
  | .conditional :: ks, .endIf => some ks
  | ks, .startDecision => some (.decision :: ks)
  | .decision :: ks, .option _ _ => some (.decision :: ks)
  | .decision :: ks, .endDecision => some ks
  | ks, .content _ => some ks
  | _, _ => none

/-- The markers of a node are nested from a line on; the blocks that are open are given once the
node is open. -/
def isNestedFrom (name : String) : Option (List BlockKind) → List (List Char) → Bool
  | _, [] => true
  | opened?, raw :: rest =>
    match Line.read? raw with
    | none => isNestedFrom name opened? rest
    | some (.declaration _ _) => isNestedFrom name opened? rest
    | some line =>
      match opened? with
      | none =>
        let opened := match line with
          | .node header _ => if header = name.toList then some [] else none
          | _ => none
        isNestedFrom name opened rest
      | some ks =>
        if line = .endNode then true
        else match nest ks line with
          | some ks => isNestedFrom name (some ks) rest
          | none => false

/-- The markers of the node of a name are nested in each other. -/
def isWellNested (source name : String) : Bool :=
  isNestedFrom name none (Text.lines source.toList)

end Script

/-- A conditional and a decision are apart, or the decision lies in a branch of the conditional, or
the conditional lies in the decision and reaches over no start of an option. -/
def Conditional.Fits (c : Conditional) (d : Decision) : Prop :=
  c.stop ≤ d.start ∨ d.stop ≤ c.start ∨
    (∃ b ∈ c.branches, b.start ≤ d.start ∧ d.stop ≤ b.stop) ∨
    (d.start ≤ c.start ∧ c.stop ≤ d.stop ∧ ∀ o ∈ d.options, c.stop ≤ o.start ∨ o.start ≤ c.start)

instance (c : Conditional) (d : Decision) : Decidable (c.Fits d) :=
  inferInstanceAs (Decidable (_ ∨ _ ∨ _ ∨ _))

/-- The conditionals and the decisions of a node are nested in each other. -/
def Node.Nested (n : Node) : Prop := ∀ c ∈ n.conditionals, ∀ d ∈ n.decisions, c.Fits d

instance (n : Node) : Decidable n.Nested := inferInstanceAs (Decidable (∀ _ ∈ _, _))

/-- The conditionals and the decisions up to a line are nested in each other. So many of the open
conditionals have been opened inside the open decision. -/
structure BlocksNest (line : Int) (cs : List Conditional) (opened : List Nat) (inner : Nat)
    (closed : List Decision) (e? : Option Decision) : Prop where
  /-- Closed blocks fit each other. -/
  closed_closed : ∀ (i : Nat) (c : Conditional), cs[i]? = some c → i ∉ opened →
    ∀ d ∈ closed, c.Fits d
  /-- A closed decision lies before an open conditional or in a branch of it. -/
  open_closed : ∀ (i : Nat) (c : Conditional), cs[i]? = some c → i ∈ opened → ∀ d ∈ closed,
    ∀ stop, line ≤ stop →
      d.stop ≤ c.start ∨ ∃ b ∈ (c.endAt stop).branches, b.start ≤ d.start ∧ d.stop ≤ b.stop
  /-- A closed conditional lies before the open decision or in it. -/
  closed_open : ∀ (i : Nat) (c : Conditional), cs[i]? = some c → i ∉ opened → ∀ e ∈ e?,
    c.stop ≤ e.start ∨
      (e.start ≤ c.start ∧ ∀ o ∈ e.options, c.stop ≤ o.start ∨ o.start ≤ c.start)
  /-- An open conditional that has been opened inside the open decision lies in its last option. -/
  inner_open : ∀ (i : Nat) (c : Conditional), cs[i]? = some c → i ∈ opened.take inner →
    ∀ e ∈ e?, e.start ≤ c.start ∧ ∀ o ∈ e.options, o.start ≤ c.start
  /-- Another open conditional has the open decision in its last branch. -/
  outer_open : ∀ (i : Nat) (c : Conditional), cs[i]? = some c → i ∈ opened.drop inner →
    ∀ e ∈ e?, ∀ stop, ∃ b ∈ (c.endAt stop).branches, b.start ≤ e.start ∧ b.stop = stop

namespace BlocksNest

variable {line : Int} {cs : List Conditional} {opened : List Nat} {inner : Nat}
  {closed : List Decision} {e? : Option Decision}

/-- Nothing has been read. -/
theorem init (line : Int) : BlocksNest line [] [] 0 [] none := by
  constructor <;> simp

/-- A further line of content. -/
theorem grow (h : BlocksNest line cs opened inner closed e?) {line' : Int} (hle : line ≤ line') :
    BlocksNest line' cs opened inner closed e? :=
  { h with
    open_closed := fun i c hc hi d hd stop hs =>
      h.open_closed i c hc hi d hd stop (le_trans hle hs) }

/-- A conditional is opened. -/
theorem startConditional (h : BlocksNest line cs opened inner closed e?)
    (hconditionals : ConditionalsLaid line cs opened) (hdecisions : DecisionsLaid line closed e?)
    (condition : String) :
    BlocksNest line (cs ++ [⟨cs.length, ⟨condition, line, line⟩, [], none, line, line⟩])
      (cs.length :: opened) (inner + 1) closed e? := by
  -- the new conditional has a number that no open one has
  have hnew {i : Nat} (hi : i ∈ opened) : i ≠ cs.length := by
    have := hconditionals.opened_lt i hi
    omega
  constructor
  · intro i c hc hi d hd
    rcases getElem?_concat hc with hc | ⟨rfl, -⟩
    · exact h.closed_closed i c hc (fun hmem => hi (List.mem_cons_of_mem _ hmem)) d hd
    · exact absurd (List.mem_cons_self ..) hi
  · intro i c hc hi d hd stop hs
    rcases getElem?_concat hc with hc | ⟨rfl, rfl⟩
    · refine h.open_closed i c hc ((List.mem_cons.mp hi).resolve_left ?_) d hd stop hs
      have := (List.getElem?_eq_some_iff.mp hc).1
      omega
    · -- closed decisions lie before the line where it starts
      exact .inl (hdecisions.within d hd).2
  · intro i c hc hi e he
    rcases getElem?_concat hc with hc | ⟨rfl, -⟩
    · exact h.closed_open i c hc (fun hmem => hi (List.mem_cons_of_mem _ hmem)) e he
    · exact absurd (List.mem_cons_self ..) hi
  · intro i c hc hi e he
    rcases getElem?_concat hc with hc | ⟨rfl, rfl⟩
    · rw [List.take_succ_cons] at hi
      refine h.inner_open i c hc ((List.mem_cons.mp hi).resolve_left ?_) e he
      have := (List.getElem?_eq_some_iff.mp hc).1
      omega
    · -- the options of the open decision have started before it
      obtain ⟨a, b, -, hb, htiles⟩ := hdecisions.opened_tiles e he
      refine ⟨(hdecisions.opened_within e he).2, fun o ho => ?_⟩
      obtain ⟨-, h₁, h₂⟩ := htiles.within ho
      exact le_trans h₁ (le_trans h₂ hb)
  · intro i c hc hi e he
    rw [List.drop_succ_cons] at hi
    rcases getElem?_concat hc with hc | ⟨rfl, -⟩
    · exact h.outer_open i c hc hi e he
    · exact absurd rfl (hnew (List.mem_of_mem_drop hi))

section Innermost

variable {i : Nat} {rest : List Nat}
  (h : BlocksNest line cs (i :: rest) (inner + 1) closed e?)
  (hconditionals : ConditionalsLaid line cs (i :: rest))

include h hconditionals

omit h in
/-- The innermost conditional is opened once. -/
private theorem not_mem_rest {j : Nat} (hj : j ∈ rest) : i ≠ j := by
  have := (List.pairwise_cons.mp hconditionals.opened_sorted).1 j hj
  omega

/-- A further branch is added to the innermost conditional, which has been opened inside the open
decision. -/
theorem branch {f : Conditional → Conditional} (condition : String)
    (hstart : ∀ c, (f c).start = c.start)
    (hbranches : ∀ c, cs[i]? = some c →
      (f c).branches = (c.endAt line).branches ++ [⟨condition, line, line⟩]) :
    BlocksNest line (cs.modify i f) (i :: rest) (inner + 1) closed e? := by
  have hmem : i ∈ i :: rest := List.mem_cons_self ..
  constructor
  · intro j c hc hj d hd
    rcases getElem?_modify_eq_some hc with ⟨rfl, -⟩ | ⟨-, hc⟩
    · exact absurd hmem hj
    · exact h.closed_closed j c hc hj d hd
  · intro j c hc hj d hd stop hs
    rcases getElem?_modify_eq_some hc with ⟨rfl, c, hc₀, rfl⟩ | ⟨-, hc⟩
    · rw [hstart, Conditional.branches_endAt_concat (hbranches c hc₀)]
      -- a closed decision that lies in a branch lies in one that has ended by now
      refine (h.open_closed i c hc₀ hmem d hd line le_rfl).imp_right ?_
      rintro ⟨b, hb, hwithin⟩
      exact ⟨b, List.mem_append_left _ hb, hwithin⟩
    · exact h.open_closed j c hc hj d hd stop hs
  · intro j c hc hj e he
    rcases getElem?_modify_eq_some hc with ⟨rfl, -⟩ | ⟨-, hc⟩
    · exact absurd hmem hj
    · exact h.closed_open j c hc hj e he
  · intro j c hc hj e he
    rcases getElem?_modify_eq_some hc with ⟨rfl, c, hc₀, rfl⟩ | ⟨-, hc⟩
    · rw [hstart]
      exact h.inner_open i c hc₀ (by simp) e he
    · exact h.inner_open j c hc hj e he
  · intro j c hc hj e he
    have hne := not_mem_rest hconditionals (List.mem_of_mem_drop (List.drop_succ_cons ▸ hj))
    rcases getElem?_modify_eq_some hc with ⟨heq, -⟩ | ⟨-, hc⟩
    · exact absurd heq hne
    · exact h.outer_open j c hc hj e he

/-- The innermost conditional, which has been opened inside the open decision, is closed. -/
theorem closeConditional :
    BlocksNest line (cs.modify i fun c => c.endAt line) rest inner closed e? := by
  have hmem : i ∈ i :: rest := List.mem_cons_self ..
  -- a conditional that is closed afterwards is this one or was closed before
  have hcons {j : Nat} (hij : i ≠ j) (hj : j ∉ rest) : j ∉ i :: rest := fun hmem =>
    (List.mem_cons.mp hmem).elim (fun heq => hij heq.symm) hj
  constructor
  · intro j c hc hj d hd
    rcases getElem?_modify_eq_some hc with ⟨rfl, c, hc₀, rfl⟩ | ⟨hij, hc⟩
    · -- what held of it for an end at this line holds of it now that it ends there
      rcases h.open_closed i c hc₀ hmem d hd line le_rfl with hbefore | hin
      · exact .inr (.inl (by simpa using hbefore))
      · exact .inr (.inr (.inl hin))
    · exact h.closed_closed j c hc (hcons hij hj) d hd
  · intro j c hc hj d hd stop hs
    rcases getElem?_modify_eq_some hc with ⟨heq, -⟩ | ⟨-, hc⟩
    · exact absurd heq (not_mem_rest hconditionals hj)
    · exact h.open_closed j c hc (List.mem_cons_of_mem _ hj) d hd stop hs
  · intro j c hc hj e he
    rcases getElem?_modify_eq_some hc with ⟨rfl, c, hc₀, rfl⟩ | ⟨hij, hc⟩
    · obtain ⟨hstart, hoptions⟩ := h.inner_open i c hc₀ (by simp) e he
      exact .inr ⟨by simpa using hstart, fun o ho => .inr (by simpa using hoptions o ho)⟩
    · exact h.closed_open j c hc (hcons hij hj) e he
  · intro j c hc hj e he
    rcases getElem?_modify_eq_some hc with ⟨heq, -⟩ | ⟨-, hc⟩
    · exact absurd heq (not_mem_rest hconditionals (List.mem_of_mem_take hj))
    · exact h.inner_open j c hc (by simp [hj]) e he
  · intro j c hc hj e he
    rcases getElem?_modify_eq_some hc with ⟨heq, -⟩ | ⟨-, hc⟩
    · exact absurd heq (not_mem_rest hconditionals (List.mem_of_mem_drop hj))
    · exact h.outer_open j c hc (by simpa using hj) e he

end Innermost

/-- A decision is opened. -/
theorem startDecision (h : BlocksNest line cs opened inner closed none)
    (hconditionals : ConditionalsLaid line cs opened) (index : Int) :
    BlocksNest line cs opened 0 closed (some ⟨index, line, line, []⟩) := by
  refine { h with closed_open := ?_, inner_open := by simp, outer_open := ?_ }
  · intro i c hc hi e he
    obtain rfl := Option.some.inj he
    exact .inl (hconditionals.closed_before hc hi).2
  · intro i c hc hi e he stop
    obtain rfl := Option.some.inj he
    exact hconditionals.last_branch hc hi stop

/-- An option that has been ended starts where it did. -/
theorem mem_endOption {e : Decision} {stop : Int} {o : Choice}
    (ho : o ∈ (e.endOption stop).options) : ∃ o' ∈ e.options, o'.start = o.start := by
  rcases List.eq_nil_or_concat e.options with hnil | ⟨init, last, hlast⟩
  · simp [Decision.endOption, hnil, modifyLast] at ho
  · rw [List.concat_eq_append] at hlast
    simp only [Decision.endOption, hlast, modifyLast_concat, List.mem_append,
      List.mem_singleton] at ho
    rcases ho with ho | rfl
    · exact ⟨o, by simp [hlast, ho], rfl⟩
    · exact ⟨last, by simp [hlast], rfl⟩

/-- An option is added to the open decision, which is innermost. -/
theorem option {e : Decision} (h : BlocksNest line cs opened 0 closed (some e))
    (hconditionals : ConditionalsLaid line cs opened) (label : String) :
    BlocksNest line cs opened 0 closed (some { e.endOption line with
      options := (e.endOption line).options ++ [⟨label, line, line⟩] }) := by
  refine { h with closed_open := ?_, inner_open := by simp, outer_open := ?_ }
  · intro i c hc hi e' he'
    obtain rfl := Option.some.inj he'
    refine (h.closed_open i c hc hi e rfl).imp_right fun ⟨hstart, hoptions⟩ => ⟨hstart, ?_⟩
    intro o ho
    -- the options so far keep their starts; the new one starts behind what is closed
    rcases List.mem_append.mp ho with ho | ho
    · obtain ⟨o', ho', heq⟩ := mem_endOption ho
      rw [← heq]
      exact hoptions o' ho'
    · obtain rfl := List.mem_singleton.mp ho
      exact .inl (hconditionals.closed_before hc hi).2
  · intro i c hc hi e' he'
    obtain rfl := Option.some.inj he'
    exact h.outer_open i c hc hi e rfl

/-- The open decision, which is innermost, is closed. -/
theorem closeDecision {e : Decision} (h : BlocksNest line cs opened 0 closed (some e))
    (hconditionals : ConditionalsLaid line cs opened) (inner : Nat) :
    BlocksNest line cs opened inner (closed ++ [e.endAt line]) none := by
  refine ⟨?_, ?_, by simp, by simp, by simp⟩
  · intro i c hc hi d hd
    rcases List.mem_append.mp hd with hd | hd
    · exact h.closed_closed i c hc hi d hd
    · obtain rfl := List.mem_singleton.mp hd
      rcases h.closed_open i c hc hi e rfl with hbefore | ⟨hstart, hoptions⟩
      · exact .inl hbefore
      · -- a conditional inside the decision reaches over no start of an option, as before
        refine .inr (.inr (.inr ⟨hstart, (hconditionals.closed_before hc hi).2, fun o ho => ?_⟩))
        obtain ⟨o', ho', heq⟩ := mem_endOption ho
        rw [← heq]
        exact hoptions o' ho'
  · intro i c hc hi d hd stop hs
    rcases List.mem_append.mp hd with hd | hd
    · exact h.open_closed i c hc hi d hd stop hs
    · obtain rfl := List.mem_singleton.mp hd
      -- a conditional that is still open holds the decision in its last branch
      obtain ⟨b, hb, hstart, hstop⟩ := h.outer_open i c hc hi e rfl stop
      exact .inr ⟨b, hb, hstart, by rw [hstop]; exact hs⟩

end BlocksNest

namespace Script

/-- How many of the open blocks are conditionals that have been opened inside the open decision. -/
def innerConditionals (ks : List BlockKind) : Nat := (ks.takeWhile (· = .conditional)).length

@[simp]
theorem innerConditionals_conditional (ks : List BlockKind) :
    innerConditionals (.conditional :: ks) = innerConditionals ks + 1 := by
  simp [innerConditionals]

@[simp]
theorem innerConditionals_decision (ks : List BlockKind) :
    innerConditionals (.decision :: ks) = 0 := by
  simp [innerConditionals]

/-- The blocks of a draft are nested as far as they have been read. -/
def Draft.Nested (d : Draft) (ks : List BlockKind) : Prop :=
  BlocksNest d.cursor d.conditionals d.openConditionals (innerConditionals ks) d.decisions
    d.openDecision

namespace Draft

variable {d d' : Draft} {ks ks' : List BlockKind}

/-- A further branch that is in order keeps the blocks nested. -/
private theorem Nested.branched {last : Bool} (h : d.Nested (.conditional :: ks)) (hlaid : d.Laid)
    (hd : d.Branched last d') : d'.Nested (.conditional :: ks) := by
  cases hd with
  | @intro i rest f condition hopen _ hstart _ hbranches =>
    have hconditionals := hlaid.conditionals
    rw [Nested, hopen, innerConditionals_conditional] at h
    rw [hopen] at hconditionals
    show BlocksNest d.cursor (d.conditionals.modify i f) d.openConditionals _ d.decisions
      d.openDecision
    rw [hopen, innerConditionals_conditional]
    exact h.branch hconditionals condition hstart hbranches

/-- A line that is in order keeps the blocks nested. -/
theorem Nested.take (h : d.Nested ks) (hlaid : d.Laid) {line : Line}
    (hks : nest ks line = some ks') (hd : d.take line = .ok d') : d'.Nested ks' := by
  have hconditionals := hlaid.conditionals
  have hdecisions := hlaid.decisions
  -- the open blocks say which markers are in order, one case for each of them
  unfold nest at hks
  split at hks
  · cases hks
    cases hd
    rw [Nested, innerConditionals_conditional]
    exact h.startConditional hconditionals hdecisions _
  · next ks condition =>
    cases hks
    exact h.branched hlaid (branched_elseIf hd)
  · cases hks
    exact h.branched hlaid (branched_otherwise hd)
  · next ks =>
    cases hks
    simp only [Draft.take, Draft.endIf] at hd
    split at hd
    · cases hd
    · next i rest hopen =>
      cases hd
      rw [Nested, hopen, innerConditionals_conditional] at h
      rw [hopen] at hconditionals
      exact h.closeConditional hconditionals
  · cases hks
    simp only [Draft.take, Draft.startDecision] at hd
    split at hd
    · cases hd
    · next hnone =>
      cases hd
      rw [Nested, hnone] at h
      rw [Nested, innerConditionals_decision]
      exact h.startDecision hconditionals _
  · cases hks
    simp only [Draft.take, Draft.addOption] at hd
    split at hd
    · cases hd
    · next e he =>
      cases hd
      rw [Nested, he, innerConditionals_decision] at h
      rw [Nested, innerConditionals_decision]
      exact h.option hconditionals _
  · next ks =>
    cases hks
    simp only [Draft.take, Draft.endDecision] at hd
    split at hd
    · cases hd
    · next e he =>
      split at hd
      · cases hd
      · cases hd
        rw [Nested, he, innerConditionals_decision] at h
        exact h.closeDecision hconditionals _
  · cases hks
    cases hd
    exact h.grow (by simp [cursor, Draft.addLine])
  · cases hks

/-- The node of a draft in which nothing is left open is nested. -/
theorem Nested.close (h : d.Nested ks) {n : Node} (hn : d.close = .ok n) : n.Nested := by
  unfold Draft.close at hn
  split at hn
  · cases hn
  · split at hn
    · cases hn
    · next hopen =>
      cases hn
      have hopen : d.openConditionals = [] := by simpa using hopen
      intro c hc e he
      obtain ⟨i, hi⟩ := List.mem_iff_getElem?.mp hc
      exact h.closed_closed i c hi (by simp [hopen]) e he

end Draft

/-- A draft goes along with the blocks that are open. -/
inductive Along : Option Draft → Option (List BlockKind) → Prop where
  /-- The node is still to be opened. -/
  | none : Along none none
  /-- The node is open. -/
  | some {d : Draft} {ks : List BlockKind} (hlaid : d.Laid) (h : d.Nested ks) :
      Along (some d) (some ks)

/-- A line that means nothing to a node leaves the markers as they are. -/
theorem isNestedFrom_cons_of_none {name : String} {opened? : Option (List BlockKind)}
    {raw : List Char} {rest : List (List Char)} (h : Line.markup? raw = none) :
    isNestedFrom name opened? (raw :: rest) = isNestedFrom name opened? rest := by
  rw [isNestedFrom]
  split
  · rfl
  · rfl
  · next line hline hread =>
    rw [markup?_eq_some_iff.mpr ⟨hread, hline⟩] at h
    cases h

/-- Before the node is open, only its header matters. -/
theorem isNestedFrom_none_cons {name : String} {raw : List Char} {rest : List (List Char)}
    {line : Line} (h : Line.markup? raw = some line) :
    isNestedFrom name none (raw :: rest) =
      isNestedFrom name
        (match line with
          | .node header _ => if header = name.toList then some [] else none
          | _ => none) rest := by
  obtain ⟨hread, hline⟩ := markup?_eq_some_iff.mp h
  rw [isNestedFrom, hread]
  cases line with
  | declaration x v => exact absurd rfl (hline x v)
  | _ => rfl

/-- Once it is open, the markers that follow are in order up to the line that ends it. -/
theorem isNestedFrom_some_cons {name : String} {ks : List BlockKind} {raw : List Char}
    {rest : List (List Char)} {line : Line} (h : Line.markup? raw = some line)
    (hend : line ≠ .endNode) (hlines : isNestedFrom name (some ks) (raw :: rest)) :
    ∃ ks', nest ks line = some ks' ∧ isNestedFrom name (some ks') rest := by
  obtain ⟨hread, hline⟩ := markup?_eq_some_iff.mp h
  rw [isNestedFrom, hread] at hlines
  cases line with
  | declaration x v => exact absurd rfl (hline x v)
  | endNode => exact absurd rfl hend
  | _ =>
    simp only [reduceCtorEq, if_false] at hlines
    split at hlines
    · next ks' hnest => exact ⟨ks', hnest, hlines⟩
    · cases hlines

/-- A node that is compiled from lines whose markers are nested is nested. -/
theorem compileFrom_nested {name context : String} {k : Nat} {draft? : Option Draft}
    {opened? : Option (List BlockKind)} {vs : Variables} {lines : List (List Char)} {n : Node}
    (halong : Along draft? opened?) (hlines : isNestedFrom name opened? lines)
    (hn : (compileFrom name context k draft? vs lines).1 = .ok (some n)) : n.Nested := by
  -- by induction on the lines, with the draft and the open markers in step
  induction lines generalizing k draft? opened? vs with
  | nil => cases draft? <;> simp [compileFrom] at hn
  | cons raw rest ih =>
    cases hmarkup : Line.markup? raw with
    | none =>
      obtain ⟨ws, hskip⟩ := compileFrom_cons_of_none name context k vs rest draft? hmarkup
      rw [hskip] at hn
      rw [isNestedFrom_cons_of_none hmarkup] at hlines
      exact ih halong hlines hn
    | some line =>
      cases halong with
      | none =>
        rw [compileFrom_none_cons hmarkup] at hn
        rw [isNestedFrom_none_cons hmarkup] at hlines
        -- the header of the node opens the draft and the list of markers together
        refine ih ?_ hlines hn
        cases line with
        | node header whole =>
          dsimp only
          split
          · exact .some (Draft.laid_init name context) (.init _)
          · exact .none
        | _ => exact .none
      | @some d ks hlaid h =>
        rw [compileFrom_some_cons hmarkup] at hn
        split at hn
        · split at hn
          · next hclose =>
            cases hn
            exact h.close hclose
          · cases hn
        · next hend =>
          split at hn
          · next d' htake =>
            obtain ⟨ks', hnest, hlines'⟩ := isNestedFrom_some_cons hmarkup hend hlines
            exact ih (.some (hlaid.take htake) (h.take hlaid hnest htake)) hlines' hn
          · cases hn

/-- A node that is compiled from a script that is well nested is nested. -/
theorem compile_nested {source name context : String} {vs : Variables} {n : Node}
    (hsource : isWellNested source name)
    (hn : (compile source name context vs).1 = .ok (some n)) : n.Nested :=
  compileFrom_nested .none hsource hn

end Script

end VisualNovel
