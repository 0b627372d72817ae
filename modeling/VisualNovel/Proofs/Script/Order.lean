import VisualNovel.Proofs.Layout.Nesting
import VisualNovel.Proofs.Script.Markup

/-!
# Markers that are in order

The markers of conditionals and those of decisions are looked at separately: a node is compiled if
the markers of each kind, taken alone, are in order. That the two kinds are nested in each other is
not asked for.

## Main definitions

* `Script.Chains`, `Script.Branches`: conditionals with conditionals in their branches;
* `Script.Questions`: decisions, one after the other;
* `Script.InOrder`: the markers of each kind are in order.

## Main results

* `Script.foldlM_chainStep_iff`, `Script.foldlM_askStep_iff`: what it takes to recognise these;
* `Script.Draft.exists_finish_iff`: which lines make a draft a node;
* `Script.compile_iff_inOrder`: which texts are compiled, and which are refused.
-/

namespace VisualNovel.Script

/-- The line opens, continues or closes a conditional. -/
def Line.isBranching : Line → Bool
  | .startIf _ | .elseIf _ | .otherwise | .endIf => true
  | _ => false

/-- The line opens, continues or closes a decision. -/
def Line.isAsking : Line → Bool
  | .startDecision | .option _ _ | .endDecision => true
  | _ => false

mutual

/-- Conditionals one after the other, with conditionals in their branches. -/
inductive Chains : List Line → Prop where
  | nil : Chains []
  | chain {condition : List Char} {body branches rest : List Line} (hbody : Chains body)
      (hbranches : Branches branches) (hrest : Chains rest) :
      Chains (.startIf condition :: body ++ branches ++ rest)

/-- What follows the first branch of a conditional, up to its end. -/
inductive Branches : List Line → Prop where
  | endIf : Branches [.endIf]
  | elseIf {condition : List Char} {body branches : List Line} (hbody : Chains body)
      (hbranches : Branches branches) : Branches (.elseIf condition :: body ++ branches)
  /-- The last branch has no condition. -/
  | otherwise {body : List Line} (hbody : Chains body) :
      Branches (.otherwise :: body ++ [.endIf])

end

/-- Decisions one after the other, with an option at least. -/
inductive Questions : List Line → Prop where
  | nil : Questions []
  | question {options rest : List Line} (hne : options ≠ [])
      (hoptions : ∀ line ∈ options, ∃ label whole, line = .option label whole)
      (hrest : Questions rest) : Questions (.startDecision :: options ++ .endDecision :: rest)

/-- The markers of each kind, taken alone, are in order. -/
structure InOrder (ls : List Line) : Prop where
  /-- No other node is opened. -/
  no_header : ∀ header whole, .node header whole ∉ ls
  /-- Conditionals are opened, continued and closed in order. -/
  chains : Chains (ls.filter Line.isBranching)
  /-- Decisions are opened, continued and closed in order. -/
  questions : Questions (ls.filter Line.isAsking)

section Chains

/-- What a line makes of the open conditionals, innermost first. Of each it is kept whether it has
its last branch. -/
def chainStep : List Bool → Line → Option (List Bool)
  | opened, .startIf _ => some (false :: opened)
  | false :: opened, .elseIf _ => some (false :: opened)
  | false :: opened, .otherwise => some (true :: opened)
  | _ :: opened, .endIf => some opened
  | _, .elseIf _ => none
  | _, .otherwise => none
  | _, .endIf => none
  | opened, _ => some opened

variable {ls : List Line}

mutual

/-- Conditionals that are in order leave those around them as they are. -/
theorem Chains.foldlM_chainStep : {ls : List Line} → Chains ls → ∀ opened,
    ls.foldlM chainStep opened = some opened
  | _, .nil, _ => rfl
  | _, .chain hbody hbranches hrest, opened => by
    rw [List.append_assoc, List.cons_append, List.foldlM_cons]
    simp [chainStep, hbody.foldlM_chainStep, hbranches.foldlM_chainStep, hrest.foldlM_chainStep]

/-- The further branches of a conditional close it. -/
theorem Branches.foldlM_chainStep : {ls : List Line} → Branches ls → ∀ opened,
    ls.foldlM chainStep (false :: opened) = some opened
  | _, .endIf, _ => rfl
  | _, .elseIf hbody hbranches, opened => by
    simp [chainStep, hbody.foldlM_chainStep, hbranches.foldlM_chainStep]
  | _, .otherwise hbody, opened => by
    simp [chainStep, hbody.foldlM_chainStep]

end

/-- The lines close conditionals that are open, and everything that they open. -/
def Closes : List Bool → List Line → Prop
  | [], ls => Chains ls
  | last :: opened, ls => ∃ body branches rest, ls = body ++ branches ++ rest ∧ Chains body ∧
      (if last then branches = [.endIf] else Branches branches) ∧ Closes opened rest

/-- A conditional may stand in front of what closes those around it. -/
theorem Closes.startIf {opened : List Bool} {condition : List Char}
    (h : Closes (false :: opened) ls) : Closes opened (.startIf condition :: ls) := by
  obtain ⟨body, branches, rest, rfl, hbody, hbranches, hrest⟩ := h
  have hbranches : Branches branches := hbranches
  cases opened with
  | nil => exact Chains.chain hbody hbranches hrest
  | cons last opened =>
    obtain ⟨body', branches', rest, rfl, hbody', hbranches', hrest⟩ := hrest
    exact ⟨.startIf condition :: body ++ branches ++ body', branches', rest, by simp,
      Chains.chain hbody hbranches hbody', hbranches', hrest⟩

/-- A further branch of an open conditional. -/
theorem Closes.elseIf {opened : List Bool} {condition : List Char}
    (h : Closes (false :: opened) ls) : Closes (false :: opened) (.elseIf condition :: ls) := by
  obtain ⟨body, branches, rest, rfl, hbody, hbranches, hrest⟩ := h
  exact ⟨[], .elseIf condition :: body ++ branches, rest, by simp, .nil,
    Branches.elseIf hbody hbranches, hrest⟩

/-- The last branch of an open conditional. -/
theorem Closes.otherwise {opened : List Bool} (h : Closes (true :: opened) ls) :
    Closes (false :: opened) (.otherwise :: ls) := by
  obtain ⟨body, branches, rest, rfl, hbody, hbranches, hrest⟩ := h
  obtain rfl : branches = [.endIf] := hbranches
  have hlast : Branches (.otherwise :: body ++ [.endIf]) := Branches.otherwise hbody
  exact ⟨[], _, rest, by simp, .nil, hlast, hrest⟩

/-- The end of an open conditional. -/
theorem Closes.endIf {last : Bool} {opened : List Bool} (h : Closes opened ls) :
    Closes (last :: opened) (.endIf :: ls) := by
  refine ⟨[], [.endIf], ls, rfl, .nil, ?_, h⟩
  cases last
  · exact Branches.endIf
  · rfl

/-- Lines after which nothing is open have closed what was open. -/
theorem closes_of_foldlM {opened : List Bool} (h : ls.foldlM chainStep opened = some []) :
    Closes opened (ls.filter Line.isBranching) := by
  -- by induction on the lines, for any conditionals that are open
  induction ls generalizing opened with
  | nil =>
    obtain rfl : opened = [] := by simpa using h
    exact Chains.nil
  | cons line ls ih =>
    rw [List.foldlM_cons] at h
    obtain ⟨opened', hstep, hrest⟩ := Option.bind_eq_some_iff.mp h
    have hcloses := ih hrest
    -- one case for each line that conditionals go by
    unfold chainStep at hstep
    split at hstep <;> cases hstep
    · exact hcloses.startIf
    · exact hcloses.elseIf
    · exact hcloses.otherwise
    · exact hcloses.endIf
    · next hstart helse hother hend =>
      rw [List.filter_cons_of_neg]
      · exact hcloses
      · cases line <;> simp_all [Line.isBranching]

/-- Only markers of conditionals change which conditionals are open. -/
theorem foldlM_chainStep_filter (opened : List Bool) :
    (ls.filter Line.isBranching).foldlM chainStep opened = ls.foldlM chainStep opened := by
  induction ls generalizing opened with
  | nil => rfl
  | cons line ls ih =>
    cases hline : line.isBranching with
    | true => simp [hline, ih]
    | false =>
      have hstep : chainStep opened line = some opened := by
        cases line <;> simp only [Line.isBranching, reduceCtorEq] at hline <;> rfl
      simp [hline, hstep, ih]

/-- The lines are recognised whose markers of conditionals are in order. -/
theorem foldlM_chainStep_iff :
    ls.foldlM chainStep [] = some [] ↔ Chains (ls.filter Line.isBranching) := by
  constructor
  · exact closes_of_foldlM
  · intro h
    rw [← foldlM_chainStep_filter, h.foldlM_chainStep]

end Chains

section Questions

/-- What a line makes of the open decision. Of this it is kept whether it has an option. -/
def askStep (asking : Option Bool) : Line → Option (Option Bool)
  | .startDecision => if asking = none then some (some false) else none
  | .option _ _ => if asking = none then none else some (some true)
  | .endDecision => if asking = some true then some none else none
  | _ => some asking

variable {ls : List Line}

/-- Options leave a decision open. -/
theorem foldlM_askStep_options {options : List Line} {asking : Bool}
    (hoptions : ∀ line ∈ options, ∃ label whole, line = .option label whole) :
    options.foldlM askStep (some asking) = some (some (asking || !options.isEmpty)) := by
  induction options generalizing asking with
  | nil => simp
  | cons line options ih =>
    obtain ⟨label, whole, rfl⟩ := hoptions line (List.mem_cons_self ..)
    have hrest := @ih true fun l hl => hoptions l (List.mem_cons_of_mem _ hl)
    simpa [askStep] using hrest

/-- Decisions that are in order leave none open. -/
theorem Questions.foldlM_askStep (h : Questions ls) : ls.foldlM askStep none = some none := by
  induction h with
  | nil => rfl
  | question hne hoptions hrest ih =>
    rw [List.cons_append, List.foldlM_cons]
    simp [askStep, foldlM_askStep_options hoptions, hne, ih]

/-- The lines close the decision that is open, and every decision that they open. -/
def Answers : Option Bool → List Line → Prop
  | none, ls => Questions ls
  | some asking, ls => ∃ options rest, ls = options ++ .endDecision :: rest ∧
      (∀ line ∈ options, ∃ label whole, line = .option label whole) ∧
      (asking = false → options ≠ []) ∧ Questions rest

/-- Lines after which no decision is open have closed the one that was. -/
theorem answers_of_foldlM {asking : Option Bool} (h : ls.foldlM askStep asking = some none) :
    Answers asking (ls.filter Line.isAsking) := by
  induction ls generalizing asking with
  | nil =>
    obtain rfl : asking = none := by simpa using h
    exact Questions.nil
  | cons line ls ih =>
    rw [List.foldlM_cons] at h
    obtain ⟨asking', hstep, hrest⟩ := Option.bind_eq_some_iff.mp h
    have hanswers := ih hrest
    -- one case for each line that decisions go by
    unfold askStep at hstep
    split at hstep
    · split at hstep <;> cases hstep
      next hnone =>
      subst hnone
      obtain ⟨options, rest, heq, hoptions, hne, hquestions⟩ := hanswers
      rw [List.filter_cons_of_pos rfl, heq]
      exact Questions.question (hne rfl) hoptions hquestions
    · next label whole =>
      split at hstep <;> cases hstep
      next hsome =>
      obtain ⟨had, rfl⟩ := Option.ne_none_iff_exists'.mp hsome
      obtain ⟨options, rest, heq, hoptions, -, hquestions⟩ := hanswers
      rw [List.filter_cons_of_pos rfl, heq]
      refine ⟨.option label whole :: options, rest, rfl, ?_, by simp, hquestions⟩
      exact List.forall_mem_cons.mpr ⟨⟨label, whole, rfl⟩, hoptions⟩
    · split at hstep <;> cases hstep
      next htrue =>
      subst htrue
      rw [List.filter_cons_of_pos rfl]
      exact ⟨[], _, rfl, by simp, by simp, hanswers⟩
    · cases hstep
      rw [List.filter_cons_of_neg]
      · exact hanswers
      · cases line <;> simp_all [Line.isAsking]

/-- Only markers of decisions change which decision is open. -/
theorem foldlM_askStep_filter (asking : Option Bool) :
    (ls.filter Line.isAsking).foldlM askStep asking = ls.foldlM askStep asking := by
  induction ls generalizing asking with
  | nil => rfl
  | cons line ls ih =>
    cases hline : line.isAsking with
    | true => simp [hline, ih]
    | false =>
      have hstep : askStep asking line = some asking := by
        cases line <;> simp only [Line.isAsking, reduceCtorEq] at hline <;> rfl
      simp [hline, hstep, ih]

/-- The lines are recognised whose markers of decisions are in order. -/
theorem foldlM_askStep_iff :
    ls.foldlM askStep none = some none ↔ Questions (ls.filter Line.isAsking) := by
  constructor
  · exact answers_of_foldlM
  · intro h
    rw [← foldlM_askStep_filter, h.foldlM_askStep]

end Questions

namespace Draft

variable {d d' : Draft} {line : Line} {ls : List Line}

/-- The open conditionals of a draft, and whether each has its last branch. -/
def chainState (d : Draft) : List Bool :=
  d.openConditionals.map fun i => (d.conditionals[i]?.bind Conditional.otherwise).isSome

/-- The open decision of a draft, and whether it has an option. -/
def askState (d : Draft) : Option Bool := d.openDecision.map fun e => !e.options.isEmpty

/-- Changing the innermost open conditional leaves the ones around it alone. -/
theorem chainState_modify {i : Nat} {rest : List Nat} (h : d.Laid)
    (hopen : d.openConditionals = i :: rest) (f : Conditional → Conditional) :
    rest.map (fun j => ((d.conditionals.modify i f)[j]?.bind Conditional.otherwise).isSome) =
      rest.map fun j => (d.conditionals[j]?.bind Conditional.otherwise).isSome := by
  refine List.map_congr_left fun j hj => ?_
  have hsorted := h.conditionals.opened_sorted
  rw [hopen] at hsorted
  have hne : i ≠ j := (((List.pairwise_cons.mp hsorted).1 j hj).ne).symm
  simp [hne]

/-- If no conditional may go on, there is none or it has its last branch. -/
theorem chainState_of_not_branchable {marker : String} {f : ScriptFault}
    (hf : d.branchable marker = .error f) : ∀ rest, d.chainState ≠ false :: rest := by
  intro rest heq
  unfold branchable at hf
  split at hf
  · next hopen => simp [chainState, hopen] at heq
  · next j others hopen =>
    split at hf
    · next hsome => simp [chainState, hopen, hsome] at heq
    · cases hf

/-- A conditional goes on whose last branch is still missing; the ones around it stay the same. -/
theorem chainState_branched {last : Bool} (h : d.Laid) (hd : d.Branched last d') :
    ∃ rest, d.chainState = false :: rest ∧ d'.chainState = last :: rest ∧
      d'.askState = d.askState := by
  cases hd with
  | @intro i rest f condition hopen _ _ hlast _ =>
    have hlt := h.conditionals.opened_lt i (by simp [hopen])
    obtain ⟨hnone, hsome⟩ := hlast _ (List.getElem?_eq_getElem hlt)
    refine ⟨rest.map fun j => (d.conditionals[j]?.bind Conditional.otherwise).isSome, ?_, ?_, rfl⟩
    · simp [chainState, hopen, List.getElem?_eq_getElem hlt, hnone]
    · rw [chainState]
      simp only [hopen, List.map_cons, chainState_modify h hopen]
      simp [List.getElem?_eq_getElem hlt, hsome]

/-- A line that is taken up is in order. -/
theorem step_of_take (h : d.Laid) (hd : d.take line = .ok d') :
    (∀ header whole, line ≠ .node header whole) ∧
      chainStep d.chainState line = some d'.chainState ∧
      askStep d.askState line = some d'.askState := by
  -- each kind of line belongs to the conditionals or to the decisions, and leaves the other state
  cases line with
  | declaration x v => cases hd; exact ⟨by simp, rfl, rfl⟩
  | node header whole => cases hd
  | endNode => cases hd; exact ⟨by simp, rfl, rfl⟩
  | content text => cases hd; exact ⟨by simp, rfl, rfl⟩
  | startDecision =>
    simp only [take, startDecision] at hd
    split at hd <;> cases hd
    next hnone => exact ⟨by simp, rfl, by simp [askStep, askState, hnone]⟩
  | option label whole =>
    simp only [take, addOption] at hd
    split at hd <;> cases hd
    next e he => exact ⟨by simp, rfl, by simp [askStep, askState, he]⟩
  | endDecision =>
    simp only [take, endDecision] at hd
    split at hd
    · cases hd
    · next e he =>
      split at hd <;> cases hd
      next hne => exact ⟨by simp, rfl, by simpa [askStep, askState, he] using hne⟩
  | startIf condition =>
    cases hd
    refine ⟨by simp, ?_, rfl⟩
    have hopened := h.conditionals.opened_lt
    simp only [chainStep, chainState, startIf, List.map_cons, Option.some.injEq, List.cons.injEq]
    refine ⟨by simp, List.map_congr_left fun i hi => ?_⟩
    rw [List.getElem?_append_left (hopened i hi)]
  | elseIf condition =>
    obtain ⟨rest, hbefore, hafter, hask⟩ := chainState_branched h (branched_elseIf hd)
    exact ⟨by simp, by rw [hbefore, hafter]; rfl, congrArg some hask.symm⟩
  | otherwise =>
    obtain ⟨rest, hbefore, hafter, hask⟩ := chainState_branched h (branched_otherwise hd)
    exact ⟨by simp, by rw [hbefore, hafter]; rfl, congrArg some hask.symm⟩
  | endIf =>
    simp only [take, endIf] at hd
    split at hd <;> cases hd
    next i rest hopen =>
    refine ⟨by simp, ?_, rfl⟩
    simp only [chainStep, chainState, hopen, List.map_cons, chainState_modify h hopen]

/-- A line that is not taken up is not in order. -/
theorem step_of_take_error {f : ScriptFault} (hd : d.take line = .error f) :
    (∃ header whole, line = .node header whole) ∨ chainStep d.chainState line = none ∨
      askStep d.askState line = none := by
  -- a refusal comes from the state to which the kind of line belongs
  cases line with
  | declaration x v => cases hd
  | node header whole => exact .inl ⟨header, whole, rfl⟩
  | endNode => cases hd
  | content text => cases hd
  | startIf condition => cases hd
  | startDecision =>
    simp only [take, startDecision] at hd
    split at hd <;> cases hd
    next e he => exact .inr (.inr (by simp [askStep, askState, he]))
  | option label whole =>
    simp only [take, addOption] at hd
    split at hd <;> cases hd
    next hnone => exact .inr (.inr (by simp [askStep, askState, hnone]))
  | endDecision =>
    simp only [take, endDecision] at hd
    split at hd
    · next hnone => exact .inr (.inr (by simp [askStep, askState, hnone]))
    · next e he =>
      split at hd <;> cases hd
      next hempty => exact .inr (.inr (by simpa [askStep, askState, he] using hempty))
  | elseIf condition =>
    refine .inr (.inl ?_)
    cases hi : d.branchable "else if" with
    | ok i => simp [take, elseIf, hi, bind, Except.bind, pure, Except.pure] at hd
    | error f =>
      have hstate := chainState_of_not_branchable hi
      unfold chainStep
      split <;> simp_all
  | otherwise =>
    refine .inr (.inl ?_)
    cases hi : d.branchable "else" with
    | ok i => simp [take, otherwise, hi, bind, Except.bind, pure, Except.pure] at hd
    | error f =>
      have hstate := chainState_of_not_branchable hi
      unfold chainStep
      split <;> simp_all
  | endIf =>
    simp only [take, endIf] at hd
    split at hd <;> cases hd
    next hopen => exact .inr (.inl (by simp [chainStep, chainState, hopen]))

/-- A draft becomes a node if nothing is open in it. -/
theorem exists_close_iff :
    (∃ n, d.close = .ok n) ↔ d.chainState = [] ∧ d.askState = none := by
  unfold close
  cases hdecision : d.openDecision <;> cases hconditionals : d.openConditionals <;>
    simp [chainState, askState, hdecision, hconditionals]

/-- A draft becomes a node if no other node is opened and the markers of each kind close what is
open. -/
theorem exists_close_of_foldlM_iff (h : d.Laid) (ls : List Line) :
    (∃ d' n, ls.foldlM take d = .ok d' ∧ d'.close = .ok n) ↔
      (∀ header whole, .node header whole ∉ ls) ∧ ls.foldlM chainStep d.chainState = some [] ∧
        ls.foldlM askStep d.askState = some none := by
  induction ls generalizing d with
  | nil => simpa [pure, Except.pure] using exists_close_iff
  | cons line ls ih =>
    simp only [List.foldlM_cons]
    cases hd : d.take line with
    | ok d₁ =>
      obtain ⟨hline, hchain, hask⟩ := step_of_take h hd
      have hheader : (∀ header whole, .node header whole ∉ line :: ls) ↔
          ∀ header whole, .node header whole ∉ ls := by
        refine forall₂_congr fun header whole => not_congr ?_
        simp [Ne.symm (hline header whole)]
      rw [hheader, hchain, hask]
      exact ih (h.take hd)
    | error f =>
      refine iff_of_false (by simp [bind, Except.bind]) ?_
      rintro ⟨hheader, hchain, hask⟩
      rcases step_of_take_error hd with ⟨header, whole, rfl⟩ | hnone | hnone
      · exact hheader header whole (List.mem_cons_self ..)
      · simp [hnone] at hchain
      · simp [hnone] at hask

/-- The lines that make the empty draft a node: the markers of each kind are in order up to the
closing marker. -/
theorem exists_finish_iff (name context : String) :
    (∃ n, (Draft.blank name context).finish name ls = .ok n) ↔
      .endNode ∈ ls ∧ InOrder (body ls) := by
  have hlaid : (Draft.blank name context).Laid := laid_init name context
  have hbody := exists_close_of_foldlM_iff hlaid (body ls)
  constructor
  · rintro ⟨n, hn⟩
    obtain ⟨hend, d', hfold, hclose⟩ := finish_eq_ok_iff.mp hn
    obtain ⟨hheader, hchain, hask⟩ := hbody.mp ⟨d', n, hfold, hclose⟩
    exact ⟨hend, hheader, foldlM_chainStep_iff.mp hchain, foldlM_askStep_iff.mp hask⟩
  · rintro ⟨hend, hheader, hchains, hquestions⟩
    obtain ⟨d', n, hfold, hclose⟩ := hbody.mpr
      ⟨hheader, foldlM_chainStep_iff.mpr hchains, foldlM_askStep_iff.mpr hquestions⟩
    exact ⟨n, finish_eq_ok_iff.mpr ⟨hend, d', hfold, hclose⟩⟩

end Draft

section Compiling

variable (source name context : String) (vs : Variables)

/-- A text is compiled to a node if it has a section for the node in which the markers of each
kind, taken alone, are in order up to the closing marker; whether the two kinds are nested in each
other makes no difference. A text with a section in which they are not is refused, and a text
without a section has no node. -/
theorem compile_iff_inOrder :
    ((∃ n, (compile source name context vs).1 = .ok (some n)) ↔
      ∃ ls, sectionOf? source name = some ls ∧ .endNode ∈ ls ∧ InOrder (body ls)) ∧
    ((∃ f, (compile source name context vs).1 = .error f) ↔
      ∃ ls, sectionOf? source name = some ls ∧ ¬(.endNode ∈ ls ∧ InOrder (body ls))) ∧
    ((compile source name context vs).1 = .ok none ↔ sectionOf? source name = none) := by
  have hsome : (∃ n, (compile source name context vs).1 = .ok (some n)) ↔
      ∃ ls, sectionOf? source name = some ls ∧ .endNode ∈ ls ∧ InOrder (body ls) := by
    simp only [compile_eq_ok_some_iff, ← Draft.exists_finish_iff name context]
    exact ⟨fun ⟨n, ls, hls, hn⟩ => ⟨ls, hls, n, hn⟩, fun ⟨ls, hls, n, hn⟩ => ⟨n, ls, hls, hn⟩⟩
  have hnone : (compile source name context vs).1 = .ok none ↔ sectionOf? source name = none :=
    compile_eq_ok_none_iff
  refine ⟨hsome, ?_, hnone⟩
  constructor
  · rintro ⟨f, hf⟩
    -- a text that is refused has a section, since there would be no node otherwise
    obtain ⟨ls, hls⟩ : ∃ ls, sectionOf? source name = some ls := by
      refine Option.ne_none_iff_exists'.mp fun heq => ?_
      rw [hnone.mpr heq] at hf
      cases hf
    refine ⟨ls, hls, fun horder => ?_⟩
    obtain ⟨n, hn⟩ := hsome.mpr ⟨ls, hls, horder⟩
    rw [hn] at hf
    cases hf
  · rintro ⟨ls, hls, horder⟩
    cases houtcome : (compile source name context vs).1 with
    | error f => exact ⟨f, rfl⟩
    | ok n? =>
      cases n? with
      | none => exact absurd (hls.symm.trans (hnone.mp houtcome)) (by simp)
      | some n =>
        obtain ⟨ls', hls', horder'⟩ := hsome.mp ⟨n, houtcome⟩
        obtain rfl : ls = ls' := Option.some.inj (hls.symm.trans hls')
        exact absurd horder' horder

end Compiling

/-- A conditional that is opened in an option is closed behind the decision. -/
private def tangle : String := "\n".intercalate ["#Node:main", "#StartDecision", "-A", "if (true)",
  "In.", "#EndDecision", "endif", "After.", "#EndNode"]

/-- It is not so that only scripts whose blocks are nested in each other are compiled. -/
theorem not_compile_isWellNested : ¬∀ source name context vs n,
    (compile source name context vs).1 = .ok (some n) → isWellNested source name := by
  intro hall
  have hnested := hall tangle "main" "" .empty
    ⟨"main", "", 0, ["In.", "After."], [⟨0, 0, 1, [⟨"A", 0, 1⟩]⟩],
      [⟨0, ⟨"true", 0, 1⟩, [], none, 0, 1⟩]⟩ (by decide +kernel)
  revert hnested
  decide +kernel

end VisualNovel.Script
