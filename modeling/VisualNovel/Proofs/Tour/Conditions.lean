import VisualNovel.Proofs.Layout.Nesting
import VisualNovel.Proofs.Tour.Chain

/-!
# Lines of conditionals

A line of a conditional is played, and a decision in it is asked, only in the branch that has been
taken. This can go wrong in one way: the end of a decision leads to a line at which a conditional
has not been looked at, or to the next branch of one, and another decision starts there. Then the
reader is asked although conditionals had not led into the branch of that decision.

## Main definitions

* `Node.Shelters`: the conditionals around some lines are open, in the branches with these lines;
* `Node.Sheltered`: what is played or asked is sheltered;
* `Node.Foresees`: the branches around a decision start at a line or before it;
* `Node.Housed`: what is kept about the conditionals around a cursor.

## Main results

* `Tour.sheltered_iff_foreseen`: everything is sheltered exactly if the conditionals had come to the
  branches around each decision when it was asked.
-/

namespace VisualNovel

namespace Node

/-- Every conditional around the lines is open, and the branch taken in it has these lines. -/
def Shelters (n : Node) (c : Cursor) (start stop : Int) : Prop :=
  ∀ x ∈ n.conditionals, x.start ≤ start → stop ≤ x.stop →
    ∃ way b, (x.index, way) ∈ c.conditionals.zip c.branches ∧ at? x.branches way = some b ∧
      b.start ≤ start ∧ stop ≤ b.stop

/-- What is played is sheltered, and so is a decision that is asked and has lines. -/
def Sheltered (n : Node) : Deed → Prop
  | .played c => n.Shelters c c.line (c.line + 1)
  | .asked _ c d => d.start < d.stop → n.Shelters c d.start d.stop
  | _ => True

/-- In every conditional around a decision, the decision lies in a branch that starts at the line
or before it. -/
def Foresees (n : Node) (line : Int) (d : Decision) : Prop :=
  ∀ x ∈ n.conditionals, x.start ≤ d.start → d.stop ≤ x.stop →
    ∃ b ∈ x.branches, b.start ≤ line ∧ b.start ≤ d.start ∧ d.stop ≤ b.stop

/-- How the conditionals of a node stand around a cursor. -/
structure Housed (n : Node) (c : Cursor) : Prop extends n.Chained c where
  /-- A conditional around the cursor that starts before it is open. -/
  inside : ∀ x ∈ n.conditionals, x.start < c.line → c.line < x.stop → x.index ∈ c.conditionals
  /-- A decision that is open at its start has the conditionals open that start there as well. -/
  around : ∀ d ∈ n.decisions, d.index ∈ c.decisions → d.start = c.line → d.start < d.stop →
    ∀ x ∈ n.conditionals, x.start = c.line → d.stop ≤ x.stop → x.index ∈ c.conditionals

namespace Housed

variable {n : Node} {depth : Nat} {seen : List Visit} {c : Cursor}

/-- At the start of a node there is nothing around the cursor. -/
theorem init (hn : n.Laid) : n.Housed {} where
  toChained := .init n
  inside x hx hlt _ := by
    have hle := (hn.conditional_within x hx).1
    have hlt : x.start < 0 := hlt
    omega
  around _ _ hopen := by cases hopen

/-- Fewer open decisions do no harm. -/
theorem congr (h : n.Housed c) {c' : Cursor} (hline : c'.line = c.line)
    (hconditionals : c'.conditionals = c.conditionals) (hbranches : c'.branches = c.branches)
    (hdecisions : c'.decisions ⊆ c.decisions) : n.Housed c' := by
  refine ⟨h.toChained.congr hline hconditionals hbranches, ?_, ?_⟩
  · rw [hline, hconditionals]
    exact h.inside
  · rw [hline, hconditionals]
    exact fun d hd hopen => h.around d hd (hdecisions hopen)

/-- The cursor is moved on past conditionals that are open if they go on. -/
theorem moveTo (h : n.Housed c) {line : Int} (hle : c.line ≤ line)
    (hconditionals : ∀ x ∈ n.conditionals, x.index ∈ c.conditionals → x.start ≤ c.line)
    (hdecisions : ∀ d ∈ n.decisions, d.index ∈ c.decisions → d.start ≤ c.line)
    (hinside : ∀ x ∈ n.conditionals, c.line ≤ x.start → x.start < line → line < x.stop →
      x.index ∈ c.conditionals) : n.Housed (c.moveTo line) := by
  rcases eq_or_lt_of_le hle with rfl | hlt
  · exact h
  refine ⟨h.toChained.moveTo hle hconditionals, ?_, ?_⟩
  · intro x hx hstart hstop
    by_cases hbefore : x.start < c.line
    · exact h.inside x hx hbefore (lt_trans hlt hstop)
    · exact hinside x hx (not_lt.mp hbefore) hstart hstop
  · intro d hd hopen hstart
    have := hdecisions d hd hopen
    have hstart : d.start = line := hstart
    omega

/-- The innermost conditional is left where it has ended. -/
theorem dropLast (hn : n.Laid) (h : n.Housed c) {is ws : List Int} {i w : Int} {x : Conditional}
    (hi : c.conditionals = is ++ [i]) (hw : c.branches = ws ++ [w])
    (hlength : is.length = ws.length) (hx : at? n.conditionals i = some x)
    (hstop : x.stop ≤ c.line) :
    n.Housed { c with conditionals := is, branches := ws } := by
  refine ⟨h.toChained.dropLast hn hi hw hlength hx hstop, ?_, ?_⟩
  · intro y hy hstart hgoes
    exact Chained.mem_of_dropped hn hi hx hstop hy hgoes (h.inside y hy hstart hgoes)
  · intro d hd hopen hstart hlines y hy hy' hle
    refine Chained.mem_of_dropped hn hi hx hstop hy ?_
      (h.around d hd hopen hstart hlines y hy hy' hle)
    have hstart : d.start = c.line := hstart
    omega

variable (hn : n.Laid) (hp : n.Poised depth seen c) (h : n.Housed c)

include hn hp h

/-- A branch is left that has ended. -/
theorem leaveBranch {is ws : List Int} {i w : Int} {x : Conditional} {b : Branch}
    (hi : c.conditionals = is ++ [i]) (hw : c.branches = ws ++ [w]) (htakes : n.Takes i w x b)
    (hstop : b.stop ≤ c.line) : n.Housed (c.leaveBranch x.stop) := by
  have hx : x ∈ n.conditionals := mem_of_at? htakes.1
  have hopen : x.index ∈ c.conditionals := by
    rw [hn.index_of_at?_conditional htakes.1, hi]
    simp
  have hstart := hp.start_le_of_conditional hn hx hopen
  have hwithin := (hn.conditional_laid x hx).branch_within (mem_of_at? htakes.2)
  have hmoved : n.Housed (c.moveTo (max c.line x.stop)) := by
    refine h.moveTo (le_max_left _ _) (fun y hy => hp.start_le_of_conditional hn hy)
      (fun d hd => hp.start_le_of_decision hn hd) fun y hy hle hlt hgoes => ?_
    -- a conditional that goes on behind `x` and starts in it contains it
    rcases le_total x.stop c.line with hend | hend
    · rw [max_eq_left hend] at hlt
      omega
    rw [max_eq_right hend] at hlt hgoes
    rcases lt_trichotomy y.index x.index with hindex | hindex | hindex
    · rcases hn.behind_or_within hy hx hindex with hbehind | ⟨hinside, -⟩
      · omega
      · rcases h.first y hy x hx hindex (by omega) (by omega) hopen with hopen' | hend'
        · exact hopen'
        · omega
    · obtain rfl := hn.conditional_ext hy hx hindex
      exact hopen
    · have hplace := hn.behind_or_within hx hy hindex
      omega
  have hlength := hp.length_below hi hw
  have hdropped := hmoved.dropLast hn hi hw hlength htakes.1 (le_max_right _ _)
  simpa [Cursor.leaveBranch, Cursor.moveTo, hi, hw] using hdropped

/-- A branch of a conditional that is found at the cursor is entered. -/
theorem enterBranch (hunfinished : n.BranchUnfinished c) {x : Conditional} {way : Int} {b : Branch}
    (hat : n.conditionalAt? depth seen c = some x) (hb : at? x.branches way = some b) :
    n.Housed (c.enterBranch x.index way b.start) := by
  obtain ⟨hx, hstart, -⟩ := conditionalAt?_some hat
  have hwithin := (hn.conditional_laid x hx).branch_within (mem_of_at? hb)
  refine ⟨h.toChained.enterBranch hn hp hunfinished hat hb, ?_, ?_⟩
  · intro y hy hlt hgoes
    have hlt : y.start < b.start := hlt
    have hgoes : b.start < y.stop := hgoes
    -- a conditional from before the line was open already, any other one is held against `x`
    rcases lt_or_ge y.start c.line with hbefore | hle
    · exact List.mem_append_left _ (h.inside y hy hbefore (by omega))
    rcases lt_trichotomy y.index x.index with hindex | hindex | hindex
    · rcases hn.behind_or_within hy hx hindex with hbehind | ⟨hinside, -⟩
      · omega
      · rcases conditionalAt?_first hn hat hy hindex (by omega) with hopen | hseen'
        · exact List.mem_append_left _ hopen
        · rcases (hp.seen_conditionals y hy hseen').2 with hopen | hend
          · exact List.mem_append_left _ hopen
          · omega
    · exact List.mem_append_right _ (by simp [hindex])
    · rcases hn.clears hx hy hindex with hbefore | ⟨b', hb', hb'start, hb'stop⟩
      · omega
      · -- `y` lies in a branch before the one that is entered
        rcases (hn.conditional_laid x hx).tiles.apart hb' (mem_of_at? hb) with
          hbefore | rfl | hbehind <;> omega
  · intro d hd hopen hdstart hlines y hy hystart hle
    have hdstart : d.start = b.start := hdstart
    have hystart : y.start = b.start := hystart
    -- the branch starts where the decision does, so the conditional starts there as well
    have hdle := hp.start_le_of_decision hn hd hopen
    exact List.mem_append_left _
      (h.around d hd hopen (by omega) hlines y hy (by omega) hle)

/-- A conditional that is found at the cursor is passed over. -/
theorem skip {x : Conditional} (hat : n.conditionalAt? depth seen c = some x) :
    n.Housed (c.moveTo x.stop) := by
  obtain ⟨hx, hstart, hclosed, hseen⟩ := conditionalAt?_some hat
  have hle := (hn.conditional_laid x hx).start_le_stop
  refine h.moveTo (by omega) (fun y hy => hp.start_le_of_conditional hn hy)
    (fun d hd => hp.start_le_of_decision hn hd) fun y hy hle' hlt hgoes => ?_
  -- an earlier conditional holds the one that is passed over, a later one lies in it
  rcases lt_trichotomy y.index x.index with hindex | hindex | hindex
  · rcases hn.behind_or_within hy hx hindex with hbehind | ⟨hinside, -⟩
    · omega
    · rcases conditionalAt?_first hn hat hy hindex (by omega) with hopen | hseen'
      · exact hopen
      · rcases (hp.seen_conditionals y hy hseen').2 with hopen | hend
        · exact hopen
        · omega
  · obtain rfl := hn.conditional_ext hy hx hindex
    omega
  · have hplace := hn.behind_or_within hx hy hindex
    omega

/-- The pass over the conditionals keeps the cursor housed. -/
theorem passConditionals (vs : Variables) :
    n.Housed (n.passConditionals vs depth seen c).cursor :=
  (passConditionals_induction hn vs (P := fun _ c => n.Housed c)
    { leave := fun _ _ _ _ _ _ _ _ hp h hi hw htakes hstop =>
        h.leaveBranch hn hp hi hw htakes hstop
      enter := fun _ _ _ _ _ hp h hunfinished hat hselect =>
        h.enterBranch hn hp hunfinished hat (Conditional.select_some hselect)
      skip := fun _ _ _ hp h _ hat _ => h.skip hn hp hat } hp h).2.2.1

/-- An option is left that has ended. -/
theorem leaveOption (hnested : n.Nested) {is : List Int} {i w : Int} {d : Decision} {o : Choice}
    (hi : c.decisions = is ++ [i]) (hpicks : n.Picks i w d o) :
    n.Housed (c.leaveOption d.stop) := by
  have hd : d ∈ n.decisions := mem_of_at? hpicks.1
  have hopen : d.index ∈ c.decisions := by
    rw [hn.index_of_at?_decision hpicks.1, hi]
    simp
  have hstart := hp.start_le_of_decision hn hd hopen
  have hmoved : n.Housed (c.moveTo (max c.line d.stop)) := by
    refine h.moveTo (le_max_left _ _) (fun y hy => hp.start_le_of_conditional hn hy)
      (fun e he => hp.start_le_of_decision hn he) fun y hy hle hlt hgoes => ?_
    rcases le_total d.stop c.line with hend | hend
    · rw [max_eq_left hend] at hlt
      omega
    rw [max_eq_right hend] at hlt hgoes
    -- a conditional that starts in `d` and goes on behind it starts where `d` does
    rcases hnested y hy d hd with hbefore | hbehind | ⟨b, hb, hbstart, hbstop⟩ | ⟨-, hin, -⟩
    · omega
    · omega
    · have hwithin := (hn.conditional_laid y hy).branch_within hb
      exact h.around d hd hopen (by omega) (by omega) y hy (by omega) (by omega)
    · omega
  exact hmoved.congr rfl rfl rfl (List.dropLast_subset _)

/-- Leaving options keeps the cursor housed. -/
theorem leaveOptions (hnested : n.Nested) : n.Housed (n.leaveOptions c).1 :=
  (leaveOptions_induction (P := fun c => n.Poised depth seen c ∧ n.Housed c) hp.options_open ⟨hp, h⟩
    fun _ _ _ _ _ _ _ ⟨hp, h⟩ hi hw hpicks _ =>
      ⟨hp.leaveOption hn hi hw hpicks, h.leaveOption hn hp hnested hi hpicks⟩).2.1.2

/-- Where the conditionals have nothing more to do, each one around the cursor is open, in the
branch with the line of the cursor. -/
theorem covered (hsettled : n.Settled c) {x : Conditional} (hx : x ∈ n.conditionals)
    (hstart : x.start ≤ c.line) (hstop : c.line < x.stop) :
    ∃ way b, (x.index, way) ∈ c.conditionals.zip c.branches ∧ at? x.branches way = some b ∧
      b.start ≤ c.line ∧ c.line < b.stop := by
  -- it is open: either it starts at the line, or the cursor is inside it
  have hopen : x.index ∈ c.conditionals := by
    rcases eq_or_lt_of_le hstart with heq | hlt
    · exact (hsettled.at_line x hx heq).resolve_right (not_le.mpr hstop)
    · exact h.inside x hx hlt hstop
  obtain ⟨way, x', b, hmem, ⟨hx', hb⟩, hbstart⟩ := hp.exists_taken hopen
  obtain rfl := Option.some.inj (hx'.symm.trans (hn.at?_conditional hx))
  exact ⟨way, b, hmem, hb, hbstart, h.lt_stop hn hp hsettled.unfinished hmem ⟨hx', hb⟩⟩

/-- The cursor goes to the next line where the conditionals have nothing more to do. -/
theorem next (hsettled : n.Settled c) : n.Housed (c.moveTo (c.line + 1)) := by
  refine h.moveTo (by omega) (fun y hy => hp.start_le_of_conditional hn hy)
    (fun d hd => hp.start_le_of_decision hn hd) fun x hx hle hlt hgoes => ?_
  exact (hsettled.at_line x hx (by omega)).resolve_right (by omega)

omit h in
/-- An option of the decision at the cursor is chosen. -/
theorem choose (hnested : n.Nested) {d : Decision} (hd : d ∈ n.decisions)
    (hstart : d.start = c.line) (hopened : n.Housed (c.opening d.index)) {way : Int} {o : Choice}
    (ho : at? d.options way = some o) : n.Housed ((c.opening d.index).choosing way o.start) := by
  have hwithin := (hn.decision_laid d hd).option_within (mem_of_at? ho)
  refine (hopened.moveTo (show c.line ≤ o.start by omega)
    (fun y hy => hp.start_le_of_conditional hn hy) ?_ ?_).congr rfl rfl rfl (fun _ hi => hi)
  · intro e he hopen
    rcases List.mem_append.mp hopen with hopen | hopen
    · exact hp.start_le_of_decision hn he hopen
    · obtain rfl := hn.decision_ext he hd (List.mem_singleton.mp hopen)
      exact le_of_eq hstart
  · intro y hy hle hlt hgoes
    have hle : c.line ≤ y.start := hle
    -- a conditional that starts in the decision before the option and goes on there is around it
    rcases hnested y hy d hd with hbefore | hbehind | ⟨b, hb, hbstart, hbstop⟩ | ⟨-, -, hoptions⟩
    · omega
    · omega
    · have hwithin' := (hn.conditional_laid y hy).branch_within hb
      exact hopened.around d hd (by simp [Cursor.opening]) hstart (by omega) y hy
        (show y.start = c.line by omega) (by omega)
    · rcases hoptions o (mem_of_at? ho) with hend | hbegin <;> omega

end Housed

namespace Turned

variable {n : Node} {depth : Nat} {seen : List Visit} {c c' : Cursor} {m : Motion}

/-- A decision is opened where both passes have been made. -/
theorem housed_opening (hn : n.Laid) (h : n.Turned depth seen c m c') (hhoused : n.Housed c')
    {d : Decision} (hd : n.decisionAt? depth m.seen c' = some d)
    (hforeseen : d.start < d.stop → n.Foresees m.cursor.line d) :
    n.Housed (c'.opening d.index) := by
  obtain ⟨hmem, hstart, -⟩ := decisionAt?_some hd
  refine { hhoused with around := ?_ }
  intro e he hopen hestart hlines x hx hxstart hle
  rcases List.mem_append.mp hopen with hopen | hopen
  · exact hhoused.around e he hopen hestart hlines x hx hxstart hle
  · -- the decision is the opened one, and a conditional around it has been foreseen
    obtain rfl := hn.decision_ext he hmem (List.mem_singleton.mp hopen)
    have hxstart : x.start = c'.line := hxstart
    obtain ⟨b, hb, hbline, -⟩ := hforeseen hlines x hx (by omega) hle
    have hwithin := (hn.conditional_laid x hx).branch_within hb
    have hline := h.left.line_le
    show x.index ∈ c'.conditionals
    rw [h.left.conditionals]
    exact (h.settled.at_line x hx (by omega)).resolve_right (by omega)

/-- A decision that has been foreseen is sheltered when it is opened. -/
theorem shelters_opening (hn : n.Laid) (h : n.Turned depth seen c m c')
    (hhoused : n.Housed m.cursor) {d : Decision} (hd : n.decisionAt? depth m.seen c' = some d)
    (hlines : d.start < d.stop) (hforeseen : n.Foresees m.cursor.line d) :
    n.Shelters (c'.opening d.index) d.start d.stop := by
  obtain ⟨-, hstart, -⟩ := decisionAt?_some hd
  intro x hx hxstart hxstop
  obtain ⟨b, hb, hbline, hbstart, hbstop⟩ := hforeseen x hx hxstart hxstop
  have hwithin := (hn.conditional_laid x hx).branch_within hb
  have hline := h.left.line_le
  -- the conditional is open in the branch that has the line, as the cursor is housed
  obtain ⟨way, b', hmem, hb', hb'start, hb'stop⟩ :=
    hhoused.covered hn h.poised_between h.settled hx (by omega) (by omega)
  refine ⟨way, b', ?_, hb', ?_⟩
  · show (x.index, way) ∈ c'.conditionals.zip c'.branches
    rw [h.left.conditionals, h.left.branches]
    exact hmem
  · -- two branches with one line are the same
    rcases (hn.conditional_laid x hx).tiles.apart hb (mem_of_at? hb') with hlt | rfl | hgt
    · omega
    · exact ⟨hbstart, hbstop⟩
    · omega

/-- A line that is played is sheltered. -/
theorem shelters_line (hn : n.Laid) (h : n.Turned depth seen c m c') (hhoused : n.Housed m.cursor)
    (hline : c'.line = c.line) : n.Shelters c' c'.line (c'.line + 1) := by
  have hle := h.passed.line_le
  have hle' := h.left.line_le
  intro x hx hxstart hxstop
  obtain ⟨way, b, hmem, hb, hbstart, hbstop⟩ :=
    hhoused.covered hn h.poised_between h.settled hx (by omega) (by omega)
  refine ⟨way, b, ?_, hb, by omega, by omega⟩
  rw [h.left.conditionals, h.left.branches]
  exact hmem

/-- A decision that is sheltered has been foreseen. -/
theorem foresees (hn : n.Laid) (h : n.Turned depth seen c m c') {d : Decision}
    (hshelters : n.Shelters (c'.opening d.index) d.start d.stop) : n.Foresees m.cursor.line d := by
  intro x hx hxstart hxstop
  obtain ⟨way, b, hmem, hb, hbstart, hbstop⟩ := hshelters x hx hxstart hxstop
  have hmem : (x.index, way) ∈ c'.conditionals.zip c'.branches := hmem
  rw [h.left.conditionals, h.left.branches] at hmem
  obtain ⟨x', b', ⟨hx', hb'⟩, hline⟩ := List.forall₂_zip h.poised_between.branches_open hmem
  obtain rfl := Option.some.inj (hx'.symm.trans (hn.at?_conditional hx))
  obtain rfl := Option.some.inj (hb.symm.trans hb')
  exact ⟨b, mem_of_at? hb, hline, hbstart, hbstop⟩

end Turned

end Node

namespace Tour

variable {n : Node} {depth : Nat} {seen : List Visit} {c : Cursor} {st : Stance}
  {deeds : List Deed}

/-- The decisions with lines have been foreseen when they were asked. -/
def Foreseen (n : Node) (deeds : List Deed) : Prop :=
  ∀ line c d, .asked line c d ∈ deeds → d.start < d.stop → n.Foresees line d

/-- Fewer deeds have been foreseen as well. -/
theorem Foreseen.of_append {deeds' : List Deed} (h : Foreseen n (deeds ++ deeds')) :
    Foreseen n deeds :=
  fun line c d hmem => h line c d (List.mem_append_left _ hmem)

/-- A round keeps the cursor housed. -/
theorem housed_round (hn : n.Laid) (hnested : n.Nested) (h : Tour n depth seen c st deeds)
    (hst : st.GoesOn) {c' : Cursor} {m : Motion} (hround : n.Round depth seen c m c')
    (hhoused : n.Housed (st.cursor c)) : n.Housed m.cursor ∧ n.Housed c' := by
  have hpoised := h.poised hn
  have hturned := hround.turned hn hpoised
  rw [hst.cursor_eq] at hhoused
  obtain ⟨-, vs, rfl, rfl⟩ := hround
  have hpassed := hhoused.passConditionals hn hpoised vs
  exact ⟨hpassed, hpassed.leaveOptions hn hturned.poised_between hnested⟩

/-- If decisions have been foreseen, the cursor is housed throughout a tour. -/
theorem housed (hn : n.Laid) (hnested : n.Nested) (h : Tour n depth seen c st deeds)
    (hforeseen : Foreseen n deeds) : n.Housed (st.cursor c) := by
  -- on the tour: that a decision had been foreseen is needed where it is opened
  induction h with
  | enter _ => exact .init hn
  | forget _ _ ih => exact ih hforeseen
  | @ask seen c c' st deeds m d h hst hround' hd ih =>
    obtain ⟨-, hhoused⟩ := h.housed_round hn hnested hst hround' (ih hforeseen.of_append)
    exact (hround'.turned hn (h.poised hn)).housed_opening hn hhoused hd
      (hforeseen m.cursor.line (c'.opening d.index) d (by simp))
  | move h hst hround' _ _ ih | present h hst hround' _ _ ih =>
    exact (h.housed_round hn hnested hst hround' (ih hforeseen.of_append)).2
  | command h hst hround' _ hline ih | skip h hst hround' _ hline ih =>
    obtain ⟨-, hhoused⟩ := h.housed_round hn hnested hst hround' (ih hforeseen.of_append)
    have hturned := hround'.turned hn (h.poised hn)
    exact hhoused.next hn hturned.poised (hturned.settled_of_stays (le_of_eq hline))
  | @advance seen c deeds h ih =>
    exact Node.Housed.next hn (h.poised hn) (ih hforeseen) (h.settled_of_showing hn)
  | @choose seen c deeds d way o h ho ih =>
    obtain ⟨hpoised, hd, -⟩ := h.poised_stands hn
    obtain ⟨hmem, hstart, -⟩ := Node.decisionAt?_some hd
    exact Node.Housed.choose hn hpoised hnested hmem hstart (ih hforeseen.of_append) ho

/-- Only decisions that are asked have to be foreseen. -/
theorem foreseen_append {deeds' : List Deed} :
    Foreseen n (deeds ++ deeds') ↔ Foreseen n deeds ∧ Foreseen n deeds' := by
  simp only [Foreseen, List.mem_append, or_imp, forall_and]

/-- What conditionals do is sheltered. -/
private theorem sheltered_leads {line : Int} : ∀ x ∈ c.leads line, n.Sheltered x := by
  intro x hx
  obtain ⟨-, rfl⟩ := Cursor.mem_leads.mp hx
  trivial

/-- What conditionals do has to be foreseen by nobody. -/
private theorem foreseen_leads {line : Int} : Foreseen n (c.leads line) := by
  intro line' c' d hmem
  cases (Cursor.mem_leads.mp hmem).2

/-- A decision that has been sheltered when it was asked had been foreseen. -/
theorem foreseen_of_sheltered (hn : n.Laid) (h : Tour n depth seen c st deeds)
    (hsheltered : ∀ x ∈ deeds, n.Sheltered x) : Foreseen n deeds := by
  -- on the tour: only a round that asks has to be looked at
  induction h with
  | enter _ => simp [Foreseen]
  | forget _ _ ih => exact ih hsheltered
  | @ask seen c c' st deeds m d h hst hround hd ih =>
    have hturned := hround.turned hn (h.poised hn)
    obtain ⟨hbefore, hlast⟩ := List.forall_mem_append.mp hsheltered
    refine foreseen_append.mpr ⟨ih hbefore, foreseen_append.mpr ⟨foreseen_leads, ?_⟩⟩
    intro line c'' e hmem hlines
    obtain ⟨rfl, rfl, rfl⟩ := Deed.asked.inj (List.mem_singleton.mp hmem)
    exact hturned.foresees hn
      (hlast (.asked m.cursor.line (c'.opening e.index) e) (by simp) hlines)
  | move _ _ _ _ _ ih | skip _ _ _ _ _ ih =>
    exact foreseen_append.mpr ⟨ih (List.forall_mem_append.mp hsheltered).1, foreseen_leads⟩
  | command _ _ _ _ _ ih | present _ _ _ _ _ ih =>
    exact foreseen_append.mpr ⟨ih (List.forall_mem_append.mp hsheltered).1,
      foreseen_append.mpr ⟨foreseen_leads, by simp [Foreseen]⟩⟩
  | advance _ ih => exact ih hsheltered
  | choose _ _ ih =>
    exact foreseen_append.mpr ⟨ih (List.forall_mem_append.mp hsheltered).1, by simp [Foreseen]⟩

/-- If the decisions had been foreseen when they were asked, everything is sheltered. -/
theorem sheltered_of_foreseen (hn : n.Laid) (hnested : n.Nested)
    (h : Tour n depth seen c st deeds) (hforeseen : Foreseen n deeds) :
    ∀ x ∈ deeds, n.Sheltered x := by
  -- the line that is played at the end of a round is sheltered
  have hplayed {seen : List Visit} {c c' : Cursor} {st : Stance} {deeds : List Deed} {m : Motion}
      (h : Tour n depth seen c st deeds) (hst : st.GoesOn) (hround : n.Round depth seen c m c')
      (hline : c'.line = c.line) (hforeseen : Foreseen n deeds) :
      ∀ x ∈ c.leads m.cursor.line ++ [.played c'], n.Sheltered x := by
    obtain ⟨hhoused, -⟩ := h.housed_round hn hnested hst hround (h.housed hn hnested hforeseen)
    refine List.forall_mem_append.mpr ⟨sheltered_leads, List.forall_mem_singleton.mpr ?_⟩
    exact (hround.turned hn (h.poised hn)).shelters_line hn hhoused hline
  induction h with
  | enter _ => simp
  | forget _ _ ih => exact ih hforeseen
  | @ask seen c c' st deeds m d h hst hround hd ih =>
    obtain ⟨hbefore, hlast⟩ := foreseen_append.mp hforeseen
    obtain ⟨hhoused, -⟩ := h.housed_round hn hnested hst hround (h.housed hn hnested hbefore)
    refine List.forall_mem_append.mpr ⟨ih hbefore, List.forall_mem_append.mpr
      ⟨sheltered_leads, List.forall_mem_singleton.mpr fun hlines => ?_⟩⟩
    exact (hround.turned hn (h.poised hn)).shelters_opening hn hhoused hd hlines
      (hlast m.cursor.line (c'.opening d.index) d (by simp) hlines)
  | move _ _ _ _ _ ih | skip _ _ _ _ _ ih =>
    exact List.forall_mem_append.mpr ⟨ih hforeseen.of_append, sheltered_leads⟩
  | command h hst hround _ hline ih | present h hst hround _ hline ih =>
    exact List.forall_mem_append.mpr
      ⟨ih hforeseen.of_append, hplayed h hst hround hline hforeseen.of_append⟩
  | advance _ ih => exact ih hforeseen
  | choose _ _ ih =>
    exact List.forall_mem_append.mpr
      ⟨ih hforeseen.of_append, List.forall_mem_singleton.mpr trivial⟩

/-- Everything that is played or asked is sheltered exactly if the decisions with lines had been
foreseen when they were asked. -/
theorem sheltered_iff_foreseen (hn : n.Laid) (hnested : n.Nested)
    (h : Tour n depth seen c st deeds) : (∀ x ∈ deeds, n.Sheltered x) ↔ Foreseen n deeds :=
  ⟨h.foreseen_of_sheltered hn, h.sheltered_of_foreseen hn hnested⟩

end Tour

end VisualNovel
