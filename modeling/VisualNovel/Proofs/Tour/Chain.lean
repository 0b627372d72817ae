import VisualNovel.Proofs.Tour.Basic

/-!
# Chains of open conditionals

Conditionals that start at one line are entered from the outermost to the innermost, and branches
are left from the innermost on. The conditionals that are open therefore lie inside each other as
far as they go on, whatever decisions do to the cursor. Once conditionals have nothing more to do
at a line, the line is in each of the open branches.

## Main definitions

* `Node.Chained`: the conditionals that are open lie inside each other;
* `Node.BranchAround`, `Node.OptionAround`: a line is in a branch or in an option.

## Main results

* `Node.Chained.passConditionals`: the pass over the conditionals keeps them in each other;
* `Tour.chained`: so do tours;
* `Tour.branches_around`, `Tour.options_around`: a line on screen is in every open branch and in
  every open option.
-/

namespace VisualNovel

open List (Forall₂)

namespace Node

/-- The conditionals that are open at a cursor lie inside each other. -/
structure Chained (n : Node) (c : Cursor) : Prop where
  /-- An inner conditional ends within the branches of the outer ones, if it goes on. -/
  nested : (c.conditionals.zip c.branches).Pairwise fun p q => ∀ x b y, n.Takes p.1 p.2 x b →
    at? n.conditionals q.1 = some y → y.stop ≤ c.line ∨ y.stop ≤ b.stop
  /-- Of the conditionals that start at the cursor, an earlier one is opened first. -/
  first : ∀ x ∈ n.conditionals, ∀ y ∈ n.conditionals, x.index < y.index → x.start = c.line →
    y.start = c.line → y.index ∈ c.conditionals → x.index ∈ c.conditionals ∨ x.stop ≤ c.line

namespace Chained

variable {n : Node} {depth : Nat} {seen : List Visit} {c : Cursor}

/-- At the start of a node no conditional is open. -/
theorem init (n : Node) : n.Chained {} where
  nested := .nil
  first _ _ _ _ _ _ _ hopen := by cases hopen

/-- Decisions do not matter for this. -/
theorem congr (h : n.Chained c) {c' : Cursor} (hline : c'.line = c.line)
    (hconditionals : c'.conditionals = c.conditionals) (hbranches : c'.branches = c.branches) :
    n.Chained c' := by
  constructor
  · rw [hline, hconditionals, hbranches]
    exact h.nested
  · rw [hline, hconditionals]
    exact h.first

/-- The cursor is moved on. -/
theorem moveTo (h : n.Chained c) {line : Int} (hle : c.line ≤ line)
    (hconditionals : ∀ x ∈ n.conditionals, x.index ∈ c.conditionals → x.start ≤ c.line) :
    n.Chained (c.moveTo line) := by
  rcases eq_or_lt_of_le hle with rfl | hlt
  · exact h
  constructor
  · exact h.nested.imp fun hpq x b y htakes hy =>
      (hpq x b y htakes hy).imp_left fun hstop => le_trans hstop hle
  · intro x hx y hy _ _ hstart hopen
    -- nothing is open that starts at the new line
    have := hconditionals y hy hopen
    have hstart : y.start = line := hstart
    omega

/-- A conditional that goes on stays open when the innermost one is left that has ended. -/
theorem mem_of_dropped (hn : n.Laid) {is : List Int} {i : Int} {x y : Conditional}
    (hi : c.conditionals = is ++ [i]) (hx : at? n.conditionals i = some x)
    (hstop : x.stop ≤ c.line) (hy : y ∈ n.conditionals) (hgoes : c.line < y.stop)
    (hopen : y.index ∈ c.conditionals) : y.index ∈ is := by
  rw [hi, List.mem_append, List.mem_singleton] at hopen
  refine hopen.resolve_right fun heq => ?_
  have := hn.at?_conditional hy
  rw [heq, hx] at this
  obtain rfl := Option.some.inj this
  omega

/-- The innermost conditional is left where it has ended. -/
theorem dropLast (hn : n.Laid) (h : n.Chained c) {is ws : List Int} {i w : Int} {x : Conditional}
    (hi : c.conditionals = is ++ [i]) (hw : c.branches = ws ++ [w])
    (hlength : is.length = ws.length) (hx : at? n.conditionals i = some x)
    (hstop : x.stop ≤ c.line) : n.Chained { c with conditionals := is, branches := ws } := by
  have hnested := h.nested
  rw [hi, hw, List.zip_append hlength] at hnested
  constructor
  · exact (List.pairwise_append.mp hnested).1
  · intro y hy z hz hlt hy' hz' hopen
    rcases h.first y hy z hz hlt hy' hz' (by rw [hi]; exact List.mem_append_left _ hopen) with
      hopen' | hstop'
    · by_cases hgoes : c.line < y.stop
      · exact .inl (mem_of_dropped hn hi hx hstop hy hgoes hopen')
      · exact .inr (not_lt.mp hgoes)
    · exact .inr hstop'

variable (hn : n.Laid) (hp : n.Poised depth seen c) (h : n.Chained c)

include hn hp h

/-- A branch is left that has ended. -/
theorem leaveBranch {is ws : List Int} {i w : Int} {x : Conditional} {b : Branch}
    (hi : c.conditionals = is ++ [i]) (hw : c.branches = ws ++ [w]) (htakes : n.Takes i w x b) :
    n.Chained (c.leaveBranch x.stop) := by
  have hmoved : n.Chained (c.moveTo (max c.line x.stop)) :=
    h.moveTo (le_max_left _ _) fun y hy => hp.start_le_of_conditional hn hy
  have hlength := hp.length_below hi hw
  have hdropped := hmoved.dropLast hn hi hw hlength htakes.1 (le_max_right _ _)
  simpa [Cursor.leaveBranch, Cursor.moveTo, hi, hw] using hdropped

/-- Where the innermost branch goes on, every open branch does. -/
theorem lt_stop (hunfinished : n.BranchUnfinished c) {i way : Int} {x : Conditional} {b : Branch}
    (hmem : (i, way) ∈ c.conditionals.zip c.branches) (htakes : n.Takes i way x b) :
    c.line < b.stop := by
  -- only the innermost branch is known to go on; those around it end no sooner than it does
  obtain ⟨is, j, hi⟩ := exists_concat (List.ne_nil_of_mem (List.of_mem_zip hmem).1)
  obtain ⟨ws, w, y, b', hw, htakes', -⟩ := hp.exists_branch hi
  have hlt := hunfinished is j ws w y b' hi hw htakes'
  have hlength := hp.length_below hi hw
  have hnested := h.nested
  rw [hi, hw, List.zip_append hlength] at hnested hmem
  rcases List.mem_append.mp hmem with hmem | hmem
  · have hwithin := (hn.conditional_laid y (mem_of_at? htakes'.1)).branch_within
      (mem_of_at? htakes'.2)
    rcases (List.pairwise_append.mp hnested).2.2 _ hmem (j, w) (by simp) x b y htakes
      htakes'.1 with hend | hend <;> omega
  · obtain ⟨rfl, rfl⟩ : i = j ∧ way = w := by simpa using hmem
    obtain ⟨rfl, rfl⟩ := htakes.unique htakes'
    exact hlt

/-- Where the innermost branch goes on, a conditional that is found at the cursor ends within the
branches of those that are open, unless it has no lines. -/
theorem stop_le_of_found (hunfinished : n.BranchUnfinished c) {x : Conditional}
    (hat : n.conditionalAt? depth seen c = some x) :
    ∀ p ∈ c.conditionals.zip c.branches, ∀ y b, n.Takes p.1 p.2 y b →
      x.stop ≤ c.line ∨ x.stop ≤ b.stop := by
  obtain ⟨hx, hstart, hclosed, -⟩ := conditionalAt?_some hat
  rintro ⟨i, w⟩ hmem y b htakes
  have hlt := h.lt_stop hn hp hunfinished hmem htakes
  obtain ⟨y', b', htakes', hbstart⟩ := List.forall₂_zip hp.branches_open hmem
  obtain ⟨rfl, rfl⟩ := htakes.unique htakes'
  have hy : y ∈ n.conditionals := mem_of_at? htakes.1
  have hindex : y.index = i := hn.index_of_at?_conditional htakes.1
  have hopen : y.index ∈ c.conditionals := hindex ▸ (List.of_mem_zip hmem).1
  have hwithin := (hn.conditional_laid y hy).branch_within (mem_of_at? htakes.2)
  -- conditionals are numbered as they start, so an earlier one is around a later one or before it
  rcases lt_trichotomy y.index x.index with hlt' | heq | hgt
  · rcases hn.clears hy hx hlt' with hbefore | ⟨b', hb', hb'start, hb'stop⟩
    · omega
    · rcases (hn.conditional_laid y hy).tiles.apart hb' (mem_of_at? htakes.2) with
        hbefore | rfl | hbehind
      · omega
      · exact .inr hb'stop
      · omega
  · exact absurd (heq ▸ hopen) hclosed
  · rcases hn.behind_or_within hx hy hgt with hbehind | ⟨hinside, -⟩
    · omega
    · -- `x` should have been opened before `y`
      rcases h.first x hx y hy hgt hstart (by omega) hopen with hopen' | hend
      · exact absurd hopen' hclosed
      · exact .inl hend

/-- A branch of a conditional that is found at the cursor is entered. -/
theorem enterBranch (hunfinished : n.BranchUnfinished c) {x : Conditional} {way : Int} {b : Branch}
    (hat : n.conditionalAt? depth seen c = some x) (hb : at? x.branches way = some b) :
    n.Chained (c.enterBranch x.index way b.start) := by
  have hfound := h.stop_le_of_found hn hp hunfinished hat
  obtain ⟨hx, hstart, -⟩ := conditionalAt?_some hat
  have hwithin := (hn.conditional_laid x hx).branch_within (mem_of_at? hb)
  -- the conditional is opened where it starts, and only then does the cursor go to the branch
  have hopened : n.Chained (c.enterBranch x.index way c.line) := by
    constructor
    · show ((c.conditionals ++ [x.index]).zip (c.branches ++ [way])).Pairwise _
      rw [List.zip_append hp.branches_open.length_eq]
      refine List.pairwise_append.mpr ⟨h.nested, List.pairwise_singleton _ _, ?_⟩
      intro p hpmem q hq y b' z htakes hz
      obtain rfl : q = (x.index, way) := by simpa using hq
      obtain rfl := Option.some.inj ((hn.at?_conditional hx).symm.trans hz)
      exact hfound p hpmem y b' htakes
    · intro y hy z hz hlt hy' hz' hopen
      rcases List.mem_append.mp hopen with hopen | hopen
      · exact (h.first y hy z hz hlt hy' hz' hopen).imp_left (List.mem_append_left _)
      · -- an earlier one with the same start has been found before, or it has been dealt with
        obtain rfl := hn.conditional_ext hz hx (List.mem_singleton.mp hopen)
        rcases conditionalAt?_first hn hat hy hlt hy' with hopen' | hseen'
        · exact .inl (List.mem_append_left _ hopen')
        · exact (hp.seen_conditionals y hy hseen').2.imp_left (List.mem_append_left _)
  refine hopened.moveTo (show c.line ≤ b.start by omega) fun y hy hopen => ?_
  rcases List.mem_append.mp hopen with hopen | hopen
  · exact hp.start_le_of_conditional hn hy hopen
  · obtain rfl := hn.conditional_ext hy hx (List.mem_singleton.mp hopen)
    exact le_of_eq hstart

/-- A conditional that is found at the cursor is passed over. -/
theorem skip {x : Conditional} (hat : n.conditionalAt? depth seen c = some x) :
    n.Chained (c.moveTo x.stop) := by
  obtain ⟨hx, hstart, -⟩ := conditionalAt?_some hat
  have hle := (hn.conditional_laid x hx).start_le_stop
  exact h.moveTo (by omega) fun y hy => hp.start_le_of_conditional hn hy

/-- The pass over the conditionals keeps them in each other. -/
theorem passConditionals (vs : Variables) :
    n.Chained (n.passConditionals vs depth seen c).cursor :=
  (passConditionals_induction hn vs (P := fun _ c => n.Chained c)
    { leave := fun _ _ _ _ _ _ _ _ hp h hi hw htakes _ => h.leaveBranch hn hp hi hw htakes
      enter := fun _ _ _ _ _ hp h hunfinished hat hselect =>
        h.enterBranch hn hp hunfinished hat (Conditional.select_some hselect)
      skip := fun _ _ _ hp h _ hat _ => h.skip hn hp hat } hp h).2.2.1

/-- An option is left. -/
theorem leaveOption (stop : Int) : n.Chained (c.leaveOption stop) :=
  (h.moveTo (le_max_left _ stop) fun _ hy => hp.start_le_of_conditional hn hy).congr rfl rfl rfl

/-- Leaving options keeps the conditionals in each other. -/
theorem leaveOptions : n.Chained (n.leaveOptions c).1 :=
  (leaveOptions_induction (P := fun c => n.Poised depth seen c ∧ n.Chained c) hp.options_open
    ⟨hp, h⟩ fun _ _ _ _ _ _ _ ⟨hp, h⟩ hi hw hpicks _ =>
      ⟨hp.leaveOption hn hi hw hpicks, h.leaveOption hn hp _⟩).2.1.2

/-- The cursor goes to the next line. -/
theorem next : n.Chained (c.moveTo (c.line + 1)) :=
  h.moveTo (by omega) fun _ hy => hp.start_le_of_conditional hn hy

/-- An option of the decision at the cursor is chosen. -/
theorem choose {d : Decision} (hd : d ∈ n.decisions) (hstart : d.start = c.line) {way : Int}
    {o : Choice} (ho : at? d.options way = some o) :
    n.Chained ((c.opening d.index).choosing way o.start) := by
  have hwithin := (hn.decision_laid d hd).option_within (mem_of_at? ho)
  exact (h.moveTo (show c.line ≤ o.start by omega) fun _ hy =>
    hp.start_le_of_conditional hn hy).congr rfl rfl rfl

end Chained

/-- The numbers stand for a branch with the line. -/
def BranchAround (n : Node) (line index way : Int) : Prop :=
  ∃ x b, n.Takes index way x b ∧ b.start ≤ line ∧ line < b.stop

/-- The numbers stand for an option with the line. -/
def OptionAround (n : Node) (line index way : Int) : Prop :=
  ∃ d o, n.Picks index way d o ∧ o.start ≤ line ∧ line < o.stop

end Node

namespace Tour

variable {n : Node} {depth : Nat} {seen : List Visit} {c : Cursor} {st : Stance}
  {deeds : List Deed}

/-- The conditionals that are open lie inside each other throughout a tour. -/
theorem chained (hn : n.Laid) (h : Tour n depth seen c st deeds) : n.Chained c := by
  -- a round keeps the chain in both of its passes
  have hround {seen : List Visit} {c c' : Cursor} {st : Stance} {deeds : List Deed} {m : Motion}
      (h : Tour n depth seen c st deeds) (hround : n.Round depth seen c m c')
      (hchained : n.Chained c) : n.Chained c' := by
    have hturned := hround.turned hn (h.poised hn)
    obtain ⟨-, vs, rfl, rfl⟩ := hround
    exact (hchained.passConditionals hn (h.poised hn) vs).leaveOptions hn hturned.poised_between
  induction h with
  | enter _ => exact .init n
  | forget _ _ ih => exact ih
  | ask h _ hround' _ ih | move h _ hround' _ _ ih | present h _ hround' _ _ ih =>
    exact hround h hround' ih
  | command h _ hround' _ _ ih | skip h _ hround' _ _ ih =>
    exact (hround h hround' ih).next hn (hround'.turned hn (h.poised hn)).poised
  | advance h ih => exact ih.next hn (h.poised hn)
  | choose h ho ih =>
    obtain ⟨hpoised, hd, -⟩ := h.poised_stands hn
    obtain ⟨hmem, hstart, -⟩ := Node.decisionAt?_some hd
    exact ih.choose hn hpoised hmem hstart ho

/-- Where a line is on screen, the conditionals have nothing more to do. -/
theorem settled_of_showing (hn : n.Laid) (h : Tour n depth seen c .showing deeds) :
    n.Settled c := by
  cases h with
  | @present seen c _ st deeds m h hst hround hd hline =>
    exact (hround.turned hn (h.poised hn)).settled_of_stays (le_of_eq hline)

/-- A line on screen is in every open branch. -/
theorem branches_around (hn : n.Laid) (h : Tour n depth seen c .showing deeds) :
    Forall₂ (n.BranchAround c.line) c.conditionals c.branches := by
  have hpoised := h.poised hn
  refine List.forall₂_iff_zip.mpr ⟨hpoised.branches_open.length_eq, fun hmem => ?_⟩
  obtain ⟨x, b, htakes, hstart⟩ := List.forall₂_zip hpoised.branches_open hmem
  exact ⟨x, b, htakes, hstart,
    (h.chained hn).lt_stop hn hpoised (h.settled_of_showing hn).unfinished hmem htakes⟩

/-- A line on screen is in every open option. -/
theorem options_around (hn : n.Laid) (h : Tour n depth seen c .showing deeds) :
    Forall₂ (n.OptionAround c.line) c.decisions c.choices := by
  obtain ⟨hpoised, -, hunfinished, htail, -⟩ := h.poised_stands hn
  have hopen := hpoised.options_open
  -- at most one decision is open
  cases hdecisions : c.decisions with
  | nil =>
    rw [hdecisions] at hopen
    rw [List.forall₂_nil_left_iff.mp hopen]
    exact .nil
  | cons i is =>
    obtain rfl : is = [] := by simpa [hdecisions] using htail
    obtain ⟨w, d, o, hw, hpicks, hstart⟩ := hpoised.exists_only_option hdecisions
    rw [hw]
    exact .cons ⟨d, o, hpicks, hstart, hunfinished [] i [] w d o hdecisions hw hpicks⟩ .nil

end Tour

end VisualNovel
