import VisualNovel.Proofs.Layout.Basic
import VisualNovel.Script.Folder

/-!
# Compiled nodes are laid out properly

The blocks of a draft are laid out properly as far as they have been read: whatever is still open
would be laid out properly if it ended at the line that comes next, or at any later one. Every line
of a script that is taken up keeps this so, and when the node is closed nothing is open any more.

## Main definitions

* `Conditional.endAt` and `Decision.endAt`: an open block as if it ended at a line;
* `DecisionsLaid` and `ConditionalsLaid`: the invariants of a draft;
* `Script.Draft.Branched`: how a conditional goes on with a further branch.

## Main results

* `Script.Draft.Laid.take`: taking up a line keeps the invariants;
* `Script.compile_laid`: a compiled node is laid out properly;
* `Script.search_laid`: so is every node that is found in the scripts.
-/

namespace VisualNovel

/-- An element of a list with a further element at its end is one of the list or that one. -/
theorem getElem?_concat {α : Type} {l : List α} {a x : α} {i : Nat}
    (h : (l ++ [a])[i]? = some x) : l[i]? = some x ∨ i = l.length ∧ x = a := by
  rw [List.getElem?_append] at h
  split at h
  · exact .inl h
  · obtain ⟨hi, hx⟩ := List.getElem?_eq_some_iff.mp h
    simp only [List.length_singleton, Nat.lt_one_iff] at hi
    exact .inr ⟨by omega, by simpa [hi] using hx.symm⟩

/-- An element of a list one of whose elements has been changed. -/
theorem getElem?_modify_eq_some {α : Type} {l : List α} {f : α → α} {i j : Nat} {x : α}
    (h : (l.modify i f)[j]? = some x) :
    i = j ∧ (∃ a, l[i]? = some a ∧ x = f a) ∨ i ≠ j ∧ l[j]? = some x := by
  rw [List.getElem?_modify, Option.map_eq_map, Option.map_eq_some_iff] at h
  obtain ⟨a, ha, rfl⟩ := h
  -- whether the element that is looked up is the one that was changed
  by_cases hij : i = j
  · subst hij
    exact .inl ⟨rfl, a, ha, by simp⟩
  · exact .inr ⟨hij, by simpa [hij] using ha⟩

/-- An open conditional as if it ended at a line. -/
def Conditional.endAt (c : Conditional) (line : Int) : Conditional :=
  { c.endBranch line with stop := line }

/-- An open decision as if it ended at a line. -/
def Decision.endAt (d : Decision) (line : Int) : Decision :=
  { d.endOption line with stop := line }

namespace Conditional

variable (c : Conditional) (line : Int)

/-- Ending the last branch changes nothing else. -/
theorem branches_endBranch :
    (c.endBranch line).branches = modifyLast (fun b => { b with stop := line }) c.branches := by
  obtain ⟨index, first, others, otherwise, start, stop⟩ := c
  cases otherwise with
  | some b =>
    exact (modifyLast_concat (fun b : Branch => { b with stop := line }) (first :: others) b).symm
  | none => cases others <;> simp [endBranch, branches, guarded, modifyLast]

/-- The branches of a conditional that ends at a line. -/
theorem branches_endAt :
    (c.endAt line).branches = modifyLast (fun b => { b with stop := line }) c.branches :=
  c.branches_endBranch line

@[simp]
theorem start_endBranch : (c.endBranch line).start = c.start := by
  unfold endBranch
  split
  · rfl
  · split <;> rfl

@[simp]
theorem index_endBranch : (c.endBranch line).index = c.index := by
  unfold endBranch
  split
  · rfl
  · split <;> rfl

@[simp]
theorem start_endAt : (c.endAt line).start = c.start := c.start_endBranch line

@[simp]
theorem index_endAt : (c.endAt line).index = c.index := c.index_endBranch line

@[simp]
theorem stop_endAt : (c.endAt line).stop = line := rfl

/-- A conditional has a branch. -/
theorem branches_ne_nil : c.branches ≠ [] := by simp [branches, guarded]

/-- Only the last branch of a conditional ends where the conditional does. -/
theorem branches_endAt_concat {c : Conditional} {bs : List Branch} {b : Branch}
    (h : c.branches = bs ++ [b]) (line : Int) :
    (c.endAt line).branches = bs ++ [{ b with stop := line }] := by
  rw [branches_endAt, h, modifyLast_concat]

/-- Ending the last branch adds no branch without a condition. -/
theorem otherwise_endBranch {c : Conditional} (h : c.otherwise = none) (line : Int) :
    (c.endBranch line).otherwise = none := by
  simp only [endBranch, h]
  split <;> rfl

/-- A further branch with a condition comes last. -/
theorem branches_others_concat {c : Conditional} (h : c.otherwise = none) (b : Branch) :
    ({ c with others := c.others ++ [b] } : Conditional).branches = c.branches ++ [b] := by
  simp [branches, guarded, h]

/-- The branch without a condition comes last. -/
theorem branches_otherwise_some {c : Conditional} (h : c.otherwise = none) (b : Branch) :
    ({ c with otherwise := some b } : Conditional).branches = c.branches ++ [b] := by
  simp [branches, guarded, h]

/-- What a conditional is clear of depends on its branches and its end. -/
theorem Clears.congr {c c' e e' : Conditional} (h : c.Clears e) (hb : c'.branches = c.branches)
    (hs : c'.stop = c.stop) (hes : e'.start = e.start) (hee : e'.stop = e.stop) :
    c'.Clears e' := by
  unfold Clears at h ⊢
  rwa [hb, hs, hes, hee]

end Conditional

/-- The decisions that have been closed up to a line, and the open one, are laid out properly. -/
structure DecisionsLaid (line : Int) (closed : List Decision) (opened : Option Decision) :
    Prop where
  /-- Decisions are numbered in order. -/
  index : ∀ (i : Nat) (d : Decision), closed[i]? = some d → d.index = i
  /-- The options of a closed decision fill it. -/
  laid : ∀ d ∈ closed, d.Laid
  /-- Closed decisions lie before the line. -/
  within : ∀ d ∈ closed, 0 ≤ d.start ∧ d.stop ≤ line
  /-- A decision starts where the one before it has ended, or later. -/
  apart : closed.Pairwise fun d e => d.stop ≤ e.start
  /-- The open decision comes next. -/
  opened_index : ∀ e ∈ opened, e.index = closed.length
  /-- The open decision starts where the closed ones have ended, or later. -/
  opened_apart : ∀ e ∈ opened, ∀ d ∈ closed, d.stop ≤ e.start
  /-- The open decision starts before the line. -/
  opened_within : ∀ e ∈ opened, 0 ≤ e.start ∧ e.start ≤ line
  /-- The options of the open decision follow each other. -/
  opened_tiles : ∀ e ∈ opened, ∃ a b, e.start ≤ a ∧ b ≤ line ∧
    Tiles Choice.start Choice.stop a b e.options

namespace DecisionsLaid

variable {line : Int} {closed : List Decision}

/-- Nothing has been read. -/
theorem init (line : Int) : DecisionsLaid line [] none := by
  constructor <;> simp

/-- A further line of content. -/
theorem grow {opened : Option Decision} (h : DecisionsLaid line closed opened) {line' : Int}
    (hle : line ≤ line') : DecisionsLaid line' closed opened := by
  refine { h with within := ?_, opened_within := ?_, opened_tiles := ?_ }
  · intro d hd
    have := h.within d hd
    omega
  · intro e he
    have := h.opened_within e he
    omega
  · intro e he
    obtain ⟨a, b, ha, hb, htiles⟩ := h.opened_tiles e he
    exact ⟨a, b, ha, le_trans hb hle, htiles⟩

/-- A decision is opened. -/
theorem start (h : DecisionsLaid line closed none) (h0 : 0 ≤ line) :
    DecisionsLaid line closed (some ⟨closed.length, line, line, []⟩) := by
  refine { h with opened_index := ?_, opened_apart := ?_, opened_within := ?_, opened_tiles := ?_ }
  all_goals
    intro e he
    obtain rfl := Option.some.inj he
  · rfl
  · exact fun d hd => (h.within d hd).2
  · exact ⟨h0, le_rfl⟩
  · exact ⟨line, line, le_rfl, le_rfl, rfl⟩

/-- The options of an open decision fill it from the first of them on, wherever it ends. -/
theorem tiles_endOption {e : Decision} (h : DecisionsLaid line closed (some e))
    {stop : Int} (hle : line ≤ stop) (hne : e.options ≠ []) :
    ∃ a, e.start ≤ a ∧ Tiles Choice.start Choice.stop a stop (e.endOption stop).options := by
  obtain ⟨a, b, ha, hb, htiles⟩ := h.opened_tiles e rfl
  exact ⟨a, ha, tiles_modifyLast (fun _ => rfl) (fun _ => rfl) hne htiles (le_trans hb hle)⟩

/-- An option is added to the open decision. -/
theorem option {e : Decision} (h : DecisionsLaid line closed (some e)) (label : String) :
    DecisionsLaid line closed (some { e.endOption line with
      options := (e.endOption line).options ++ [⟨label, line, line⟩] }) := by
  refine { h with opened_index := ?_, opened_apart := ?_, opened_within := ?_, opened_tiles := ?_ }
  all_goals
    intro e' he'
    obtain rfl := Option.some.inj he'
  · exact h.opened_index e rfl
  · exact h.opened_apart e rfl
  · exact h.opened_within e rfl
  · -- the options that are there are ended at the line, where the further one starts
    by_cases hne : e.options = []
    · refine ⟨line, line, (h.opened_within e rfl).2, le_rfl, ?_⟩
      simp [Decision.endOption, hne, modifyLast, Tiles]
    · obtain ⟨a, ha, htiles⟩ := h.tiles_endOption le_rfl hne
      exact ⟨a, line, ha, le_rfl, tiles_append.mpr ⟨line, htiles, rfl, le_rfl, rfl⟩⟩

/-- The open decision is closed. -/
theorem close {e : Decision} (h : DecisionsLaid line closed (some e)) (hne : e.options ≠ []) :
    DecisionsLaid line (closed ++ [e.endAt line]) none := by
  refine ⟨?_, ?_, ?_, ?_, by simp, by simp, by simp, by simp⟩
  · intro i d hd
    rcases getElem?_concat hd with hd | ⟨rfl, rfl⟩
    · exact h.index i d hd
    · exact h.opened_index e rfl
  · intro d hd
    rcases List.mem_append.mp hd with hd | hd
    · exact h.laid d hd
    · obtain rfl := List.mem_singleton.mp hd
      refine ⟨?_, h.tiles_endOption le_rfl hne⟩
      rw [← List.length_pos_iff]
      simpa [Decision.endAt, Decision.endOption, List.length_pos_iff] using hne
  · intro d hd
    rcases List.mem_append.mp hd with hd | hd
    · exact h.within d hd
    · obtain rfl := List.mem_singleton.mp hd
      exact ⟨(h.opened_within e rfl).1, le_rfl⟩
  · -- the decision that is closed comes last, behind those closed before it
    refine List.pairwise_append.mpr ⟨h.apart, List.pairwise_singleton _ _, ?_⟩
    intro d hd d' hd'
    obtain rfl := List.mem_singleton.mp hd'
    exact h.opened_apart e rfl d hd

end DecisionsLaid

/-- A conditional as if it ended at a line, if it is open. -/
def viewAt (opened : List Nat) (stop : Int) (i : Nat) (c : Conditional) : Conditional :=
  if i ∈ opened then c.endAt stop else c

section View

variable {opened : List Nat} {stop : Int} {i : Nat} {c : Conditional}

theorem viewAt_of_mem (h : i ∈ opened) : viewAt opened stop i c = c.endAt stop := if_pos h

theorem viewAt_of_not_mem (h : i ∉ opened) : viewAt opened stop i c = c := if_neg h

@[simp]
theorem start_viewAt : (viewAt opened stop i c).start = c.start := by
  unfold viewAt
  split <;> simp

end View

/-- The conditionals that have been opened up to a line are laid out properly. -/
structure ConditionalsLaid (line : Int) (cs : List Conditional) (opened : List Nat) : Prop where
  /-- Conditionals are numbered in order. -/
  index : ∀ (i : Nat) (c : Conditional), cs[i]? = some c → c.index = i
  /-- Open conditionals exist. -/
  opened_lt : ∀ i ∈ opened, i < cs.length
  /-- An inner conditional has been opened after an outer one. -/
  opened_sorted : opened.Pairwise (· > ·)
  /-- The branches of a conditional fill it, wherever it ends. -/
  laid : ∀ i c, cs[i]? = some c → ∀ stop, line ≤ stop → (viewAt opened stop i c).Laid
  /-- Conditionals lie before the line where they may end. -/
  within : ∀ i c, cs[i]? = some c → ∀ stop, line ≤ stop →
    0 ≤ c.start ∧ (viewAt opened stop i c).stop ≤ stop
  /-- A conditional lies behind an earlier one or in a single branch of it. -/
  nest : ∀ i j c e, i < j → cs[i]? = some c → cs[j]? = some e → ∀ stop, line ≤ stop →
    (viewAt opened stop i c).Clears (viewAt opened stop j e)

namespace ConditionalsLaid

variable {line : Int} {cs : List Conditional} {opened : List Nat}

/-- Nothing has been read. -/
theorem init (line : Int) : ConditionalsLaid line [] [] := by
  constructor <;> simp

/-- A further line of content. -/
theorem grow (h : ConditionalsLaid line cs opened) {line' : Int} (hle : line ≤ line') :
    ConditionalsLaid line' cs opened where
  index := h.index
  opened_lt := h.opened_lt
  opened_sorted := h.opened_sorted
  laid i c hc stop hs := h.laid i c hc stop (le_trans hle hs)
  within i c hc stop hs := h.within i c hc stop (le_trans hle hs)
  nest i j c e hij hc he stop hs := h.nest i j c e hij hc he stop (le_trans hle hs)

/-- A conditional that has been opened after the innermost open one is closed. -/
theorem not_opened {i j : Nat} {rest : List Nat} (h : ConditionalsLaid line cs (i :: rest))
    (hij : i < j) : j ∉ i :: rest := by
  intro hj
  rcases List.mem_cons.mp hj with rfl | hj
  · omega
  · have := (List.pairwise_cons.mp h.opened_sorted).1 j hj
    omega

/-- A closed conditional has ended before the line. -/
theorem closed_before {i : Nat} {c : Conditional} (h : ConditionalsLaid line cs opened)
    (hc : cs[i]? = some c) (hi : i ∉ opened) : c.start ≤ c.stop ∧ c.stop ≤ line := by
  have hlaid := h.laid i c hc line le_rfl
  have hwithin := h.within i c hc line le_rfl
  rw [viewAt_of_not_mem hi] at hlaid hwithin
  exact ⟨hlaid.start_le_stop, hwithin.2⟩

/-- The last branch of an open conditional reaches as far as the conditional. -/
theorem last_branch {i : Nat} {c : Conditional} (h : ConditionalsLaid line cs opened)
    (hc : cs[i]? = some c) (hi : i ∈ opened) (stop : Int) :
    ∃ b ∈ (c.endAt stop).branches, b.start ≤ line ∧ b.stop = stop := by
  have hlaid := h.laid i c hc line le_rfl
  rw [viewAt_of_mem hi] at hlaid
  obtain ⟨init, b, hb⟩ := exists_concat c.branches_ne_nil
  -- the last branch is there wherever the conditional ends, so it can be taken at this line
  have hmem (s : Int) : { b with stop := s } ∈ (c.endAt s).branches := by
    simp [Conditional.branches_endAt, hb]
  exact ⟨_, hmem stop, (hlaid.branch_within (hmem line)).2.1, rfl⟩

/-- A conditional is opened. -/
theorem start (h : ConditionalsLaid line cs opened) (h0 : 0 ≤ line) (condition : String) :
    ConditionalsLaid line
      (cs ++ [⟨cs.length, ⟨condition, line, line⟩, [], none, line, line⟩])
      (cs.length :: opened) := by
  have hnew : cs.length ∉ opened := fun hmem => absurd (h.opened_lt _ hmem) (lt_irrefl _)
  -- opening a conditional changes nothing about the others
  have hview {i : Nat} {c : Conditional} (hc : cs[i]? = some c) (stop : Int) :
      viewAt (cs.length :: opened) stop i c = viewAt opened stop i c := by
    have hi : i ≠ cs.length := by
      obtain ⟨hlt, -⟩ := List.getElem?_eq_some_iff.mp hc
      omega
    simp [viewAt, hi]
  -- in each case the conditional is one that was there or the one that has been opened
  refine ⟨?_, ?_, List.pairwise_cons.mpr ⟨h.opened_lt, h.opened_sorted⟩, ?_, ?_, ?_⟩
  · intro i c hc
    rcases getElem?_concat hc with hc | ⟨rfl, rfl⟩
    · exact h.index i c hc
    · rfl
  · intro i hi
    rw [List.length_append, List.length_singleton]
    rcases List.mem_cons.mp hi with rfl | hi
    · omega
    · have := h.opened_lt i hi
      omega
  · intro i c hc stop hs
    rcases getElem?_concat hc with hc | ⟨rfl, rfl⟩
    · rw [hview hc]
      exact h.laid i c hc stop hs
    · rw [viewAt_of_mem (List.mem_cons_self ..)]
      exact ⟨tiles_singleton.mpr ⟨rfl, hs, rfl⟩⟩
  · intro i c hc stop hs
    rcases getElem?_concat hc with hc | ⟨rfl, rfl⟩
    · rw [hview hc]
      exact h.within i c hc stop hs
    · rw [viewAt_of_mem (List.mem_cons_self ..)]
      exact ⟨h0, le_rfl⟩
  · intro i j c e hij hc he stop hs
    have hi : i < cs.length := by
      have := (List.getElem?_eq_some_iff.mp he).1
      simp only [List.length_append, List.length_singleton] at this
      omega
    rw [List.getElem?_append_left hi] at hc
    rw [hview hc]
    rcases getElem?_concat he with he | ⟨rfl, rfl⟩
    · rw [hview he]
      exact h.nest i j c e hij hc he stop hs
    · rw [viewAt_of_mem (List.mem_cons_self ..)]
      -- an open conditional goes on around the opened one, a closed one has ended before it
      by_cases hopen : i ∈ opened
      · rw [viewAt_of_mem hopen]
        obtain ⟨b, hb, hle, hstop⟩ := h.last_branch hc hopen stop
        exact .inr ⟨b, hb, hle, le_of_eq hstop.symm⟩
      · rw [viewAt_of_not_mem hopen]
        exact .inl (h.closed_before hc hopen).2

/-- What lies in a branch of a conditional before a line lies in a branch of the conditional that
has been ended there. -/
theorem in_ended_branch {i j : Nat} {rest : List Nat} {c e : Conditional}
    (h : ConditionalsLaid line cs (i :: rest)) (hij : i < j) (hc : cs[i]? = some c)
    (he : cs[j]? = some e) :
    ∃ b ∈ (c.endAt line).branches, b.start ≤ e.start ∧ e.stop ≤ b.stop := by
  have hclosed := h.not_opened hij
  have hbefore := h.closed_before he hclosed
  -- a line further on the conditional still goes on, so `e` cannot lie behind it
  have hclears := h.nest i j c e hij hc he (line + 1) (by omega)
  rw [viewAt_of_mem (List.mem_cons_self ..), viewAt_of_not_mem hclosed] at hclears
  rcases hclears with hbehind | ⟨b, hb, hstart, hstop⟩
  · have : line + 1 ≤ e.start := hbehind
    omega
  · obtain ⟨init, last, hlast⟩ := exists_concat c.branches_ne_nil
    simp only [Conditional.branches_endAt, hlast, modifyLast_concat, List.mem_append,
      List.mem_singleton] at hb ⊢
    rcases hb with hb | rfl
    · exact ⟨b, .inl hb, hstart, hstop⟩
    · exact ⟨_, .inr rfl, hstart, hbefore.2⟩

/-- A further branch is added to the innermost open conditional. -/
theorem branch {i : Nat} {rest : List Nat} (h : ConditionalsLaid line cs (i :: rest))
    {f : Conditional → Conditional} (condition : String) (hindex : ∀ c, (f c).index = c.index)
    (hstart : ∀ c, (f c).start = c.start)
    (hbranches : ∀ c, cs[i]? = some c →
      (f c).branches = (c.endAt line).branches ++ [⟨condition, line, line⟩]) :
    ConditionalsLaid line (cs.modify i f) (i :: rest) := by
  have hmem : i ∈ i :: rest := List.mem_cons_self ..
  -- only the branch that has been added still goes on
  have hbranches (c : Conditional) (hc : cs[i]? = some c) (stop : Int) :
      ((f c).endAt stop).branches = (c.endAt line).branches ++ [⟨condition, line, stop⟩] :=
    Conditional.branches_endAt_concat (hbranches c hc) stop
  refine ⟨?_, by simpa using h.opened_lt, h.opened_sorted, ?_, ?_, ?_⟩
  · intro j c hc
    rcases getElem?_modify_eq_some hc with ⟨rfl, c, hc₀, rfl⟩ | ⟨-, hc⟩
    · rw [hindex]
      exact h.index i c hc₀
    · exact h.index j c hc
  · intro j c hc stop hs
    rcases getElem?_modify_eq_some hc with ⟨rfl, c, hc₀, rfl⟩ | ⟨-, hc⟩
    · have hlaid := (h.laid i c hc₀ line le_rfl).tiles
      rw [viewAt_of_mem hmem] at hlaid ⊢
      constructor
      rw [hbranches c hc₀, Conditional.start_endAt, hstart]
      -- the branches so far fill the conditional up to the line, the added one the rest
      exact tiles_append.mpr ⟨line, by simpa using hlaid, rfl, hs, rfl⟩
    · exact h.laid j c hc stop hs
  · intro j c hc stop hs
    rcases getElem?_modify_eq_some hc with ⟨rfl, c, hc₀, rfl⟩ | ⟨-, hc⟩
    · rw [viewAt_of_mem hmem, hstart]
      exact ⟨(h.within i c hc₀ line le_rfl).1, le_rfl⟩
    · exact h.within j c hc stop hs
  · intro j k c e hjk hc he stop hs
    rcases getElem?_modify_eq_some hc with ⟨rfl, c, hc₀, rfl⟩ | ⟨hj, hc⟩
    · -- the conditional itself and a later one, which lies in a branch that is ended now
      rcases getElem?_modify_eq_some he with ⟨rfl, -⟩ | ⟨-, he⟩
      · omega
      · obtain ⟨b, hb, hbe⟩ := h.in_ended_branch hjk hc₀ he
        rw [viewAt_of_mem hmem, viewAt_of_not_mem (h.not_opened hjk)]
        exact .inr ⟨b, by simp [hbranches c hc₀, hb], hbe⟩
    · rcases getElem?_modify_eq_some he with ⟨rfl, e, he₀, rfl⟩ | ⟨-, he⟩
      · refine (h.nest j i c e hjk hc he₀ stop hs).congr rfl rfl ?_ ?_
        · simp [hstart]
        · simp [viewAt_of_mem hmem]
      · exact h.nest j k c e hjk hc he stop hs

/-- The innermost open conditional is closed. -/
theorem close {i : Nat} {rest : List Nat} (h : ConditionalsLaid line cs (i :: rest)) :
    ConditionalsLaid line (cs.modify i fun c => c.endAt line) rest := by
  have hmem : i ∈ i :: rest := List.mem_cons_self ..
  obtain ⟨hhead, hsorted⟩ := List.pairwise_cons.mp h.opened_sorted
  have hi : i ∉ rest := fun hi => absurd (hhead i hi) (lt_irrefl _)
  -- only the conditional that is closed is seen differently from now on
  have hview {j : Nat} (hj : i ≠ j) (stop : Int) (c : Conditional) :
      viewAt (i :: rest) stop j c = viewAt rest stop j c := by
    simp [viewAt, hj.symm]
  refine ⟨?_, ?_, hsorted, ?_, ?_, ?_⟩
  · intro j c hc
    rcases getElem?_modify_eq_some hc with ⟨rfl, c, hc₀, rfl⟩ | ⟨-, hc⟩
    · rw [Conditional.index_endAt]
      exact h.index i c hc₀
    · exact h.index j c hc
  · intro j hj
    rw [List.length_modify]
    exact h.opened_lt j (List.mem_cons_of_mem _ hj)
  · intro j c hc stop hs
    rcases getElem?_modify_eq_some hc with ⟨rfl, c, hc₀, rfl⟩ | ⟨hj, hc⟩
    · -- it ends where it was taken to end while it was open
      rw [viewAt_of_not_mem hi, ← viewAt_of_mem hmem]
      exact h.laid i c hc₀ line le_rfl
    · rw [← hview hj]
      exact h.laid j c hc stop hs
  · intro j c hc stop hs
    rcases getElem?_modify_eq_some hc with ⟨rfl, c, hc₀, rfl⟩ | ⟨hj, hc⟩
    · rw [viewAt_of_not_mem hi, Conditional.start_endAt]
      exact ⟨(h.within i c hc₀ line le_rfl).1, hs⟩
    · rw [← hview hj]
      exact h.within j c hc stop hs
  · intro j k c e hjk hc he stop hs
    rcases getElem?_modify_eq_some hc with ⟨rfl, c, hc₀, rfl⟩ | ⟨hj, hc⟩
    · rcases getElem?_modify_eq_some he with ⟨rfl, -⟩ | ⟨hk, he⟩
      · omega
      · obtain ⟨b, hb, hbe⟩ := h.in_ended_branch hjk hc₀ he
        rw [viewAt_of_not_mem hi, ← hview hk, viewAt_of_not_mem (h.not_opened hjk)]
        exact .inr ⟨b, hb, hbe⟩
    · rw [← hview hj]
      rcases getElem?_modify_eq_some he with ⟨rfl, e, he₀, rfl⟩ | ⟨hk, he⟩
      · -- the outer conditional cleared it wherever it would end, so it does now
        have hclears := h.nest j i c e hjk hc he₀ stop hs
        rw [viewAt_of_mem hmem] at hclears
        rw [viewAt_of_not_mem hi]
        rcases hclears with hbehind | ⟨b, hb, hstart, hstop⟩
        · exact .inl (by simpa using hbehind)
        · exact .inr ⟨b, hb, by simpa using hstart, le_trans hs hstop⟩
      · rw [← hview hk]
        exact h.nest j k c e hjk hc he stop hs

end ConditionalsLaid

namespace Script

/-- The blocks of a draft are laid out properly as far as they have been read. -/
structure Draft.Laid (d : Draft) : Prop where
  /-- Its decisions are. -/
  decisions : DecisionsLaid d.cursor d.decisions d.openDecision
  /-- Its conditionals are. -/
  conditionals : ConditionalsLaid d.cursor d.conditionals d.openConditionals

namespace Draft

/-- A draft goes on with a further branch of its innermost open conditional, which had no last
branch so far. -/
inductive Branched (d : Draft) (last : Bool) : Draft → Prop where
  | intro {i : Nat} {rest : List Nat} {f : Conditional → Conditional} (condition : String)
      (hopen : d.openConditionals = i :: rest) (hindex : ∀ c, (f c).index = c.index)
      (hstart : ∀ c, (f c).start = c.start)
      (hlast : ∀ c, d.conditionals[i]? = some c →
        c.otherwise = none ∧ (f c).otherwise.isSome = last)
      (hbranches : ∀ c, d.conditionals[i]? = some c →
        (f c).branches = (c.endAt d.cursor).branches ++ [⟨condition, d.cursor, d.cursor⟩]) :
      Branched d last { d with conditionals := d.conditionals.modify i f }

variable {d d' : Draft}

/-- Only the innermost open conditional can go on, and only if it has no last branch yet. -/
theorem exists_of_branchable {marker : String} {i : Nat} (hi : d.branchable marker = .ok i) :
    ∃ rest, d.openConditionals = i :: rest ∧
      ∀ c, d.conditionals[i]? = some c → c.otherwise = none := by
  unfold branchable at hi
  split at hi
  · cases hi
  · next j rest hopen =>
    split at hi
    · cases hi
    · next hnone =>
      cases hi
      refine ⟨rest, hopen, fun c hc => ?_⟩
      simpa [hc] using hnone

/-- A branch with a condition is not the last one. -/
theorem branched_elseIf {condition : List Char} (hd : d.elseIf condition = .ok d') :
    d.Branched false d' := by
  unfold elseIf at hd
  cases hi : d.branchable "else if" with
  | error f => simp [hi, bind, Except.bind] at hd
  | ok i =>
    simp only [hi, bind, Except.bind, pure, Except.pure, Except.ok.injEq] at hd
    subst hd
    obtain ⟨rest, hopen, hnone⟩ := exists_of_branchable hi
    have hended (c : Conditional) (hc : d.conditionals[i]? = some c) :
        (c.endBranch d.cursor).otherwise = none := Conditional.otherwise_endBranch (hnone c hc) _
    refine .intro (String.ofList condition) hopen (fun c => c.index_endBranch _)
      (fun c => c.start_endBranch _) (fun c hc => ⟨hnone c hc, ?_⟩) fun c hc => ?_
    · simp [hended c hc]
    · exact Conditional.branches_others_concat (hended c hc) _

/-- The branch without a condition is the last one. -/
theorem branched_otherwise (hd : d.otherwise = .ok d') : d.Branched true d' := by
  unfold otherwise at hd
  cases hi : d.branchable "else" with
  | error f => simp [hi, bind, Except.bind] at hd
  | ok i =>
    simp only [hi, bind, Except.bind, pure, Except.pure, Except.ok.injEq] at hd
    subst hd
    obtain ⟨rest, hopen, hnone⟩ := exists_of_branchable hi
    refine .intro "" hopen (fun c => c.index_endBranch _) (fun c => c.start_endBranch _)
      (fun c hc => ⟨hnone c hc, rfl⟩) fun c hc => ?_
    exact Conditional.branches_otherwise_some (Conditional.otherwise_endBranch (hnone c hc) _) _

/-- Lines are counted from zero. -/
theorem cursor_nonneg (d : Draft) : 0 ≤ d.cursor := Int.natCast_nonneg _

/-- A draft in which nothing has been read is laid out properly. -/
theorem laid_init (name context : String) : (⟨name, context, [], [], none, [], []⟩ : Draft).Laid :=
  ⟨.init _, .init _⟩

namespace Laid

variable (h : d.Laid)

include h

/-- A line of content keeps the blocks as they are. -/
theorem addLine (text : List Char) : (d.addLine text).Laid := by
  have hle : d.cursor ≤ (d.addLine text).cursor := by simp [cursor, Draft.addLine]
  exact ⟨h.decisions.grow hle, h.conditionals.grow hle⟩

/-- Opening a decision keeps the layout. -/
theorem startDecision (hd : d.startDecision = .ok d') : d'.Laid := by
  unfold Draft.startDecision at hd
  split at hd
  · cases hd
  · next hnone =>
    cases hd
    have hdecisions := h.decisions
    rw [hnone] at hdecisions
    exact ⟨hdecisions.start d.cursor_nonneg, h.conditionals⟩

/-- Adding an option keeps the layout. -/
theorem addOption {label whole : List Char} (hd : d.addOption label whole = .ok d') : d'.Laid := by
  unfold Draft.addOption at hd
  split at hd
  · cases hd
  · next e he =>
    cases hd
    have hdecisions := h.decisions
    rw [he] at hdecisions
    exact ⟨hdecisions.option _, h.conditionals⟩

/-- Closing a decision keeps the layout. -/
theorem endDecision (hd : d.endDecision = .ok d') : d'.Laid := by
  unfold Draft.endDecision at hd
  split at hd
  · cases hd
  · next e he =>
    split at hd
    · cases hd
    · next hne =>
      cases hd
      have hdecisions := h.decisions
      rw [he] at hdecisions
      exact ⟨hdecisions.close (by simpa using hne), h.conditionals⟩

/-- Opening a conditional keeps the layout. -/
theorem startIf (condition : List Char) : (d.startIf condition).Laid :=
  ⟨h.decisions, h.conditionals.start d.cursor_nonneg _⟩

/-- A further branch keeps the layout. -/
theorem branched {last : Bool} (hd : d.Branched last d') : d'.Laid := by
  cases hd with
  | intro condition hopen hindex hstart _ hbranches =>
    have hconditionals := h.conditionals
    rw [hopen] at hconditionals
    refine ⟨h.decisions, ?_⟩
    simp only [hopen]
    exact hconditionals.branch condition hindex hstart hbranches

/-- Closing a conditional keeps the layout. -/
theorem endIf (hd : d.endIf = .ok d') : d'.Laid := by
  unfold Draft.endIf at hd
  split at hd
  · cases hd
  · next i rest hopen =>
    cases hd
    have hconditionals := h.conditionals
    rw [hopen] at hconditionals
    exact ⟨h.decisions, hconditionals.close⟩

/-- Taking up a line keeps the layout. -/
theorem take {line : Line} (hd : d.take line = .ok d') : d'.Laid := by
  cases line with
  | declaration x v => cases hd; exact h
  | node header whole => cases hd
  | endNode => cases hd; exact h
  | startDecision => exact h.startDecision hd
  | endDecision => exact h.endDecision hd
  | option label whole => exact h.addOption hd
  | elseIf condition => exact h.branched (branched_elseIf hd)
  | otherwise => exact h.branched (branched_otherwise hd)
  | endIf => exact h.endIf hd
  | startIf condition => cases hd; exact h.startIf condition
  | content text => cases hd; exact h.addLine text

/-- The node of a draft in which nothing is left open is laid out properly. -/
theorem close {n : Node} (hn : d.close = .ok n) : n.Laid := by
  unfold Draft.close at hn
  split at hn
  · cases hn
  · split at hn
    · cases hn
    · next hopen =>
      cases hn
      have hopen : d.openConditionals = [] := by simpa using hopen
      have hconditionals := h.conditionals
      rw [hopen] at hconditionals
      -- nothing is open, so every conditional is seen as it is
      have hview (i : Nat) (c : Conditional) : viewAt [] d.cursor i c = c := by simp [viewAt]
      refine ⟨h.decisions.index, h.decisions.laid, h.decisions.within, h.decisions.apart,
        hconditionals.index, ?_, ?_, ?_⟩
      · intro c hc
        obtain ⟨i, hi⟩ := List.mem_iff_getElem?.mp hc
        simpa only [hview] using hconditionals.laid i c hi d.cursor le_rfl
      · intro c hc
        obtain ⟨i, hi⟩ := List.mem_iff_getElem?.mp hc
        have hwithin := hconditionals.within i c hi d.cursor le_rfl
        rwa [hview] at hwithin
      · refine List.pairwise_iff_getElem.mpr fun i j hi hj hij => ?_
        simpa only [hview] using hconditionals.nest i j _ _ hij (List.getElem?_eq_getElem hi)
          (List.getElem?_eq_getElem hj) d.cursor le_rfl

end Laid

/-- Taking up a line keeps the name and the scene of the draft. -/
theorem take_header {line : Line} (hd : d.take line = .ok d') :
    d'.name = d.name ∧ d'.context = d.context := by
  -- every kind of line only changes the lines and the blocks of the draft
  cases line <;> simp only [take, startDecision, endDecision, addOption, elseIf, otherwise, endIf,
    bind, Except.bind, pure, Except.pure] at hd
  all_goals
    repeat' split at hd
    all_goals cases hd <;> exact ⟨rfl, rfl⟩

/-- The node of a draft has its name and its scene, and is at its start. -/
theorem close_header {n : Node} (hn : d.close = .ok n) :
    n.name = d.name ∧ n.context = d.context ∧ n.line = 0 := by
  unfold close at hn
  split at hn
  · cases hn
  · split at hn
    · cases hn
    · cases hn
      exact ⟨rfl, rfl, rfl⟩

/-- The scene does not matter for taking up a line. -/
theorem take_context (context : String) (line : Line) :
    Draft.take { d with context } line = (d.take line).map fun d' => { d' with context } := by
  obtain ⟨_, _, _, _, decision?, conditionals, openConditionals⟩ := d
  cases line with
  | startDecision => cases decision? <;> rfl
  | endDecision =>
    cases decision? with
    | none => rfl
    | some b =>
      simp only [take, endDecision]
      split <;> rfl
  | option label whole => cases decision? <;> rfl
  | endIf => cases openConditionals <;> rfl
  | elseIf _ | otherwise =>
    cases openConditionals with
    | nil => rfl
    | cons i rest =>
      simp only [take, elseIf, otherwise, branchable]
      split <;> rfl
  | _ => rfl

/-- Nor does it matter for closing a draft. -/
theorem close_context (context : String) :
    Draft.close { d with context } = d.close.map fun n => { n with context } := by
  unfold close
  dsimp only
  split
  · rfl
  · split <;> rfl

end Draft

/-- A node that has been compiled from an open draft, or from a draft that is still to be opened. -/
theorem compileFrom_ok {name context : String} {k : Nat} {draft? : Option Draft} {vs : Variables}
    {lines : List (List Char)} {n : Node}
    (hdraft : ∀ d ∈ draft?, d.Laid ∧ d.name = name ∧ d.context = context)
    (hn : (compileFrom name context k draft? vs lines).1 = .ok (some n)) :
    n.Laid ∧ n.name = name ∧ n.context = context ∧ n.line = 0 := by
  -- by induction on the lines that are left, from any draft
  induction lines generalizing k draft? vs with
  | nil => cases draft? <;> simp [compileFrom] at hn
  | cons raw rest ih =>
    rw [compileFrom] at hn
    split at hn
    · exact ih hdraft hn
    · exact ih hdraft hn
    · next line _ _ =>
      split at hn
      · -- no draft is open yet: the line may open one, which is empty
        refine ih ?_ hn
        intro d hd
        split at hd
        · split at hd
          · obtain rfl := Option.some.inj hd
            exact ⟨Draft.laid_init name context, rfl, rfl⟩
          · cases hd
        · cases hd
      · next draft =>
        -- a draft is open: the line ends the node or is taken into the draft
        obtain ⟨hlaid, hname, hcontext⟩ := hdraft draft rfl
        split at hn
        · split at hn
          · next node hclose =>
            cases hn
            obtain ⟨h₁, h₂, h₃⟩ := Draft.close_header hclose
            exact ⟨hlaid.close hclose, h₁.trans hname, h₂.trans hcontext, h₃⟩
          · cases hn
        · split at hn
          · next draft' htake =>
            refine ih ?_ hn
            intro d hd
            obtain rfl := Option.some.inj hd
            obtain ⟨h₁, h₂⟩ := Draft.take_header htake
            exact ⟨hlaid.take htake, h₁.trans hname, h₂.trans hcontext⟩
          · cases hn

/-- The variables do not matter for the node that is compiled. -/
theorem compileFrom_congr {name context : String} {k : Nat} {draft? : Option Draft}
    {lines : List (List Char)} (vs ws : Variables) :
    (compileFrom name context k draft? vs lines).1 =
      (compileFrom name context k draft? ws lines).1 := by
  induction lines generalizing k draft? vs ws with
  | nil => cases draft? <;> rfl
  | cons raw rest ih =>
    rw [compileFrom, compileFrom]
    split
    · exact ih vs ws
    · -- a declaration sets a variable, which the node does not depend on
      exact ih _ _
    · split
      · exact ih vs ws
      · split
        · split <;> rfl
        · split
          · exact ih vs ws
          · rfl

/-- The scene only matters for a compiled node in that it is that of the node. -/
theorem compileFrom_context {name context : String} {k : Nat} {draft? : Option Draft}
    {vs : Variables} {lines : List (List Char)} (context' : String) :
    compileFrom name context' k (draft?.map fun d => { d with context := context' }) vs lines =
      ((compileFrom name context k draft? vs lines).1.map
        (Option.map fun n => { n with context := context' }),
        (compileFrom name context k draft? vs lines).2) := by
  -- on the lines, with the same draft but for its scene
  induction lines generalizing k draft? vs with
  | nil => cases draft? <;> rfl
  | cons raw rest ih =>
    rw [compileFrom, compileFrom]
    split
    · exact ih
    · exact ih
    · next line _ _ =>
      cases draft? with
      | none =>
        dsimp only [Option.map_none]
        cases line with
        | node header whole =>
          dsimp only
          split
          · exact @ih (k + 1) (some ⟨name, context, [], [], none, [], []⟩) vs
          · exact @ih (k + 1) none vs
        | _ => exact @ih (k + 1) none vs
      | some d =>
        dsimp only [Option.map_some]
        rw [Draft.close_context, Draft.take_context]
        split
        · cases d.close <;> rfl
        · cases d.take line with
          | error f => rfl
          | ok d' => exact @ih (k + 1) (some d') vs

/-- A compiled node is laid out properly. -/
theorem compile_laid {source name context : String} {vs : Variables} {n : Node}
    (hn : (compile source name context vs).1 = .ok (some n)) : n.Laid :=
  (compileFrom_ok (by simp) hn).1

/-- A compiled node has the name and the scene for which it was compiled, and is at its start. -/
theorem compile_header {source name context : String} {vs : Variables} {n : Node}
    (hn : (compile source name context vs).1 = .ok (some n)) :
    n.name = name ∧ n.context = context ∧ n.line = 0 :=
  (compileFrom_ok (by simp) hn).2

/-- A node that is found in files has been compiled from one of them. -/
theorem searchFiles_ok {name context : String} {vs : Variables}
    {files : List (Files.Path × Files.Entry)} {n : Node}
    (hn : (searchFiles name context vs files).1 = .ok n) :
    ∃ x ∈ files, ∃ source ws, readSource x.1 x.2 = .ok source ∧
      (compile source name context ws).1 = .ok (some n) := by
  induction files generalizing vs with
  | nil => cases hn
  | cons file rest ih =>
    unfold searchFiles at hn
    split at hn
    · cases hn
    · next source hread =>
      split at hn
      · cases hn
      · next hcompile =>
        cases hn
        exact ⟨file, List.mem_cons_self .., source, vs, hread, by rw [hcompile]⟩
      · obtain ⟨x, hx, hfound⟩ := ih hn
        exact ⟨x, List.mem_cons_of_mem _ hx, hfound⟩

/-- No node is found in files because none of them defines it, or because one of them cannot be read
or is malformed. -/
theorem searchFiles_error {name context : String} {vs : Variables}
    {files : List (Files.Path × Files.Entry)} {f : Failure}
    (hf : (searchFiles name context vs files).1 = .error f) :
    f = .noNode name ∨ (∃ x ∈ files, readSource x.1 x.2 = .error f) ∨
      ∃ path fault, f = .script path fault := by
  induction files generalizing vs with
  | nil => exact .inl (Except.error.inj hf).symm
  | cons file rest ih =>
    unfold searchFiles at hf
    split at hf
    · next f' hread =>
      obtain rfl := Except.error.inj hf
      exact .inr (.inl ⟨file, List.mem_cons_self .., hread⟩)
    · split at hf
      · exact .inr (.inr ⟨_, _, (Except.error.inj hf).symm⟩)
      · cases hf
      · rcases ih hf with hnone | ⟨x, hx, hread⟩ | hscript
        · exact .inl hnone
        · exact .inr (.inl ⟨x, List.mem_cons_of_mem _ hx, hread⟩)
        · exact .inr (.inr hscript)

/-- The variables do not matter for the node that is found in files. -/
theorem searchFiles_congr {name context : String} {files : List (Files.Path × Files.Entry)}
    (vs ws : Variables) :
    (searchFiles name context vs files).1 = (searchFiles name context ws files).1 := by
  induction files generalizing vs ws with
  | nil => rfl
  | cons file rest ih =>
    unfold searchFiles
    split
    · rfl
    · next source _ =>
      -- both searches find the same in this file and go on from other variables
      have hsame : (compile source name context vs).1 = (compile source name context ws).1 :=
        compileFrom_congr vs ws
      rcases hv : compile source name context vs with ⟨outcome, vs'⟩
      rcases hw : compile source name context ws with ⟨outcome', ws'⟩
      rw [hv, hw] at hsame
      obtain rfl : outcome = outcome' := hsame
      rcases outcome with f | _ | node
      · rfl
      · exact ih vs' ws'
      · rfl

/-- The scene only matters for a node that is found in files in that it is that of the node. -/
theorem searchFiles_context {name context : String} {vs : Variables}
    {files : List (Files.Path × Files.Entry)} (context' : String) :
    (searchFiles name context' vs files).1 =
      (searchFiles name context vs files).1.map fun n => { n with context := context' } := by
  induction files generalizing vs with
  | nil => rfl
  | cons file rest ih =>
    unfold searchFiles
    split
    · rfl
    · next source _ =>
      have hsame := @compileFrom_context name context 1 none vs (Text.lines source.toList) context'
      rw [Option.map_none] at hsame
      rw [compile, compile, hsame]
      rcases compileFrom name context 1 none vs (Text.lines source.toList) with ⟨f | _ | node, vs'⟩
      · rfl
      · exact ih
      · rfl

/-- A node that is found in a folder has been compiled from a script in it. -/
theorem search_ok {tree : Files.Tree} {folder : Files.Path} {vs : Variables}
    {name context : String} {n : Node} (hn : (search tree folder vs name context).result = .ok n) :
    ∃ scripts remarks, files tree folder = .ok (scripts, remarks) ∧ ∃ x ∈ scripts, ∃ source ws,
      readSource x.1 x.2 = .ok source ∧ (compile source name context ws).1 = .ok (some n) := by
  unfold search at hn
  split at hn
  · cases hn
  · next scripts remarks hfiles => exact ⟨scripts, remarks, hfiles, searchFiles_ok hn⟩

/-- The variables do not matter for the node that is found in a folder. -/
theorem search_congr {tree : Files.Tree} {folder : Files.Path} {name context : String}
    (vs ws : Variables) :
    (search tree folder vs name context).result = (search tree folder ws name context).result := by
  unfold search
  split
  · rfl
  · exact searchFiles_congr vs ws

/-- The scene only matters for a node that is found in a folder in that it is that of the node. -/
theorem search_context {tree : Files.Tree} {folder : Files.Path} {name context : String}
    (vs ws : Variables) (context' : String) :
    (search tree folder ws name context').result =
      (search tree folder vs name context).result.map fun n => { n with context := context' } := by
  rw [search_congr ws vs]
  unfold search
  split
  · rfl
  · exact searchFiles_context context'

/-- The variables do not matter for what is remarked on the way. -/
theorem search_remarks_congr {tree : Files.Tree} {folder : Files.Path} {name context : String}
    (vs ws : Variables) :
    (search tree folder vs name context).remarks =
      (search tree folder ws name context).remarks := by
  unfold search
  split
  · rfl
  · dsimp only
    rw [searchFiles_congr vs ws]

/-- A node that is found in a folder is laid out properly. -/
theorem search_laid {tree : Files.Tree} {folder : Files.Path} {vs : Variables}
    {name context : String} {n : Node} (hn : (search tree folder vs name context).result = .ok n) :
    n.Laid := by
  obtain ⟨_, _, _, _, _, source, ws, _, hcompile⟩ := search_ok hn
  exact compile_laid hcompile

/-- A node that is found in a folder has the name and the scene for which it was looked for, and is
at its start. -/
theorem search_header {tree : Files.Tree} {folder : Files.Path} {vs : Variables}
    {name context : String} {n : Node} (hn : (search tree folder vs name context).result = .ok n) :
    n.name = name ∧ n.context = context ∧ n.line = 0 := by
  obtain ⟨_, _, _, _, _, source, ws, _, hcompile⟩ := search_ok hn
  exact compile_header hcompile

end Script

end VisualNovel
