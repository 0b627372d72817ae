import VisualNovel.Proofs.Motion.Passing

/-!
# What the check of a traversal finds out

Before a session goes on from a stored traversal, its cursors are checked against their nodes. The
check finds nothing wrong with a cursor exactly if it is in its node, its open blocks exist, and so
do the branches and options recorded for them. This is less than being poised: nothing is said of
how blocks and lines go together, and any number of decisions may be without a choice.

## Main definitions

* `Node.HasBranch`, `Node.HasOption`: numbers stand for some branch or some option;
* `Node.Fits`: the check finds nothing wrong with a cursor.

## Main results

* `Node.blockMisfit?_eq_none_iff`: what the check of open blocks finds out;
* `Traversal.misfit?_eq_none_iff`: a traversal fits exactly if all its cursors do;
* `Node.Poised.fits`, `Node.Poised.fits_opening`: a poised cursor fits, whether or not a decision
  waits there.
-/

namespace VisualNovel

open List (Forall₂)

namespace Node

variable {n : Node} {depth : Nat} {seen : List Visit} {c : Cursor}

variable (n) in
/-- The numbers stand for some branch of the node. -/
def HasBranch (index way : Int) : Prop := ∃ x b, n.Takes index way x b

variable (n) in
/-- The numbers stand for some option of the node. -/
def HasOption (index way : Int) : Prop := ∃ d o, n.Picks index way d o

variable (n) in
/-- A cursor is in its node or right after it, and nothing is wrong with its open blocks. -/
def Fits (c : Cursor) : Prop := n.holdsLine c.line ∧ n.blockMisfit? c = none

/-- A branch that has been entered is one of the node. -/
theorem BranchOpen.hasBranch {line i w : Int} (h : n.BranchOpen line i w) : n.HasBranch i w := by
  obtain ⟨x, b, htakes, -⟩ := h
  exact ⟨x, b, htakes⟩

/-- An option that has been entered is one of the node. -/
theorem OptionOpen.hasOption {line i w : Int} (h : n.OptionOpen line i w) : n.HasOption i w := by
  obtain ⟨d, o, hpicks, -⟩ := h
  exact ⟨d, o, hpicks⟩

/-- Decisions in which nothing has been chosen fit if they exist and have options. -/
theorem decisionMisfit?_nil_iff {js : List Int} : n.decisionMisfit? js [] = none ↔
    ∀ j ∈ js, ∃ d, at? n.decisions j = some d ∧ d.options ≠ [] := by
  induction js with
  | nil => simp [decisionMisfit?]
  | cons j js ih =>
    rw [List.forall_mem_cons, ← ih]
    cases hd : at? n.decisions j with
    | none => simp [decisionMisfit?, hd]
    | some d =>
      -- the choice that is missing is taken to be the first option
      have hfirst (os : List Choice) : at? os 0 = os.head? := by simp [at?, List.head?_eq_getElem?]
      cases hos : d.options <;> simp [decisionMisfit?, hd, hfirst, hos]

/-- Decisions fit if those in which something has been chosen have the option, and if there is
something to choose in the others. -/
theorem decisionMisfit?_append_iff {is js ws : List Int} (hlength : is.length = ws.length) :
    n.decisionMisfit? (is ++ js) ws = none ↔ Forall₂ n.HasOption is ws ∧
      ∀ j ∈ js, ∃ d, at? n.decisions j = some d ∧ d.options ≠ [] := by
  induction is generalizing ws with
  | nil =>
    obtain rfl := List.length_eq_zero_iff.mp hlength.symm
    simpa using decisionMisfit?_nil_iff
  | cons i is ih =>
    obtain ⟨w, ws, rfl⟩ := List.exists_cons_of_length_eq_add_one hlength.symm
    have ih := ih (Nat.succ.inj hlength)
    rw [List.forall₂_cons, and_assoc, ← ih]
    cases hd : at? n.decisions i with
    | none => simp [decisionMisfit?, HasOption, Picks, hd]
    | some d => cases ho : at? d.options w <;> simp [decisionMisfit?, HasOption, Picks, hd, ho]

/-- Conditionals fit if they have the branches that have been taken in them. -/
theorem conditionalMisfit?_eq_none_iff {is ws : List Int} (hlength : ws.length = is.length) :
    n.conditionalMisfit? is ws = none ↔ Forall₂ n.HasBranch is ws := by
  induction is generalizing ws with
  | nil =>
    obtain rfl := List.length_eq_zero_iff.mp hlength
    simp [conditionalMisfit?]
  | cons i is ih =>
    obtain ⟨w, ws, rfl⟩ := List.exists_cons_of_length_eq_add_one hlength
    have ih := ih (Nat.succ.inj hlength)
    rw [List.forall₂_cons, ← ih]
    cases hx : at? n.conditionals i with
    | none => simp [conditionalMisfit?, HasBranch, Takes, hx]
    | some x => cases hb : at? x.branches w <;> simp [conditionalMisfit?, HasBranch, Takes, hx, hb]

/-- Nothing is wrong with the open blocks of a cursor exactly if they exist with the branches and
options recorded for them, and if there is something to choose in those decisions that wait. -/
theorem blockMisfit?_eq_none_iff : n.blockMisfit? c = none ↔
    (∃ is js, c.decisions = is ++ js ∧ Forall₂ n.HasOption is c.choices ∧
      ∀ j ∈ js, ∃ d, at? n.decisions j = some d ∧ d.options ≠ []) ∧
    Forall₂ n.HasBranch c.conditionals c.branches := by
  unfold blockMisfit?
  split
  · next huneven =>
    simp only [reduceCtorEq, false_iff]
    rintro ⟨⟨is, js, hdecisions, hoptions, -⟩, hbranches⟩
    have hchoices := hoptions.length_eq
    rw [hdecisions, List.length_append, hbranches.length_eq] at huneven
    omega
  · next heven =>
    obtain ⟨hchoices, hbranches⟩ : c.choices.length ≤ c.decisions.length ∧
        c.branches.length = c.conditionals.length := by omega
    -- as many decisions have an option as options have been recorded; the others wait
    have hsplit := (List.take_append_drop c.choices.length c.decisions).symm
    have hlength : (c.decisions.take c.choices.length).length = c.choices.length := by
      simpa using hchoices
    have hor {a b : Option Misfit} : (a <|> b) = none ↔ a = none ∧ b = none := by
      cases a <;> simp
    rw [hor, conditionalMisfit?_eq_none_iff hbranches, and_congr_left_iff]
    intro _
    constructor
    · intro hfits
      rw [hsplit, decisionMisfit?_append_iff hlength] at hfits
      exact ⟨_, _, hsplit, hfits⟩
    · rintro ⟨is, js, hdecisions, hoptions, hjs⟩
      rw [hdecisions, decisionMisfit?_append_iff hoptions.length_eq]
      exact ⟨hoptions, hjs⟩

namespace Poised

variable (h : n.Poised depth seen c)

include h

/-- A poised cursor is in its node. -/
theorem holdsLine : n.holdsLine c.line := by
  obtain ⟨h₁, h₂⟩ := h.within
  simp [Node.holdsLine, h₁, h₂]

/-- A poised cursor fits. -/
theorem fits : n.Fits c := by
  refine ⟨h.holdsLine, blockMisfit?_eq_none_iff.mpr ⟨⟨c.decisions, [], by simp, ?_, by simp⟩, ?_⟩⟩
  · exact h.options_open.imp fun _ _ => OptionOpen.hasOption
  · exact h.branches_open.imp fun _ _ => BranchOpen.hasBranch

/-- So it does when a decision waits. -/
theorem fits_opening (hn : n.Laid) {d : Decision} (hd : d ∈ n.decisions) :
    n.Fits (c.opening d.index) := by
  refine ⟨h.holdsLine, blockMisfit?_eq_none_iff.mpr ⟨⟨c.decisions, [d.index], rfl, ?_, ?_⟩, ?_⟩⟩
  · exact h.options_open.imp fun _ _ => OptionOpen.hasOption
  · intro j hj
    obtain rfl := List.mem_singleton.mp hj
    exact ⟨d, hn.at?_decision hd, (hn.decision_laid d hd).nonempty⟩
  · exact h.branches_open.imp fun _ _ => BranchOpen.hasBranch

end Poised

end Node

namespace Traversal

/-- Suspended frames fit exactly if their cursors do. -/
theorem suspendedMisfit?_eq_none_iff {fs : List Frame} {ns : List Node}
    (hlength : fs.length = ns.length) : suspendedMisfit? fs ns = none ↔
      Forall₂ (fun f n => n.Fits f.suspended) fs ns := by
  induction fs generalizing ns with
  | nil =>
    obtain rfl := List.length_eq_zero_iff.mp hlength.symm
    simp [suspendedMisfit?]
  | cons f fs ih =>
    obtain ⟨n, ns, rfl⟩ := List.exists_cons_of_length_eq_add_one hlength.symm
    have ih := ih (Nat.succ.inj hlength)
    rw [List.forall₂_cons, ← ih]
    cases hline : n.holdsLine f.suspended.line <;>
      cases hblocks : n.blockMisfit? f.suspended <;>
      simp [suspendedMisfit?, Node.Fits, hline, hblocks]

/-- A traversal fits exactly if its suspended frames and its cursor do. -/
theorem misfit?_eq_none_iff {t : Traversal} {fs : List Frame} {f : Frame} {ns : List Node}
    {n : Node} (hframes : t.frames = fs ++ [f]) (hlength : fs.length = ns.length) :
    t.misfit? (ns ++ [n]) = none ↔
      Forall₂ (fun f n => n.Fits f.suspended) fs ns ∧ n.Fits t.cursor := by
  rw [← suspendedMisfit?_eq_none_iff hlength]
  cases hfs : suspendedMisfit? fs ns <;> cases hline : n.holdsLine t.cursor.line <;>
    simp [misfit?, hframes, Node.Fits, hfs, hline]

end Traversal

end VisualNovel
