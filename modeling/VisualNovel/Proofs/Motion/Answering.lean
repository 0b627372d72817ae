import VisualNovel.Proofs.Motion.Validity

/-!
# Answering decisions that wait

A cursor that is taken from a stored traversal may have more than one decision without a choice. The
reader is then asked the decision that has been opened last, once for every choice that is missing,
and the answers are recorded for the decisions that wait, outermost first. They fit if each of these
has all the options of the one that is asked. The check of a stored traversal does not look at this,
and it is the only thing that it misses.

## Main definitions

* `Cursor.waiting`: the decisions of a cursor in which nothing has been chosen;
* `Node.Answerable`: all of them have the options of the decision that is asked;
* `Node.Secure`: what is looked up for a cursor is there, now and after every answer.

## Main results

* `Node.answerable_iff`: a cursor that fits is answerable exactly if it still fits after all answers
  that the reader may give;
* `Node.Fits.secure`: a cursor that fits and is answerable is secure;
* `Node.Secure.passConditionals`, `Node.Secure.passDecisions`, `Node.Secure.choosing`: moves keep a
  cursor secure, and the passes over the blocks are not stuck.
-/

namespace VisualNovel

open List (Forall₂)

/-- There is an element at an index exactly if the index is in range. -/
theorem exists_at?_iff {α : Type} {l : List α} {i : Int} :
    (∃ a, at? l i = some a) ↔ 0 ≤ i ∧ i < l.length := by
  constructor
  · rintro ⟨a, ha⟩
    obtain ⟨k, rfl, hk⟩ := at?_eq_some_iff.mp ha
    obtain ⟨hlt, -⟩ := List.getElem?_eq_some_iff.mp hk
    omega
  · rintro ⟨hnonneg, hlt⟩
    obtain ⟨k, rfl⟩ := Int.eq_ofNat_of_zero_le hnonneg
    have hk : k < l.length := by omega
    exact ⟨l[k], at?_eq_some_iff.mpr ⟨k, rfl, List.getElem?_eq_getElem hk⟩⟩

/-- A longer list has an element at every index at which a shorter one has. -/
theorem exists_at?_of_length_le {α : Type} {l l' : List α} (hle : l.length ≤ l'.length) {i : Int}
    {a : α} (ha : at? l i = some a) : ∃ a', at? l' i = some a' := by
  obtain ⟨hnonneg, hlt⟩ := exists_at?_iff.mp ⟨a, ha⟩
  exact exists_at?_iff.mpr ⟨hnonneg, by omega⟩

/-- Leaving blocks that exist with their ways is not stuck, goes forwards, and leaves such
blocks. -/
theorem Departure.leave_existing {ends? : Int → Int → Option (Int × Int)} {R : Int → Int → Prop}
    (hends : ∀ b w, R b w → (ends? b w).isSome) {bs ws : List Int} (h : Forall₂ R bs ws)
    {line : Int} (hline : 0 ≤ line) :
    (leave ends? bs ws line).stuck = false ∧ 0 ≤ (leave ends? bs ws line).line ∧
      Forall₂ R (leave ends? bs ws line).blocks (leave ends? bs ws line).ways := by
  obtain ⟨hstuck, ⟨hline, hblocks⟩, -⟩ := leave_induction
    (P := fun bs ws line => 0 ≤ line ∧ Forall₂ R bs ws) (h.imp hends) ⟨hline, h⟩ (by
      rintro b bs w ws line wayEnd blockEnd ⟨hline, hblocks⟩ - -
      exact ⟨le_trans hline (le_max_left _ _), (List.forall₂_cons.mp hblocks).2⟩)
  exact ⟨hstuck, hline, hblocks⟩

namespace Cursor

/-- The decisions that have been entered and in which nothing has been chosen, outermost first. -/
def waiting (c : Cursor) : List Int := c.decisions.drop c.choices.length

/-- The cursor after further choices have been recorded. -/
def answered (c : Cursor) (answers : List Int) : Cursor :=
  { c with choices := c.choices ++ answers }

/-- The decisions that wait are those behind the ones in which something has been chosen. -/
theorem waiting_eq {c : Cursor} {is js : List Int} (hdecisions : c.decisions = is ++ js)
    (hlength : is.length = c.choices.length) : c.waiting = js := by
  rw [waiting, hdecisions, ← hlength, List.drop_left]

/-- No decision waits if something has been chosen in each of them. -/
theorem eq_nil_of_settled {c : Cursor} {is js : List Int} (hdecisions : c.decisions = is ++ js)
    (hlength : is.length = c.choices.length) (hsettled : c.decisions.length ≤ c.choices.length) :
    js = [] := by
  rw [hdecisions, List.length_append, hlength] at hsettled
  exact List.length_eq_zero_iff.mp (by omega)

end Cursor

namespace Node

variable (n : Node)

/-- The decision that a cursor has opened last. -/
def openDecision? (c : Cursor) : Option Decision := c.decisions.getLast?.bind (at? n.decisions)

/-- The decisions that wait have all the options of the one that has been opened last, which is the
one that the reader is asked for each of them. -/
def Answerable (c : Cursor) : Prop :=
  ∀ i ∈ c.waiting, ∀ d ∈ at? n.decisions i, ∀ e ∈ n.openDecision? c,
    e.options.length ≤ d.options.length

instance (c : Cursor) : Decidable (n.Answerable c) :=
  inferInstanceAs (Decidable (∀ _ ∈ _, ∀ _ ∈ _, ∀ _ ∈ _, _))

/-- What is looked up for a cursor is there, and it still is whatever the reader answers. -/
structure Secure (c : Cursor) : Prop where
  /-- The cursor is not in front of the node. -/
  line : 0 ≤ c.line
  /-- The branches that have been entered exist. -/
  branches : Forall₂ n.HasBranch c.conditionals c.branches
  /-- The options that have been chosen exist, and so will those that are chosen in the decisions
  that wait. -/
  options : ∃ is js, c.decisions = is ++ js ∧ Forall₂ n.HasOption is c.choices ∧
    ∀ j ∈ js, ∃ d, at? n.decisions j = some d ∧
      ∀ e ∈ n.openDecision? c, e.options.length ≤ d.options.length

variable {n} {c : Cursor}

/-- A branch that exists has ends. -/
theorem HasBranch.isSome_ends {i w : Int} (h : n.HasBranch i w) : (n.branchEnds? i w).isSome := by
  obtain ⟨x, b, htakes⟩ := h
  simp [htakes.ends]

/-- An option that exists has ends. -/
theorem HasOption.isSome_ends {i w : Int} (h : n.HasOption i w) : (n.optionEnds? i w).isSome := by
  obtain ⟨d, o, hpicks⟩ := h
  simp [hpicks.ends]

/-- Where a decision waits, there is one to ask, if those that wait exist. -/
theorem exists_openDecision_of_waits {is js : List Int} (hdecisions : c.decisions = is ++ js)
    (hlength : is.length = c.choices.length) (hjs : ∀ j ∈ js, ∃ d, at? n.decisions j = some d)
    (hwaits : c.choices.length < c.decisions.length) : ∃ d, n.openDecision? c = some d := by
  have hne : js ≠ [] := by
    rintro rfl
    rw [hdecisions, List.append_nil, hlength] at hwaits
    exact lt_irrefl _ hwaits
  -- the decision that is asked is the last of those that wait
  obtain ⟨js', j, rfl⟩ := exists_concat hne
  obtain ⟨d, hd⟩ := hjs j (by simp)
  exact ⟨d, by simp [openDecision?, hdecisions, ← List.append_assoc, hd]⟩

/-- A cursor that misses a single choice at most is answerable. -/
theorem answerable_of_length_le (h : c.decisions.length ≤ c.choices.length + 1) :
    n.Answerable c := by
  intro i hi d hd e he
  -- the only decision that can wait is the one that is asked
  rcases List.eq_nil_or_concat c.decisions with hnil | ⟨is, j, hconcat⟩
  · simp [Cursor.waiting, hnil] at hi
  · rw [List.concat_eq_append] at hconcat
    have hlast : i = j := by
      rw [Cursor.waiting, hconcat, List.drop_append] at hi
      have hlength : is.length ≤ c.choices.length := by simpa [hconcat] using h
      rw [List.drop_eq_nil_of_le hlength, List.nil_append] at hi
      exact List.mem_singleton.mp (List.mem_of_mem_drop hi)
    have hsame : n.openDecision? c = some d := by
      simpa [openDecision?, hconcat, ← hlast] using hd
    obtain rfl := Option.some.inj (hsame.symm.trans he)
    exact le_rfl

/-- After all answers that are missing, a cursor that fits still does exactly if each decision that
waits has the option of its answer. -/
theorem fits_answered_iff (h : n.Fits c) {answers : List Int}
    (hlength : answers.length = c.waiting.length) :
    n.Fits (c.answered answers) ↔ Forall₂ n.HasOption c.waiting answers := by
  obtain ⟨⟨is, js, hdecisions, hoptions, -⟩, hbranches⟩ := blockMisfit?_eq_none_iff.mp h.2
  have hwaiting := Cursor.waiting_eq hdecisions hoptions.length_eq
  constructor
  · rintro ⟨-, hblocks⟩
    obtain ⟨⟨is', js', hdecisions', hoptions', -⟩, -⟩ := blockMisfit?_eq_none_iff.mp hblocks
    -- no decision waits any more
    have hall : is'.length = c.decisions.length := by
      rw [hoptions'.length_eq, hdecisions]
      simp [Cursor.answered, hlength, hwaiting, hoptions.length_eq]
    obtain ⟨rfl, -⟩ := List.append_inj (hdecisions'.symm.trans (List.append_nil _).symm) hall
    exact List.forall₂_drop_append _ _ _ hoptions'
  · intro hanswers
    refine ⟨h.1, blockMisfit?_eq_none_iff.mpr ⟨⟨c.decisions, [], ?_, ?_, by simp⟩, hbranches⟩⟩
    · exact (List.append_nil _).symm
    · rw [hwaiting] at hanswers
      rw [hdecisions]
      exact List.rel_append hoptions hanswers

/-- A cursor that fits is answerable exactly if it still fits after the reader has given all the
answers that are missing, whatever they are. -/
theorem answerable_iff (h : n.Fits c) : n.Answerable c ↔
    ∀ answers : List Int, answers.length = c.waiting.length →
      (∀ a ∈ answers, ∃ e o, n.openDecision? c = some e ∧ at? e.options a = some o) →
      n.Fits (c.answered answers) := by
  obtain ⟨⟨is, js, hdecisions, hoptions, hjs⟩, -⟩ := blockMisfit?_eq_none_iff.mp h.2
  have hwaiting := Cursor.waiting_eq hdecisions hoptions.length_eq
  constructor
  · intro hanswerable answers hlength hanswers
    refine (fits_answered_iff h hlength).mpr (List.forall₂_iff_zip.mpr ⟨hlength.symm, ?_⟩)
    intro j a hja
    obtain ⟨hj, ha⟩ := List.of_mem_zip hja
    obtain ⟨d, hd, -⟩ := hjs j (hwaiting ▸ hj)
    obtain ⟨e, o, he, ho⟩ := hanswers a ha
    obtain ⟨o', ho'⟩ := exists_at?_of_length_le (hanswerable j hj d hd e he) ho
    exact ⟨d, o', hd, ho'⟩
  · intro hall i hi d hd e he
    by_contra hlt
    -- otherwise the reader may choose an option behind those of a decision that waits
    obtain ⟨o, ho⟩ : ∃ o, at? e.options d.options.length = some o := exists_at?_iff.mpr (by omega)
    have hlength : (c.waiting.map fun _ => (d.options.length : Int)).length = c.waiting.length := by
      simp
    have hfits := hall _ hlength (by
      intro a ha
      obtain ⟨-, -, rfl⟩ := List.mem_map.mp ha
      exact ⟨e, o, he, ho⟩)
    have hanswers := (fits_answered_iff h hlength).mp hfits
    rw [List.forall₂_map_right_iff, List.forall₂_same] at hanswers
    obtain ⟨d', o', hd', ho'⟩ := hanswers i hi
    obtain rfl := Option.some.inj (hd'.symm.trans hd)
    have hrange := exists_at?_iff.mp ⟨o', ho'⟩
    omega

/-- A cursor that fits and is answerable is secure. -/
theorem Fits.secure (h : n.Fits c) (hanswerable : n.Answerable c) : n.Secure c := by
  obtain ⟨hline, hblocks⟩ := h
  obtain ⟨⟨is, js, hdecisions, hoptions, hjs⟩, hbranches⟩ := blockMisfit?_eq_none_iff.mp hblocks
  have hwaiting := Cursor.waiting_eq hdecisions hoptions.length_eq
  refine ⟨?_, hbranches, is, js, hdecisions, hoptions, fun j hj => ?_⟩
  · obtain ⟨hnonneg, -⟩ : 0 ≤ c.line ∧ c.line ≤ n.lines.length := by
      simpa [holdsLine] using hline
    exact hnonneg
  · obtain ⟨d, hd, -⟩ := hjs j hj
    exact ⟨d, hd, hanswerable j (hwaiting ▸ hj) d hd⟩

namespace Secure

/-- Where a node begins, nothing is open. -/
theorem init (n : Node) : n.Secure {} := ⟨le_rfl, .nil, [], [], rfl, .nil, by simp⟩

/-- The line of a cursor does not matter for its blocks. -/
theorem moveTo (h : n.Secure c) {line : Int} (hline : 0 ≤ line) : n.Secure (c.moveTo line) :=
  ⟨hline, h.branches, h.options⟩

/-- Where a decision waits, there is one to ask. -/
theorem exists_openDecision (h : n.Secure c) (hwaits : c.choices.length < c.decisions.length) :
    ∃ d, n.openDecision? c = some d := by
  obtain ⟨is, js, hdecisions, hoptions, hjs⟩ := h.options
  exact exists_openDecision_of_waits hdecisions hoptions.length_eq
    (fun j hj => (hjs j hj).imp fun _ => And.left) hwaits

/-- Leaving branches is not stuck and keeps a cursor secure. -/
theorem leaveBranches (h : n.Secure c) :
    (n.leaveBranches c).2 = false ∧ n.Secure (n.leaveBranches c).1 := by
  obtain ⟨hstuck, hline, hbranches⟩ := Departure.leave_existing
    (fun _ _ => HasBranch.isSome_ends) (List.forall₂_reverse_iff.mpr h.branches) h.line
  exact ⟨hstuck, hline, List.forall₂_reverse_iff.mpr hbranches, h.options⟩

/-- Leaving options where no decision waits is not stuck and keeps a cursor secure. Still no
decision waits. -/
theorem leaveOptions (h : n.Secure c) (hsettled : c.decisions.length ≤ c.choices.length) :
    (n.leaveOptions c).2 = false ∧ n.Secure (n.leaveOptions c).1 ∧
      Forall₂ n.HasOption (n.leaveOptions c).1.decisions (n.leaveOptions c).1.choices := by
  obtain ⟨is, js, hdecisions, hoptions, -⟩ := h.options
  obtain rfl := Cursor.eq_nil_of_settled hdecisions hoptions.length_eq hsettled
  rw [List.append_nil] at hdecisions
  subst hdecisions
  obtain ⟨hstuck, hline, hleft⟩ := Departure.leave_existing
    (fun _ _ => HasOption.isSome_ends) (List.forall₂_reverse_iff.mpr hoptions) h.line
  have hleft := List.forall₂_reverse_iff.mpr hleft
  exact ⟨hstuck, ⟨hline, h.branches, _, [], (List.append_nil _).symm, hleft, by simp⟩, hleft⟩

/-- Entering a conditional, or passing over it, keeps a cursor secure. -/
theorem enterConditional (hn : n.Laid) {m : Motion} (h : n.Secure m.cursor) {x : Conditional}
    (hx : x ∈ n.conditionals) (vs : Variables) (depth : Nat) :
    n.Secure (n.enterConditional vs depth m x).cursor := by
  obtain ⟨hstart, -⟩ := hn.conditional_within x hx
  have hlaid := hn.conditional_laid x hx
  unfold Node.enterConditional
  rcases hselect : x.select vs with ⟨choice, faults⟩
  cases choice with
  | none => exact h.moveTo (le_trans hstart hlaid.start_le_stop)
  | some choice =>
    obtain ⟨way, b⟩ := choice
    have hb : at? x.branches way = some b := Conditional.select_some (congrArg Prod.fst hselect)
    have hwithin := hlaid.branch_within (mem_of_at? hb)
    exact ⟨le_trans hstart hwithin.1,
      forall₂_concat.mpr ⟨h.branches, x, b, hn.at?_conditional hx, hb⟩, h.options⟩

/-- Passing over the conditionals is not stuck and keeps a cursor secure. -/
theorem passConditionals (hn : n.Laid) (h : n.Secure c) (vs : Variables) (depth : Nat)
    (seen : List Visit) : (n.passConditionals vs depth seen c).stuck = false ∧
      n.Secure (n.passConditionals vs depth seen c).cursor := by
  -- round by round: each one leaves branches and enters at most one conditional
  have hupTo (k : Nat) (m : Motion) (hm : n.Secure m.cursor) (hstuck : m.stuck = false) :
      (n.passConditionalsUpTo vs depth k m).stuck = false ∧
        n.Secure (n.passConditionalsUpTo vs depth k m).cursor := by
    induction k generalizing m with
    | zero => exact ⟨hstuck, hm⟩
    | succ k ih =>
      obtain ⟨hleft, hsecure⟩ := hm.leaveBranches
      unfold passConditionalsUpTo
      dsimp only
      rw [hleft]
      simp only [Bool.false_eq_true, if_false]
      cases hat : n.conditionalAt? depth m.seen (n.leaveBranches m.cursor).1 with
      | none => exact ⟨rfl, hsecure⟩
      | some x =>
        obtain ⟨hx, -⟩ := conditionalAt?_some hat
        exact ih _ (enterConditional hn hsecure hx vs depth) rfl
  exact hupTo _ { cursor := c, seen } h rfl

/-- Passing over the decisions is not stuck and keeps a cursor secure. If a decision is asked, it
waits. -/
theorem passDecisions (hn : n.Laid) (h : n.Secure c) {depth : Nat} {seen : List Visit}
    {c' : Cursor} {turn : Turn} (hpass : n.passDecisions depth seen c = (c', turn)) :
    turn ≠ .stuck ∧ n.Secure c' ∧
      ∀ d, turn = .ask d → c'.choices.length < c'.decisions.length := by
  unfold Node.passDecisions at hpass
  split at hpass
  · next hwaits =>
    -- a decision waits already and is asked once more
    obtain ⟨d, hd⟩ := h.exists_openDecision hwaits
    rw [openDecision?] at hd
    rw [hd] at hpass
    obtain ⟨rfl, rfl⟩ := Prod.mk.inj hpass
    exact ⟨nofun, h, fun _ _ => hwaits⟩
  · next hsettled =>
    obtain ⟨hstuck, hsecure, hoptions⟩ := h.leaveOptions (not_lt.mp hsettled)
    obtain ⟨c₁, hc₁⟩ : ∃ c₁, n.leaveOptions c = (c₁, false) := ⟨_, Prod.ext rfl hstuck⟩
    simp only [hc₁] at hpass hsecure hoptions
    cases hat : n.decisionAt? depth seen c₁ with
    | none =>
      rw [hat] at hpass
      obtain ⟨rfl, rfl⟩ := Prod.mk.inj hpass
      exact ⟨nofun, hsecure, nofun⟩
    | some d =>
      rw [hat] at hpass
      obtain ⟨rfl, rfl⟩ := Prod.mk.inj hpass
      obtain ⟨hmem, -⟩ := decisionAt?_some hat
      have hd := hn.at?_decision hmem
      refine ⟨nofun, ⟨hsecure.line, hsecure.branches, c₁.decisions, [d.index], rfl, hoptions, ?_⟩,
        fun _ _ => ?_⟩
      · -- the decision that is opened is the one that is asked
        intro j hj
        obtain rfl := List.mem_singleton.mp hj
        refine ⟨d, hd, fun e he => ?_⟩
        have hopen : at? n.decisions d.index = some e := by simpa [openDecision?] using he
        obtain rfl := Option.some.inj (hopen.symm.trans hd)
        exact le_rfl
      · rw [List.length_append, hoptions.length_eq]
        exact Nat.lt_succ_self _

/-- Choosing an option of the decision that is asked keeps a cursor secure. -/
theorem choosing (hn : n.Laid) (h : n.Secure c) (hwaits : c.choices.length < c.decisions.length)
    {e : Decision} (he : n.openDecision? c = some e) {way : Int} {o : Choice}
    (ho : at? e.options way = some o) : n.Secure (c.choosing way o.start) := by
  obtain ⟨is, js, hdecisions, hoptions, hjs⟩ := h.options
  -- the answer is recorded for the outermost of the decisions that wait
  cases js with
  | nil =>
    rw [hdecisions, List.append_nil, hoptions.length_eq] at hwaits
    exact absurd hwaits (lt_irrefl _)
  | cons j js =>
    obtain ⟨⟨d, hd, hle⟩, hrest⟩ := List.forall_mem_cons.mp hjs
    obtain ⟨o', ho'⟩ := exists_at?_of_length_le (hle e he) ho
    refine ⟨?_, h.branches, is ++ [j], js, by simp [Cursor.choosing, hdecisions],
      forall₂_concat.mpr ⟨hoptions, d, o', hd, ho'⟩, hrest⟩
    -- the option lies in its decision, and that one in the node
    have hmem : e ∈ n.decisions := by
      obtain ⟨i, -, hi⟩ := Option.bind_eq_some_iff.mp he
      exact mem_of_at? hi
    obtain ⟨hstart, -⟩ := hn.decision_within e hmem
    exact le_trans hstart ((hn.decision_laid e hmem).option_within (mem_of_at? ho)).1

end Secure

end Node

end VisualNovel
