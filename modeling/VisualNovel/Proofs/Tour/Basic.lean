import VisualNovel.Command
import VisualNovel.Proofs.Motion.Passing

/-!
# Tours of a node

From the moment it is entered to the moment it is complete, a node is walked through in rounds. A
round passes over the conditionals and the decisions at the cursor; if no decision waits and the
cursor is still at its line, the line is taken up. Between two rounds other nodes may run, and the
reader goes on or chooses. A tour is what happens in a node in this way, and its deeds are what is
worth remembering of it.

## Main definitions

* `Deed`: something that happens in a node;
* `Node.Round`: both passes over the blocks;
* `Tour`: the cursors, the visits and the deeds of a node;
* `Node.deeds`: the deeds of a single round.

## Main results

* `Node.Poised.round`: the passes over the blocks come to a decision or to the end of a round;
* `Tour.poised_stands`: the cursor of a tour fits its node and what goes on there.
-/

namespace VisualNovel

/-- What a session does in a node. -/
inductive Stance where
  /-- It has come to a line at which it has not looked for blocks. -/
  | arrived
  /-- It has been carried to a line by blocks. -/
  | moved
  /-- An option has just been chosen. -/
  | answered
  /-- The reader has to choose. -/
  | asking (d : Decision)
  /-- A line is on screen. -/
  | showing
  deriving DecidableEq, Repr

/-- The session goes on by itself. -/
def Stance.GoesOn : Stance → Prop
  | arrived | moved | answered => True
  | asking _ | showing => False

/-- What the traversal records while the cursor is at a place: a decision that waits is open. -/
def Stance.cursor : Stance → Cursor → Cursor
  | asking d, c => c.opening d.index
  | _, c => c

/-- While the session goes on by itself, no decision waits. -/
theorem Stance.GoesOn.cursor_eq {st : Stance} (h : st.GoesOn) (c : Cursor) : st.cursor c = c := by
  cases st <;> first | rfl | cases h

/-- What happens in a node. -/
inductive Deed where
  /-- Conditionals have led the cursor to another line. -/
  | led (cursor : Cursor) (line : Int)
  /-- A decision has been opened for the reader to choose. The conditionals had left the cursor at
  the line. -/
  | asked (line : Int) (cursor : Cursor) (d : Decision)
  /-- An option of a decision has been chosen. -/
  | chose (d : Decision) (o : Choice)
  /-- The line at the cursor has been presented or, if it is a command, carried out. -/
  | played (cursor : Cursor)
  deriving DecidableEq, Repr

/-- The deed of conditionals, if there is one. -/
def Cursor.leads (c : Cursor) (line : Int) : List Deed :=
  if line = c.line then [] else [.led c line]

/-- Conditionals have led the cursor as they are said to have. -/
theorem Cursor.mem_leads {c : Cursor} {line : Int} {x : Deed} :
    x ∈ c.leads line ↔ line ≠ c.line ∧ x = .led c line := by
  unfold Cursor.leads
  split <;> simp_all

/-- Something holds of each deed and of those before it. -/
def AtEach (P : List Deed → Deed → Prop) (deeds : List Deed) : Prop :=
  ∀ before x after, deeds = before ++ x :: after → P before x

section AtEach

variable {P : List Deed → Deed → Prop} {deeds : List Deed}

theorem atEach_nil : AtEach P [] := by
  intro before x after h
  simp at h

/-- It holds of each deed of a longer list if it also holds of the last one. -/
theorem AtEach.concat (h : AtEach P deeds) {x : Deed} (hx : P deeds x) :
    AtEach P (deeds ++ [x]) := by
  intro before y after heq
  rcases List.eq_nil_or_concat after with rfl | ⟨init, z, rfl⟩
  · obtain ⟨rfl, hxy⟩ := List.append_inj' heq rfl
    obtain rfl := (List.cons.inj hxy).1
    exact hx
  · have heq : deeds ++ [x] = (before ++ y :: init) ++ [z] := by simpa using heq
    exact h before y init (List.append_inj' heq rfl).1

/-- What is said of other deeds only holds when conditionals have led the cursor. -/
theorem AtEach.leads (h : AtEach P deeds) (c : Cursor) (line : Int)
    (hled : P deeds (.led c line)) : AtEach P (deeds ++ c.leads line) := by
  unfold Cursor.leads
  split
  · simpa using h
  · exact h.concat hled

end AtEach

namespace Script

/-- A content line is a command, or something is said in it. -/
def isPlayable (text : String) : Bool :=
  Command.isCommandLine text.toList || !(Spoken.ofLine text).text.isEmpty

end Script

namespace Node

/-- Both passes over the blocks at a cursor in a node: `m` is how the conditionals are passed and
`c'` is the cursor after options have been left. -/
def Round (n : Node) (depth : Nat) (seen : List Visit) (c : Cursor) (m : Motion) (c' : Cursor) :
    Prop :=
  c.line < n.lines.length ∧
    ∃ vs, n.passConditionals vs depth seen c = m ∧ (n.leaveOptions m.cursor).1 = c'

/-- The deeds of a round. -/
def deeds (n : Node) (vs : Variables) (depth : Nat) (seen : List Visit) (c : Cursor) :
    List Deed :=
  let m := n.passConditionals vs depth seen c
  c.leads m.cursor.line ++
    match n.passDecisions depth m.seen m.cursor with
    | (c', .ask d) => [.asked m.cursor.line c' d]
    | (c', .onward) =>
      if c'.line = c.line ∧ (at? n.lines c.line).any Script.isPlayable then [.played c'] else []
    | (_, .stuck) => []

end Node

/-- What may happen in a node that is the innermost of so many: the visits that are remembered, the
cursor without a decision that waits, what is going on, and what has happened so far. -/
inductive Tour (n : Node) (depth : Nat) :
    List Visit → Cursor → Stance → List Deed → Prop where
  /-- The node is entered. -/
  | enter {seen : List Visit} (hseen : ∀ kind index, n.visit depth kind index ∉ seen) :
      Tour n depth seen {} .arrived []
  /-- Other nodes run, or the session rests there. -/
  | forget {seen seen' : List Visit} {c : Cursor} {deeds : List Deed}
      (h : Tour n depth seen c .arrived deeds)
      (hseen : ∀ kind index, n.visit depth kind index ∈ seen' → n.visit depth kind index ∈ seen) :
      Tour n depth seen' c .arrived deeds
  /-- A decision is opened. -/
  | ask {seen : List Visit} {c c' : Cursor} {st : Stance} {deeds : List Deed} {m : Motion}
      {d : Decision} (h : Tour n depth seen c st deeds) (hst : st.GoesOn)
      (hround : n.Round depth seen c m c') (hd : n.decisionAt? depth m.seen c' = some d) :
      Tour n depth m.seen c' (.asking d)
        (deeds ++ (c.leads m.cursor.line ++ [.asked m.cursor.line (c'.opening d.index) d]))
  /-- Blocks carry the cursor to another line. -/
  | move {seen : List Visit} {c c' : Cursor} {st : Stance} {deeds : List Deed} {m : Motion}
      (h : Tour n depth seen c st deeds) (hst : st.GoesOn) (hround : n.Round depth seen c m c')
      (hd : n.decisionAt? depth m.seen c' = none) (hmoved : c'.line ≠ c.line) :
      Tour n depth m.seen c' .moved (deeds ++ c.leads m.cursor.line)
  /-- A command is carried out. -/
  | command {seen : List Visit} {c c' : Cursor} {st : Stance} {deeds : List Deed} {m : Motion}
      (h : Tour n depth seen c st deeds) (hst : st.GoesOn) (hround : n.Round depth seen c m c')
      (hd : n.decisionAt? depth m.seen c' = none) (hline : c'.line = c.line) :
      Tour n depth m.seen (c'.moveTo (c'.line + 1)) .arrived
        (deeds ++ (c.leads m.cursor.line ++ [.played c']))
  /-- A line in which nothing is said is passed over. -/
  | skip {seen : List Visit} {c c' : Cursor} {st : Stance} {deeds : List Deed} {m : Motion}
      (h : Tour n depth seen c st deeds) (hst : st.GoesOn) (hround : n.Round depth seen c m c')
      (hd : n.decisionAt? depth m.seen c' = none) (hline : c'.line = c.line) :
      Tour n depth m.seen (c'.moveTo (c'.line + 1)) .arrived (deeds ++ c.leads m.cursor.line)
  /-- A line is presented. -/
  | present {seen : List Visit} {c c' : Cursor} {st : Stance} {deeds : List Deed} {m : Motion}
      (h : Tour n depth seen c st deeds) (hst : st.GoesOn) (hround : n.Round depth seen c m c')
      (hd : n.decisionAt? depth m.seen c' = none) (hline : c'.line = c.line) :
      Tour n depth m.seen c' .showing (deeds ++ (c.leads m.cursor.line ++ [.played c']))
  /-- The reader goes on. -/
  | advance {seen : List Visit} {c : Cursor} {deeds : List Deed}
      (h : Tour n depth seen c .showing deeds) :
      Tour n depth [] (c.moveTo (c.line + 1)) .arrived deeds
  /-- The reader chooses. -/
  | choose {seen : List Visit} {c : Cursor} {deeds : List Deed} {d : Decision} {way : Int}
      {o : Choice} (h : Tour n depth seen c (.asking d) deeds) (ho : at? d.options way = some o) :
      Tour n depth [n.visit depth .decision d.index] ((c.opening d.index).choosing way o.start)
        .answered (deeds ++ [.chose d o])

/-- What a round over the blocks of a poised cursor comes to. -/
structure Node.Turned (n : Node) (depth : Nat) (seen : List Visit) (c : Cursor) (m : Motion)
    (c' : Cursor) : Prop where
  /-- The conditionals have been passed over. -/
  passed : n.PassedConditionals depth seen c m.seen m.cursor
  /-- The cursor between the passes fits the node. -/
  poised_between : n.Poised depth m.seen m.cursor
  /-- Then the innermost branch goes on. -/
  branch_unfinished : n.BranchUnfinished m.cursor
  /-- No conditional is left to enter. -/
  no_conditional : n.conditionalAt? depth m.seen m.cursor = none
  /-- Options have been left. -/
  left : n.LeftOptions m.cursor c'
  /-- The cursor fits the node. -/
  poised : n.Poised depth m.seen c'
  /-- The innermost option goes on. -/
  option_unfinished : n.OptionUnfinished c'
  /-- At most one decision is open. -/
  tail_nil : c'.decisions.tail = []

namespace Node.Turned

variable {n : Node} {depth : Nat} {seen : List Visit} {c c' : Cursor} {m : Motion}

/-- A round does not go back. -/
theorem line_le (h : n.Turned depth seen c m c') : c.line ≤ c'.line :=
  le_trans h.passed.line_le h.left.line_le

/-- When both passes have been made, the conditionals have nothing more to do where the first one
ended. -/
theorem settled (h : n.Turned depth seen c m c') : n.Settled m.cursor :=
  h.poised_between.settled h.branch_unfinished h.no_conditional

/-- They have nothing more to do where a round that has not moved the cursor ends. -/
theorem settled_of_stays (h : n.Turned depth seen c m c') (hstays : c'.line ≤ c.line) :
    n.Settled c' := by
  have hle := h.passed.line_le
  have hle' := h.left.line_le
  exact h.settled.congr (by omega) h.left.conditionals h.left.branches

/-- A decision that is open after a round has been open before it. -/
theorem mem_decisions (h : n.Turned depth seen c m c') {i : Int} (hi : i ∈ c'.decisions) :
    i ∈ c.decisions := by
  rw [← h.passed.decisions]
  exact h.left.decisions.subset hi

end Node.Turned

/-- A round over the blocks of a poised cursor. -/
theorem Node.Round.turned {n : Node} (hn : n.Laid) {depth : Nat} {seen : List Visit}
    {c c' : Cursor} {m : Motion} (hround : n.Round depth seen c m c')
    (h : n.Poised depth seen c) : n.Turned depth seen c m c' := by
  obtain ⟨-, vs, rfl, rfl⟩ := hround
  obtain ⟨-, hbetween, hpassed, hbranch, hnone⟩ := h.passConditionals hn vs
  obtain ⟨-, hpoised, hleft, hoption, htail⟩ := hbetween.leaveOptions hn
  exact ⟨hpassed, hbetween, hbranch, hnone, hleft, hpoised, hoption, htail⟩

/-- From a poised cursor the passes over the blocks make a round, at whose end either a decision is
opened or there is none to open. -/
theorem Node.Poised.round {n : Node} (hn : n.Laid) {depth : Nat} {seen : List Visit} {c : Cursor}
    (h : n.Poised depth seen c) (hline : c.line < n.lines.length) {vs : Variables} {m : Motion}
    (hm : n.passConditionals vs depth seen c = m) :
    m.stuck = false ∧ ∀ c' turn, n.passDecisions depth m.seen m.cursor = (c', turn) →
      (∃ c₀ d, turn = .ask d ∧ c' = c₀.opening d.index ∧ n.Round depth seen c m c₀ ∧
        n.decisionAt? depth m.seen c₀ = some d) ∨
      (turn = .onward ∧ n.Round depth seen c m c' ∧ n.decisionAt? depth m.seen c' = none) := by
  obtain ⟨hstuck, hbetween, -⟩ := h.passConditionals hn vs
  rw [hm] at hstuck hbetween
  refine ⟨hstuck, fun c' turn hd => ?_⟩
  -- the second pass leaves options and then looks for a decision at the line where it ends
  rw [passDecisions_eq hn hbetween] at hd
  have hround : n.Round depth seen c m (n.leaveOptions m.cursor).1 := ⟨hline, vs, hm, rfl⟩
  split at hd
  · next hnone =>
    obtain ⟨rfl, rfl⟩ := Prod.mk.inj hd
    exact .inr ⟨rfl, hround, hnone⟩
  · next d hsome =>
    obtain ⟨rfl, rfl⟩ := Prod.mk.inj hd
    exact .inl ⟨_, d, rfl, rfl, hround, hsome⟩

namespace Tour

variable {n : Node} {depth : Nat} {seen : List Visit} {c : Cursor} {st : Stance}
  {deeds : List Deed}

/-- What holds of the cursor of a tour, besides that it fits the node. -/
def Stands (n : Node) (depth : Nat) (seen : List Visit) (c : Cursor) : Stance → Prop
  | .asking d => n.decisionAt? depth seen c = some d ∧ n.OptionUnfinished c ∧
      c.decisions.tail = []
  | .showing => n.decisionAt? depth seen c = none ∧ n.OptionUnfinished c ∧
      c.decisions.tail = [] ∧ c.line < n.lines.length
  | _ => True

/-- The cursor of a tour fits its node and what goes on there. -/
theorem poised_stands (hn : n.Laid) (h : Tour n depth seen c st deeds) :
    n.Poised depth seen c ∧ Stands n depth seen c st := by
  -- on the tour: rounds keep the cursor poised, and so do steps to the next line and choices
  induction h with
  | enter hseen => exact ⟨.init n depth _ hseen, trivial⟩
  | forget _ hseen ih => exact ⟨ih.1.forget hseen, trivial⟩
  | ask _ _ hround hd ih =>
    have hturned := hround.turned hn ih.1
    exact ⟨hturned.poised, hd, hturned.option_unfinished, hturned.tail_nil⟩
  | move _ _ hround _ _ ih => exact ⟨(hround.turned hn ih.1).poised, trivial⟩
  | command _ _ hround _ hline ih | skip _ _ hround _ hline ih =>
    exact ⟨(hround.turned hn ih.1).poised.moveTo _ (by omega) (by have := hround.1; omega), trivial⟩
  | present _ _ hround hd hline ih =>
    have hturned := hround.turned hn ih.1
    exact ⟨hturned.poised, hd, hturned.option_unfinished, hturned.tail_nil, by
      have := hround.1
      omega⟩
  | advance _ ih =>
    obtain ⟨hpoised, -, -, -, hlt⟩ := ih
    exact ⟨(hpoised.moveTo _ (by omega) (by omega)).forget (by simp), trivial⟩
  | choose _ ho ih =>
    obtain ⟨hpoised, hd, hunfinished, htail⟩ := ih
    obtain ⟨hmem, hstart, hopen, -⟩ := Node.decisionAt?_some hd
    exact ⟨hpoised.choose hn hunfinished htail hmem hstart hopen ho, trivial⟩

/-- The cursor of a tour fits its node. -/
theorem poised (hn : n.Laid) (h : Tour n depth seen c st deeds) : n.Poised depth seen c :=
  (h.poised_stands hn).1

end Tour

end VisualNovel
