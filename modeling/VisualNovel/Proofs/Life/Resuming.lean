import VisualNovel.Proofs.Life.Invariant
import VisualNovel.Proofs.Life.Restore
import VisualNovel.Proofs.Motion.Resuming
import VisualNovel.Proofs.Motion.Validity
import VisualNovel.Proofs.Tour.Conditions

/-!
# Taking up a session again

A session that waits for the reader can be stored, and another one can take it up again. Its nodes
are found and its traversal fits them, and the first step of the run decides what becomes of it.

## Main definitions

* `Session.Resumes`: a session that is about to run on from where another one waits;
* `Session.TakesUp`: what it takes for that to lead to where the other one waits;
* `Session.Reproduces`: a session is to the reader what another one is.

## Main results

* `Session.At.resumes_takenUp`: what is restored is a session that resumes the stored one;
* `Session.Resumes.step_choosing`, `Session.Resumes.step_presenting`: its first step;
* `Session.Resumes.not_breaks`: how the first step can fail.
-/

namespace VisualNovel

/-- A change that does not show leaves what is shown of a list. -/
theorem map_modifyLast {α β : Type} {f : α → α} {g : α → β} (hf : ∀ a, g (f a) = g a)
    (l : List α) : (modifyLast f l).map g = l.map g := by
  rcases List.eq_nil_or_concat l with rfl | ⟨as, a, rfl⟩
  · rfl
  · rw [List.concat_eq_append, modifyLast_concat]
    simp [hf]

/-- Nodes that are put at the lines of frames are the same but for the lines. -/
theorem Traversal.map_rewound_nodesAt {t : Traversal} {ns : List Node}
    (hlength : t.frames.length = ns.length) :
    (t.nodesAt ns).map Node.rewound = ns.map Node.rewound := by
  have hat (n : Node) : Node.rewound { n with line := t.cursor.line } = n.rewound := rfl
  refine (map_modifyLast hat _).trans ?_
  generalize t.frames = fs at hlength
  induction fs generalizing ns with
  | nil =>
    obtain rfl := List.length_eq_zero_iff.mp hlength.symm
    rfl
  | cons f fs ih =>
    cases ns with
    | nil => cases hlength
    | cons n ns =>
      rw [List.zipWith_cons_cons, List.map_cons, ih (Nat.succ.inj hlength)]
      rfl

/-- Where the same decision waits, the cursors are the same. -/
theorem Cursor.opening_inj {c c' : Cursor} {index : Int} :
    c.opening index = c'.opening index ↔ c = c' := by
  constructor
  · cases c
    cases c'
    simp [opening]
  · rintro rfl
    rfl

/-- The line of a node does not matter for what its conditionals have to do. -/
theorem Node.settled_rewound {n : Node} {c : Cursor} : n.rewound.Settled c ↔ n.Settled c :=
  ⟨fun h => ⟨h.unfinished, h.at_line⟩, fun h => ⟨h.unfinished, h.at_line⟩⟩

namespace Stacked

variable {w : Shelf} {seen : List Visit} {fs : List Frame} {ns : List Node} {ys : List Stay}

/-- The scripts hold the nodes that wait. -/
theorem holds (h : Stacked w seen fs ns ys) : List.Forall₂ w.Holds fs (ys.map Stay.node) := by
  induction h with
  | nil => exact .nil
  | push _ hbelongs _ ih =>
    rw [List.map_append]
    exact forall₂_concat.mpr ⟨ih, hbelongs.found⟩

/-- The nodes that wait are those that have been compiled, at some lines. -/
theorem map_rewound (h : Stacked w seen fs ns ys) :
    ns.map Node.rewound = ys.map Stay.node := by
  induction h with
  | nil => rfl
  | push _ hbelongs _ ih => simp [ih, hbelongs.rewound]

/-- The frames of the nodes that wait fit them. -/
theorem fits (h : Stacked w seen fs ns ys) :
    List.Forall₂ (fun f n => n.Fits f.suspended) fs (ys.map Stay.node) := by
  induction h with
  | nil => exact .nil
  | push _ hbelongs htour ih =>
    rw [List.map_append]
    exact forall₂_concat.mpr ⟨ih, (htour.poised hbelongs.laid).fits⟩

end Stacked

namespace Session

variable {w : Shelf} {s s₁ s' : Session} {ys : List Stay} {p : Place}

/-- A session is about to run on from where another one waits: it knows of no block that has been
entered, and the line at its cursor is in the transcript already. -/
structure Resumes (s s₁ : Session) : Prop where
  /-- The traversal is the stored one. -/
  traversal : s₁.traversal = s.snapshot
  /-- So are the variables. -/
  vars : s₁.vars = s.vars
  /-- The nodes are the same, at some lines. -/
  nodes : s₁.nodes.map Node.rewound = s.nodes.map Node.rewound
  /-- The session has not been halted. -/
  halted : s₁.halted = false
  /-- No block is known to have been entered. -/
  seen : s₁.seen = []
  /-- The line at the cursor is not recorded. -/
  unrecorded : s₁.unrecorded = some (s.nodes.length, s.traversal.cursor.line)

/-- What it takes to come back to where a session waits: the cursor has not run past the last line,
the conditionals have nothing to do there, and where a line is on screen no decision is left to ask
and the text has a pace. -/
structure TakesUp (s : Session) (settings : Settings) : Prop where
  /-- There is a line at the cursor. -/
  line : ∀ n ∈ s.node, s.traversal.cursor.line < n.lines.length
  /-- The conditionals have nothing to do. -/
  settled : ∀ n ∈ s.node, n.Settled s.traversal.cursor
  /-- No decision at the line is left to ask. -/
  asked : s.phase = .presenting → ∀ n ∈ s.node, ∀ d ∈ n.decisions,
    d.start = s.traversal.cursor.line → d.index ∈ s.traversal.cursor.decisions
  /-- The text has a pace. -/
  pace : s.phase = .presenting → ∃ pace, settings.secondsPerCharacter = .ok pace

/-- A session is to the reader what another one is. -/
structure Reproduces (s s' : Session) : Prop where
  /-- It waits for the same. -/
  phase : s'.phase = s.phase
  /-- The stack of nodes, the cursor with its open blocks, the history, what is complete, the
  variables and the transcript are the same. -/
  snapshot : s'.snapshot = s.snapshot
  /-- The nodes on the stack are the same, at some lines. -/
  nodes : s'.nodes.map Node.rewound = s.nodes.map Node.rewound
  /-- The same line is on screen. -/
  line : s.phase = .presenting → s'.line = s.line
  /-- The same options are to be chosen from. -/
  labels : s.phase = .choosing → s'.labels = s.labels

/-- A session from whose stack the innermost node is gone does not do this. -/
theorem At.not_reproduces_of_gone (hp : s.At w ys p)
    (hgone : s'.Gone p.frame.node p.frames.length) : ¬s.Reproduces s' := by
  intro h
  have hsnapshot : s'.snapshot.frames = s.snapshot.frames := by rw [h.snapshot]
  have hframes : s'.traversal.frames = s.traversal.frames := hsnapshot
  refine hgone.2 ?_
  rw [Traversal.names, hframes, hp.frames]
  simp

/-- What else is on show does not matter for this. -/
theorem Alike.reproduces_iff {s'' : Session} (hs : s'.Alike s'') :
    s.Reproduces s'' ↔ s.Reproduces s' := by
  obtain ⟨_, _, _, _, _, rfl⟩ := hs
  -- none of what is compared is on show only
  exact ⟨fun h => ⟨h.phase, h.snapshot, h.nodes, h.line, h.labels⟩,
    fun h => ⟨h.phase, h.snapshot, h.nodes, h.line, h.labels⟩⟩

/-- It does not matter for a session that is about to run on. -/
theorem Resumes.of_alike {s₂ : Session} (h : s.Resumes s₁) (hs : s₁.Alike s₂) : s.Resumes s₂ := by
  obtain ⟨_, _, _, _, _, rfl⟩ := hs
  exact ⟨h.traversal, h.vars, h.nodes, h.halted, h.seen, h.unrecorded⟩

namespace At

variable (hp : s.At w ys p)

include hp

/-- The scripts hold the nodes of the session. -/
theorem holds : List.Forall₂ w.Holds s.traversal.frames (ys.map Stay.node) := by
  rw [hp.frames, hp.stays, List.map_append]
  exact forall₂_concat.mpr ⟨hp.below.holds, hp.belongs.found⟩

/-- The cursor of the session fits its innermost node. -/
theorem fits : p.stay.node.Fits s.traversal.cursor := by
  have hpoised := hp.tour.poised hp.laid
  rw [hp.cursor]
  cases hst : p.stance with
  | asking d =>
    -- a decision that waits is open without an option, which fits as well
    have htour := hp.tour
    rw [hst] at htour
    obtain ⟨hmem, -⟩ := Node.decisionAt?_some (htour.poised_stands hp.laid).2.1
    exact hpoised.fits_opening hp.laid hmem
  | _ => exact hpoised.fits

/-- The traversal of the session fits its nodes. -/
theorem misfit?_eq_none : s.snapshot.misfit? (ys.map Stay.node) = none := by
  rw [hp.stays, List.map_append]
  exact (Traversal.misfit?_eq_none_iff hp.frames hp.below.fits.length_eq).mpr
    ⟨hp.below.fits, hp.fits⟩

/-- What is restored is a session that resumes the stored one. -/
theorem resumes_takenUp (hvars : s.vars.Distinct) (s₀ : Session) :
    s.Resumes (s₀.takenUp s.snapshot (ys.map Stay.node)) where
  traversal := rfl
  vars := hvars.ofList_toList
  nodes := by
    show (s.snapshot.nodesAt (ys.map Stay.node)).map Node.rewound = _
    have hlength : s.snapshot.frames.length = (ys.map Stay.node).length := hp.holds.length_eq
    rw [Traversal.map_rewound_nodesAt hlength, hp.stays, hp.nodes, List.map_append,
      ← hp.below.map_rewound]
    simp [← hp.belongs.rewound]
  halted := rfl
  seen := rfl
  unrecorded := by
    rw [hp.length_nodes, ← hp.length_stays]
    simp [takenUp, snapshot]

end At

/-- Where the reader has to choose, the cursor has to be before the end and the conditionals must
have nothing to do. -/
theorem At.takesUp_choosing (hp : s.At w ys p) {d : Decision} (hst : p.stance = .asking d)
    (hphase : s.phase = .choosing) {settings : Settings} :
    s.TakesUp settings ↔
      s.traversal.cursor.line < p.stay.node.lines.length ∧ p.stay.node.Settled p.cursor := by
  have hcursor : s.traversal.cursor = p.cursor.opening d.index := by
    rw [hp.cursor, hst]
    rfl
  rw [← hp.lines_eq, ← hp.belongs.rewound, Node.settled_rewound]
  constructor
  · intro h
    have hsettled := h.settled p.node hp.node_eq
    rw [hcursor] at hsettled
    exact ⟨h.line p.node hp.node_eq, hsettled.congr rfl rfl rfl⟩
  · rintro ⟨hline, hsettled⟩
    refine ⟨fun n hn => ?_, fun n hn => ?_, ?_, ?_⟩
    · obtain rfl := Option.some.inj (hp.node_eq.symm.trans hn)
      exact hline
    · obtain rfl := Option.some.inj (hp.node_eq.symm.trans hn)
      rw [hcursor]
      exact hsettled.congr rfl rfl rfl
    · simp [hphase]
    · simp [hphase]

/-- Where a line is on screen, no decision must be left to ask and the text must have a pace. -/
theorem At.takesUp_presenting (hp : s.At w ys p) (hst : p.stance = .showing)
    (hphase : s.phase = .presenting) {settings : Settings} :
    s.TakesUp settings ↔
      (∀ d ∈ p.stay.node.decisions, d.start = p.cursor.line → d.index ∈ p.cursor.decisions) ∧
        ∃ pace, settings.secondsPerCharacter = .ok pace := by
  have hcursor := hp.cursor_eq (by rw [hst]; rfl)
  have htour := hp.tour
  rw [hst] at htour
  have hline := (htour.poised_stands hp.laid).2.2.2.2
  have hsettled := htour.settled_of_showing hp.laid
  rw [← hp.lines_eq] at hline
  rw [← hp.belongs.rewound, Node.settled_rewound] at hsettled
  rw [← hp.belongs.rewound]
  -- on a tour there is a line and the conditionals are settled, so only the rest is asked for
  constructor
  · intro h
    have hasked := h.asked hphase p.node hp.node_eq
    rw [hcursor] at hasked
    exact ⟨hasked, h.pace hphase⟩
  · rintro ⟨hasked, hpace⟩
    refine ⟨fun n hn => ?_, fun n hn => ?_, fun _ n hn => ?_, fun _ => hpace⟩
    all_goals
      obtain rfl := Option.some.inj (hp.node_eq.symm.trans hn)
      rw [hcursor]
    · exact hline
    · exact hsettled
    · exact hasked

namespace Resumes

variable (h : s.Resumes s₁) (hp : s.At w ys p)

include h hp

/-- The innermost node is the same at some line. -/
theorem exists_node : ∃ n, s₁.node = some n ∧ n.rewound = p.stay.node := by
  have hlast := congrArg List.getLast? h.nodes
  rw [List.getLast?_map, List.getLast?_map] at hlast
  have hnode : s₁.nodes.getLast?.map Node.rewound = some p.stay.node := by
    rw [hlast, ← hp.belongs.rewound, ← Session.node, hp.node_eq]
    rfl
  obtain ⟨n, hn, hrewound⟩ := Option.map_eq_some_iff.mp hnode
  exact ⟨n, hn, hrewound⟩

/-- There are as many nodes. -/
theorem length_nodes : s₁.nodes.length = p.depth := by
  have hlength := congrArg List.length h.nodes
  rw [List.length_map, List.length_map] at hlength
  rw [hlength, hp.length_nodes]

/-- What the passes over the blocks come to is decided by the node as it has been compiled. -/
theorem passes {n : Node} {m : Motion} {c : Cursor} {turn : Turn} (hpass : s₁.Passes n m c turn) :
    n.rewound = p.stay.node ∧ s.traversal.cursor.line < p.stay.node.lines.length ∧
      p.stay.node.passConditionals s.vars p.depth [] s.traversal.cursor = m ∧
      p.stay.node.passDecisions p.depth m.seen m.cursor = (c, turn) := by
  obtain ⟨n', hn', hrewound⟩ := h.exists_node hp
  obtain ⟨-, hn, hline, hm, hd⟩ := hpass
  obtain rfl := Option.some.inj (hn'.symm.trans hn)
  rw [h.length_nodes hp] at hm hd
  rw [h.vars, h.seen, h.traversal, ← Node.passConditionals_rewound, hrewound] at hm
  rw [← Node.passDecisions_rewound, hrewound] at hd
  refine ⟨hrewound, ?_, hm, hd⟩
  rw [h.traversal] at hline
  rw [← hrewound]
  exact hline

/-- At the same cursor the same decision is open. -/
theorem openDecision?_eq (hnodes : s'.nodes = s₁.nodes)
    (hcursor : s'.traversal.cursor = s.traversal.cursor) : s'.openDecision? = s.openDecision? := by
  obtain ⟨n, hn, hrewound⟩ := h.exists_node hp
  have hnode : s'.node = some n := by
    rw [Session.node, hnodes]
    exact hn
  have hsame := congrArg Node.decisions (hrewound.trans hp.belongs.rewound.symm)
  have hdecisions : n.decisions = p.node.decisions := hsame
  simp only [openDecision?, hnode, hp.node_eq, hcursor, hdecisions, Option.bind_eq_bind,
    Option.bind_some]

/-- If the innermost node is taken off the stack, it is gone where it was. -/
theorem gone {f : Frame} (hf : s₁.traversal.top = some f) :
    (s₁.finished f).Gone p.frame.node p.frames.length := by
  have htop : s₁.traversal.top = some p.frame := by
    rw [h.traversal]
    exact hp.top_eq
  obtain rfl := Option.some.inj (htop.symm.trans hf)
  have hdepth : s₁.traversal.frames.length - 1 = p.frames.length := by
    rw [h.traversal]
    simp [snapshot, hp.frames]
  rw [← hdepth]
  exact .of_finished p.frame

/-- Where the reader has to choose, the same decision is asked once more, perhaps at another
line. -/
theorem passes_choosing {d : Decision} (hst : p.stance = .asking d) {n : Node} {m : Motion}
    {c : Cursor} {turn : Turn} (hpass : s₁.Passes n m c turn) :
    turn = .ask d ∧ (c = s.traversal.cursor ↔ p.stay.node.Settled p.cursor) := by
  obtain ⟨-, -, hm, hd⟩ := h.passes hp hpass
  have htour := hp.tour
  rw [hst] at htour
  obtain ⟨hpoised, hat, -⟩ := htour.poised_stands hp.laid
  obtain ⟨hmem, -⟩ := Node.decisionAt?_some hat
  have hpoised : p.stay.node.Poised p.depth [] p.cursor := hpoised.forget (by simp)
  have hcursor : s.traversal.cursor = p.cursor.opening d.index := by
    rw [hp.cursor, hst]
    rfl
  -- the pass over the conditionals does not see the decision, and then it is found open
  obtain ⟨-, hmoved, hask⟩ := hpoised.pass_waiting hp.laid s.vars hmem
  rw [hcursor] at hm
  rw [hm] at hmoved
  rw [hmoved, hask] at hd
  obtain ⟨rfl, rfl⟩ := Prod.mk.inj hd
  refine ⟨rfl, ?_⟩
  rw [← hpoised.passConditionals_eq_iff hp.laid s.vars, hcursor]
  exact Cursor.opening_inj

/-- The first step where the reader has to choose: the question is asked once more, unless the
cursor has run past the last line. -/
theorem step_choosing {d : Decision} (hst : p.stance = .asking d) (hphase : s.phase = .choosing)
    {goesOn : Bool} (hstep : s₁.Step w goesOn s') :
    goesOn = false ∧ (s.Reproduces s' ↔ s.TakesUp s₁.settings) ∨
      ¬s.TakesUp s₁.settings ∧ s'.Gone p.frame.node p.frames.length := by
  obtain ⟨n, hn, hrewound⟩ := h.exists_node hp
  -- behind the last line the node is complete
  have hpast {n' : Node} (hn' : s₁.node = some n')
      (hline : n'.lines.length ≤ s₁.traversal.cursor.line) : ¬s.TakesUp s₁.settings := by
    obtain rfl := Option.some.inj (hn.symm.trans hn')
    rw [hp.takesUp_choosing hst hphase, ← hrewound]
    rintro ⟨hlt, -⟩
    rw [h.traversal] at hline
    exact absurd hlt (not_lt.mpr hline)
  cases hstep with
  | halted hhalted =>
    rw [h.halted] at hhalted
    cases hhalted
  | nowhere hnone =>
    rw [hn] at hnone
    cases hnone
  | finish _ hn' hline hf _ => exact .inr ⟨hpast hn' hline, h.gone hp hf⟩
  | finishLast _ hn' hline hf _ => exact .inr ⟨hpast hn' hline, h.gone hp hf⟩
  | @ask n' m c d' hpass =>
    obtain ⟨-, hcursor⟩ := h.passes_choosing hp hst hpass
    obtain ⟨-, hline, -⟩ := h.passes hp hpass
    refine .inl ⟨rfl, ?_⟩
    rw [hp.takesUp_choosing hst hphase, and_iff_right hline, ← hcursor]
    constructor
    · intro hsame
      exact congrArg Traversal.cursor hsame.snapshot
    · rintro rfl
      refine ⟨hphase.symm, ?_, h.nodes, ?_, fun _ => ?_⟩
      · simp only [choosing, passed, withCursor, snapshot, h.traversal, h.vars]
      · simp [hphase]
      · have hopen : (s₁.passed m s.traversal.cursor).choosing.openDecision? = s.openDecision? :=
          h.openDecision?_eq hp rfl rfl
        rw [labels, labels, hopen]
        simp [isChoosing, choosing, hphase]
  | move hpass _ => cases (h.passes_choosing hp hst hpass).1
  | command hpass _ _ _ _ => cases (h.passes_choosing hp hst hpass).1
  | skip hpass _ _ _ _ => cases (h.passes_choosing hp hst hpass).1
  | present hpass _ _ _ _ _ => cases (h.passes_choosing hp hst hpass).1

/-- Where a line is on screen, the cursor stays where it is, unless there is a decision left to
ask. -/
theorem passes_presenting (hst : p.stance = .showing) {n : Node} {m : Motion} {c : Cursor}
    {turn : Turn} (hpass : s₁.Passes n m c turn) :
    (∀ d ∈ p.stay.node.decisions, d.start = p.cursor.line → d.index ∈ p.cursor.decisions) ∧
        turn = .onward ∧ c = s.traversal.cursor ∨
      ¬(∀ d ∈ p.stay.node.decisions, d.start = p.cursor.line → d.index ∈ p.cursor.decisions) ∧
        ∃ d, turn = .ask d := by
  obtain ⟨-, -, hm, hd⟩ := h.passes hp hpass
  have htour := hp.tour
  rw [hst] at htour
  obtain ⟨hpoised, -, hunfinished, -⟩ := htour.poised_stands hp.laid
  have hpoised : p.stay.node.Poised p.depth [] p.cursor := hpoised.forget (by simp)
  have hcursor := hp.cursor_eq (by rw [hst]; rfl)
  obtain ⟨-, hsame, honward, hask⟩ :=
    hpoised.pass_settled hp.laid s.vars (htour.settled_of_showing hp.laid) hunfinished
  rw [hcursor] at hm
  rw [hm] at hsame honward hask
  rw [hsame] at hd
  -- nothing is remembered as entered, so a decision at the line is asked unless it is open
  by_cases hall : ∀ d ∈ p.stay.node.decisions,
      d.start = p.cursor.line → d.index ∈ p.cursor.decisions
  · rw [honward hall] at hd
    obtain ⟨rfl, rfl⟩ := Prod.mk.inj hd
    exact .inl ⟨hall, rfl, hcursor.symm⟩
  · have hleft : ∃ d ∈ p.stay.node.decisions,
        d.start = p.cursor.line ∧ d.index ∉ p.cursor.decisions := by
      simpa using hall
    obtain ⟨c', d, hask⟩ := hask hleft
    rw [hask] at hd
    obtain ⟨-, rfl⟩ := Prod.mk.inj hd
    exact .inr ⟨hall, d, rfl⟩

/-- The line at the cursor is not recorded once more. -/
theorem snapshot_presented {m : Motion} {c : Cursor} (hc : c = s.traversal.cursor)
    (line : Spoken) : ((s₁.passed m c).presented line).snapshot = s.snapshot := by
  have hknown : (s₁.passed m c).unrecorded =
      some ((s₁.passed m c).nodes.length, (s₁.passed m c).traversal.cursor.line) := by
    show s₁.unrecorded = some (s₁.nodes.length, c.line)
    rw [h.unrecorded, h.length_nodes hp, hp.length_nodes, hc]
  unfold presented recorded modifyNode
  simp only [hknown, ne_eq, not_true_eq_false, if_false]
  simp only [passed, withCursor, snapshot, h.traversal, h.vars, hc]

/-- The first step where a line is on screen: the line is presented once more, unless there is a
decision left to ask. -/
theorem step_presenting (hst : p.stance = .showing) (hphase : s.phase = .presenting)
    {text : String} (htext : at? p.node.lines p.cursor.line = some text)
    (hcommand : Command.isCommandLine text.toList = false)
    (hblank : (Spoken.ofLine text).text.isEmpty = false)
    (hline : s.line = some (Spoken.ofLine text)) {goesOn : Bool}
    (hstep : s₁.Step w goesOn s') :
    goesOn = false ∧ (s.Reproduces s' ↔ s.TakesUp s₁.settings) := by
  obtain ⟨n, hn, hrewound⟩ := h.exists_node hp
  have htour := hp.tour
  rw [hst] at htour
  have hlt := (htour.poised_stands hp.laid).2.2.2.2
  have hcursor := hp.cursor_eq (by rw [hst]; rfl)
  have hcursor₁ : s₁.traversal.cursor = p.cursor := by
    rw [h.traversal]
    exact hcursor
  have hlines (n' : Node) (hn' : s₁.node = some n') : n'.lines = p.stay.node.lines := by
    obtain rfl := Option.some.inj (hn.symm.trans hn')
    rw [← hrewound]
    rfl
  -- the line is not behind the last one
  have hpast {n' : Node} (hn' : s₁.node = some n')
      (hpast : n'.lines.length ≤ s₁.traversal.cursor.line) : False := by
    rw [hlines n' hn', hcursor₁] at hpast
    omega
  -- the line that is taken up is the one on screen
  have honward {n' : Node} {m : Motion} {c : Cursor} (hpass : s₁.Passes n' m c .onward) :
      c = s.traversal.cursor ∧ at? n'.lines c.line = some text ∧
        ∀ d ∈ p.stay.node.decisions, d.start = p.cursor.line → d.index ∈ p.cursor.decisions := by
    rcases h.passes_presenting hp hst hpass with ⟨hall, -, rfl⟩ | ⟨-, d, hask⟩
    · refine ⟨rfl, ?_, hall⟩
      rw [hlines n' hpass.node, ← hp.lines_eq, hcursor]
      exact htext
    · cases hask
  cases hstep with
  | halted hhalted =>
    rw [h.halted] at hhalted
    cases hhalted
  | nowhere hnone =>
    rw [hn] at hnone
    cases hnone
  | finish _ hn' hline _ _ => exact (hpast hn' hline).elim
  | finishLast _ hn' hline _ _ => exact (hpast hn' hline).elim
  | ask hpass =>
    refine ⟨rfl, ?_⟩
    rw [hp.takesUp_presenting hst hphase]
    rcases h.passes_presenting hp hst hpass with ⟨-, hask, -⟩ | ⟨hleft, -⟩
    · cases hask
    · constructor
      · intro hsame
        have hboth : Phase.choosing = Phase.presenting := hsame.phase.trans hphase
        cases hboth
      · rintro ⟨hall, -⟩
        exact absurd hall hleft
  | move hpass hmoved =>
    obtain ⟨rfl, -⟩ := honward hpass
    rw [h.traversal] at hmoved
    exact absurd rfl hmoved
  | command hpass _ htext' hcommand' _ =>
    obtain ⟨-, hat, -⟩ := honward hpass
    obtain rfl := Option.some.inj (hat.symm.trans htext')
    rw [hcommand] at hcommand'
    cases hcommand'
  | skip hpass _ htext' _ hblank' =>
    obtain ⟨-, hat, -⟩ := honward hpass
    obtain rfl := Option.some.inj (hat.symm.trans htext')
    rw [hblank] at hblank'
    cases hblank'
  | @present n' m c text' pace hpass _ htext' _ _ hpace =>
    obtain ⟨hc, hat, hall⟩ := honward hpass
    obtain rfl := Option.some.inj (hat.symm.trans htext')
    refine ⟨rfl, ?_⟩
    rw [hp.takesUp_presenting hst hphase]
    refine iff_of_true ⟨hphase.symm, ?_, ?_, fun _ => hline.symm, ?_⟩ ⟨hall, pace, hpace⟩
    · exact h.snapshot_presented hp hc _
    · rw [← h.nodes]
      have hat (n : Node) : Node.rewound { n with line := c.line } = n.rewound := rfl
      exact map_modifyLast hat s₁.nodes
    · simp [hphase]

/-- The first step fails only when the passes over the blocks have come to an end. -/
theorem breaks {f : Failure} (hf : s₁.Breaks w f s') :
    ∃ n m c turn, s₁.Passes n m c turn ∧ (turn = .stuck ∨ turn = .onward ∧
      ((∃ text, at? n.lines s₁.traversal.cursor.line = some text ∧
          Command.isCommandLine text.toList) ∨
        s₁.settings.secondsPerCharacter = .error f)) := by
  obtain ⟨n, hn, hrewound⟩ := h.exists_node hp
  have hpoised := hp.tour.poised hp.laid
  have hcursor₁ : s₁.traversal.cursor = p.stance.cursor p.cursor := by
    rw [h.traversal]
    exact hp.cursor
  cases hf with
  | noFrame _ hnone _ =>
    rw [h.traversal] at hnone
    cases hp.top_eq.symm.trans hnone
  | noConditional hn' _ hstuck _ =>
    obtain rfl := Option.some.inj (hn.symm.trans hn')
    have hpoised : p.stay.node.Poised p.depth [] p.cursor := hpoised.forget (by simp)
    obtain ⟨hnot, -⟩ := hpoised.passConditionals hp.laid s.vars
    -- a decision that waits does not matter for the conditionals
    have hsame : (p.stay.node.passConditionals s.vars p.depth []
        (p.stance.cursor p.cursor)).stuck = false := by
      cases p.stance with
      | asking d =>
        rw [Stance.cursor, Node.passConditionals_opening]
        exact hnot
      | _ => exact hnot
    rw [h.vars, h.length_nodes hp, h.seen, hcursor₁, ← Node.passConditionals_rewound, hrewound,
      hsame] at hstuck
    cases hstuck
  | noDecision hpass _ => exact ⟨_, _, _, _, hpass, .inl rfl⟩
  | noLine hn' hline hnone _ =>
    obtain rfl := Option.some.inj (hn.symm.trans hn')
    have hle : 0 ≤ s₁.traversal.cursor.line := by
      rw [hcursor₁]
      cases p.stance <;> exact hpoised.within.1
    rw [at?, if_neg (not_lt.mpr hle), List.getElem?_eq_none_iff] at hnone
    omega
  | unreadable hpass hsame htext hcommand _ _ _ =>
    exact ⟨_, _, _, _, hpass, .inr ⟨rfl, .inl ⟨_, hsame ▸ htext, hcommand⟩⟩⟩
  | noPace hpass _ _ _ _ hf => exact ⟨_, _, _, _, hpass, .inr ⟨rfl, .inr hf⟩⟩

/-- Where the reader has to choose, the first step does not fail. -/
theorem not_breaks_choosing {d : Decision} (hst : p.stance = .asking d) {f : Failure} :
    ¬s₁.Breaks w f s' := by
  intro hf
  obtain ⟨n, m, c, turn, hpass, hturn⟩ := h.breaks hp hf
  obtain ⟨rfl, -⟩ := h.passes_choosing hp hst hpass
  rcases hturn with hstuck | ⟨honward, -⟩
  · cases hstuck
  · cases honward

/-- Where a line is on screen, the first step fails only if the text has no pace. -/
theorem not_takesUp_of_breaks (hst : p.stance = .showing) (hphase : s.phase = .presenting)
    {text : String} (htext : at? p.node.lines p.cursor.line = some text)
    (hcommand : Command.isCommandLine text.toList = false) {f : Failure}
    (hf : s₁.Breaks w f s') : ¬s.TakesUp s₁.settings := by
  rw [hp.takesUp_presenting hst hphase]
  rintro ⟨hall, pace, hpace⟩
  obtain ⟨n, m, c, turn, hpass, hturn⟩ := h.breaks hp hf
  rcases h.passes_presenting hp hst hpass with ⟨-, rfl, -⟩ | ⟨hleft, -⟩
  · rcases hturn with hstuck | ⟨-, ⟨text', htext', hcommand'⟩ | herror⟩
    · cases hstuck
    · obtain ⟨n', hn', hrewound⟩ := h.exists_node hp
      obtain rfl := Option.some.inj (hn'.symm.trans hpass.node)
      have hlines : n'.lines = p.node.lines := by
        rw [hp.lines_eq, ← hrewound]
        rfl
      have hcursor₁ : s₁.traversal.cursor = p.cursor := by
        rw [h.traversal]
        show s.traversal.cursor = _
        rw [hp.cursor, hst]
        rfl
      rw [hlines, hcursor₁] at htext'
      -- the line that is taken up is the one on screen, which is no command
      obtain rfl := Option.some.inj (htext.symm.trans htext')
      rw [hcommand] at hcommand'
      cases hcommand'
    · rw [hpace] at herror
      cases herror
  · exact hleft hall

end Resumes

end Session

end VisualNovel
