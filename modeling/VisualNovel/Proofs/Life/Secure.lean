import VisualNovel.Proofs.Life.Failing
import VisualNovel.Proofs.Life.Reached
import VisualNovel.Proofs.Life.Resuming
import VisualNovel.Proofs.Motion.Answering

/-!
# Sessions whose cursors are secure

A session that goes on from a stored traversal need not be on a tour of its nodes: the cursors may
be anywhere, and any blocks may be open there. If each cursor is secure in its node, this is kept by
every step and every input, and no step fails because an index is out of range. The scripts have to
be text for this, since a script that is none strikes in the middle of a step.

## Main definitions

* `Failure.isIndex`: an index is out of range;
* `Shelf.Keeps`: the scripts have a node under a name;
* `Session.Lodged`: the cursors of a session are secure in nodes of the scripts;
* `Session.Underway`, `Session.Sound`: this holds of a session that runs, or that rests.

## Main results

* `Session.Underway.step`: a step leads to such a session;
* `Session.Underway.breaks`: if it fails, then not because an index is out of range;
* `Session.Sound.rests`, `Session.Sound.begins`: what an input leads to;
* `Session.Sound.enters`: a further node may be entered.
-/

namespace VisualNovel

open List (Forall₂)

/-- An index is out of range. -/
def Failure.isIndex : Failure → Bool
  | noOption _ _ | noElement | wideIndex | nothingToRemove | noCharacter => true
  | _ => false

/-- Looking for a node in files does not fail because an index is out of range. -/
theorem Script.isIndex_of_searchFiles {name context : String} {vs : Variables}
    {fs : List (Files.Path × Files.Entry)} {f : Failure}
    (hf : (searchFiles name context vs fs).1 = .error f) : f.isIndex = false := by
  rcases searchFiles_error hf with rfl | ⟨x, -, hread⟩ | ⟨_, _, rfl⟩
  · rfl
  · -- a folder cannot be read, and neither can a file that is no text
    unfold readSource at hread
    split at hread
    · obtain rfl := Except.error.inj hread
      rfl
    · split at hread
      · cases hread
      · obtain rfl := Except.error.inj hread
        rfl
  · rfl

namespace Shelf

variable {w : Shelf} {vs : Variables}

/-- Looking for a node does not fail because an index is out of range. -/
theorem isIndex_of_find {name context : String} {f : Failure}
    (hf : (w.find vs name context).result = .error f) : f.isIndex = false := by
  unfold find Script.search at hf
  split at hf
  · next f' hfiles =>
    obtain rfl := Except.error.inj hf
    unfold Script.files at hfiles
    split at hfiles
    · obtain rfl := Except.error.inj hfiles
      rfl
    · cases hfiles
    · cases hfiles
  · exact Script.isIndex_of_searchFiles hf

/-- The scripts have a node under a name, for whichever scene it has been looked for. -/
def Keeps (w : Shelf) (name : String) (n : Node) : Prop :=
  ∃ vs context, (w.find vs name context).result = .ok n

/-- The node of a frame is one that the scripts have. -/
theorem Holds.keeps {f : Frame} {n : Node} (h : w.Holds f n) : w.Keeps f.node n := by
  obtain ⟨vs, hn⟩ := h
  exact ⟨vs, _, hn⟩

namespace Keeps

variable {name : String} {n m : Node} (h : w.Keeps name n)

include h

/-- A node that the scripts have is compiled, and it has not been left at another line. -/
theorem rewound : n.rewound = n := by
  obtain ⟨vs, context, hn⟩ := h
  obtain ⟨-, -, hline⟩ := Script.search_header hn
  rw [Node.rewound, ← hline]

/-- It is laid out properly. -/
theorem laid : n.Laid := by
  obtain ⟨vs, context, hn⟩ := h
  exact Script.search_laid hn

/-- Nodes that the scripts have under the same name differ in their scenes at most. -/
theorem eq_inScene (h' : w.Keeps name m) : m = { n with context := m.context } := by
  obtain ⟨vs, context, hn⟩ := h
  obtain ⟨vs', context', hm⟩ := h'
  have hsame : (w.find vs' name context').result =
      (w.find vs name context).result.map fun n => { n with context := context' } :=
    Script.search_context vs vs' context'
  rw [hn, hm] at hsame
  obtain rfl := Except.ok.inj hsame
  rfl

end Keeps

/-- Nodes that have been loaded are held by the scripts. -/
theorem holds_of_load {fs : List Frame} {ns : List Node} (h : (w.load vs fs).1 = .ok ns) :
    Forall₂ w.Holds fs ns := by
  induction fs generalizing vs ns with
  | nil =>
    obtain rfl := Except.ok.inj h
    exact .nil
  | cons f fs ih =>
    unfold load at h
    split at h
    · cases h
    · next n hn =>
      dsimp only at h
      cases hrest : (w.load (w.find vs f.node f.context).vars fs).1 with
      | error e => simp [hrest, Except.map] at h
      | ok rest =>
        rw [hrest] at h
        obtain rfl := Except.ok.inj h
        exact .cons ⟨vs, hn⟩ (ih hrest)

end Shelf

/-- Nodes that the scripts hold have not been left at other lines. -/
theorem Shelf.map_rewound_of_holds {w : Shelf} {fs : List Frame} {ns : List Node}
    (h : Forall₂ w.Holds fs ns) : ns.map Node.rewound = ns := by
  induction h with
  | nil => rfl
  | cons hn _ ih => rw [List.map_cons, hn.keeps.rewound, ih]

/-- A node of the scripts waits for a frame, and what is looked up for the cursor of the frame is
there. -/
def Frame.Waits (w : Shelf) (f : Frame) (n : Node) : Prop :=
  w.Keeps f.node n ∧ n.Secure f.suspended

namespace Session

/-- The session is in nodes of the scripts, and what is looked up for its cursors is there. The
innermost frame and node are given apart from those that wait; the nodes are as compiled. -/
structure Lodged (w : Shelf) (s : Session) (fs : List Frame) (f : Frame) (ns : List Node)
    (n : Node) : Prop where
  /-- The frames. -/
  frames : s.traversal.frames = fs ++ [f]
  /-- The nodes, which may be at other lines. -/
  nodes : s.nodes.map Node.rewound = ns ++ [n]
  /-- Nodes wait below the innermost one. -/
  below : Forall₂ (Frame.Waits w) fs ns
  /-- The scripts have the innermost node. -/
  held : w.Keeps f.node n
  /-- What is looked up for the cursor is there. -/
  secure : n.Secure s.traversal.cursor

/-- A session that runs is in nodes of the scripts, unless it has been halted. -/
structure Underway (w : Shelf) (s : Session) : Prop where
  /-- It is in nodes of the scripts. -/
  lodged : ∃ fs f ns n, s.Lodged w fs f ns n
  /-- If it has been halted, it waits for nothing. -/
  halted : s.halted → s.phase = .idle

/-- A session that rests is in nodes of the scripts or in none. If the reader has to choose, a
decision waits. -/
inductive Sound (w : Shelf) (s : Session) : Prop where
  /-- The session is in no node. -/
  | nowhere (hnodes : s.nodes = []) (hframes : s.traversal.frames = [])
      (hcursor : s.traversal.cursor = {}) (hidle : s.phase = .idle)
  /-- The session is in nodes of the scripts. -/
  | inside {fs : List Frame} {f : Frame} {ns : List Node} {n : Node} (h : s.Lodged w fs f ns n)
      (hhalted : s.halted → s.phase = .idle)
      (hwaits : s.isChoosing →
        s.traversal.cursor.choices.length < s.traversal.cursor.decisions.length)

namespace Lodged

variable {w : Shelf} {s s' : Session} {fs : List Frame} {f : Frame} {ns : List Node} {n m : Node}
  (h : s.Lodged w fs f ns n)

include h

/-- The session stays in its nodes with another cursor. -/
theorem remain (hframes : s'.traversal.frames = s.traversal.frames)
    (hnodes : s'.nodes.map Node.rewound = s.nodes.map Node.rewound)
    (hsecure : n.Secure s'.traversal.cursor) : s'.Lodged w fs f ns n :=
  ⟨hframes.trans h.frames, hnodes.trans h.nodes, h.below, h.held, hsecure⟩

/-- What is on show does not matter for this. -/
theorem of_alike (hs : s.Alike s') : s'.Lodged w fs f ns n := by
  obtain ⟨_, _, _, _, _, rfl⟩ := hs
  exact h.remain rfl rfl h.secure

/-- The nodes on the stack at their lines. -/
theorem exists_nodes : ∃ ks k, s.nodes = ks ++ [k] ∧ ks.map Node.rewound = ns ∧ k.rewound = n := by
  obtain ⟨ks, ls, hnodes, hks, hls⟩ := List.map_eq_append_iff.mp h.nodes
  obtain ⟨k, rfl, hk⟩ := List.map_eq_singleton_iff.mp hls
  exact ⟨ks, k, hnodes, hks, hk⟩

/-- The innermost node has been compiled as it is. -/
theorem rewound_eq (hm : s.node = some m) : m.rewound = n := by
  obtain ⟨ks, k, hnodes, -, hk⟩ := h.exists_nodes
  rw [node, hnodes, List.getLast?_concat] at hm
  obtain rfl := Option.some.inj hm
  exact hk

/-- Passing over the conditionals of the innermost node is not stuck. -/
theorem passConditionals (hm : s.node = some m) {x : Motion}
    (hx : m.passConditionals s.vars s.nodes.length s.seen s.traversal.cursor = x) :
    x.stuck = false ∧ n.Secure x.cursor := by
  rw [← Node.passConditionals_rewound, h.rewound_eq hm] at hx
  rw [← hx]
  exact h.secure.passConditionals h.held.laid _ _ _

/-- The passes over the blocks of the innermost node are not stuck. If the reader is asked, a
decision waits. -/
theorem passes {x : Motion} {c : Cursor} {turn : Turn} (hpass : s.Passes m x c turn) :
    turn ≠ .stuck ∧ (s.passed x c).Lodged w fs f ns n ∧
      ∀ d, turn = .ask d → c.choices.length < c.decisions.length := by
  obtain ⟨-, hsecure⟩ := h.passConditionals hpass.node hpass.conditionals
  have hdecisions := hpass.decisions
  rw [← Node.passDecisions_rewound, h.rewound_eq hpass.node] at hdecisions
  obtain ⟨hstuck, hsecure, hwaits⟩ := hsecure.passDecisions h.held.laid hdecisions
  exact ⟨hstuck, h.remain rfl rfl hsecure, hwaits⟩

/-- A command is added to the history. -/
theorem noted (text : String) : (s.noted text).Lodged w fs f ns n := h.remain rfl rfl h.secure

/-- The session goes to the next line. -/
theorem atNextLine : s.atNextLine.Lodged w fs f ns n := by
  have hline := h.secure.line
  exact h.remain rfl rfl (h.secure.moveTo (by omega))

/-- A line is put on screen. -/
theorem presented (line : Spoken) : (s.presented line).Lodged w fs f ns n := by
  have hat (k : Node) : Node.rewound { k with line := s.traversal.cursor.line } = k.rewound := rfl
  have hframes : (s.presented line).traversal.frames = s.traversal.frames := by
    simp only [Session.presented, modifyNode, recorded]
    split <;> rfl
  have hcursor : (s.presented line).traversal.cursor = s.traversal.cursor := by
    simp only [Session.presented, modifyNode, recorded]
    split <;> rfl
  exact h.remain hframes (map_modifyLast hat _) (hcursor ▸ h.secure)

/-- A node of the scripts is entered. -/
theorem entered {vs : Variables} {name context : String}
    (hm : (w.find vs name context).result = .ok m) :
    ∃ fs' f' ns' n', (s.entered m).Lodged w fs' f' ns' n' := by
  obtain ⟨ks, k, hnodes, hks, hk⟩ := h.exists_nodes
  obtain ⟨rfl, rfl, -⟩ := Script.search_header hm
  have hkept : w.Keeps m.name m := ⟨vs, _, hm⟩
  have hrewound : m.rewound = m := hkept.rewound
  cases htop : s.traversal.top.any fun f => f.node = m.name with
  | true =>
    -- a node of this name is on top, so the one that has been found has the same blocks
    have hname : f.node = m.name := by simpa [Traversal.top, h.frames] using htop
    have hheld : w.Keeps m.name n := hname ▸ h.held
    have hsecure : m.Secure s.traversal.cursor := by
      rw [hheld.eq_inScene hkept]
      exact ⟨h.secure.line, h.secure.branches, h.secure.options⟩
    rw [entered_of_top hnodes htop]
    refine ⟨fs, f, ns, m, h.frames, ?_, h.below, hname.symm ▸ hkept, hsecure⟩
    rw [List.map_append, List.map_singleton, hks]
    exact congrArg (fun m => ns ++ [m]) hrewound
  | false =>
    rw [entered_of_not_top h.frames hnodes htop]
    refine ⟨fs ++ [{ f with suspended := s.traversal.cursor }],
      { node := m.name, context := m.context }, ns ++ [n], m, by simp, ?_,
      forall₂_concat.mpr ⟨h.below, h.held, h.secure⟩, hkept, .init m⟩
    rw [List.map_append, List.map_append, List.map_singleton, List.map_singleton, hks, hrewound,
      ← hk]
    rfl

/-- Following a command into another node leads on in nodes of the scripts. -/
theorem goesTo {name : String} (hhalted : s.halted = false) (hgoes : s.GoesTo w name s') :
    s'.Underway w := by
  cases hgoes with
  | completed _ => exact ⟨⟨_, _, _, _, h⟩, by simp [hhalted]⟩
  | empty _ _ _ => exact ⟨⟨_, _, _, _, h.remain rfl rfl h.secure⟩, by simp [withVars, hhalted]⟩
  | lost _ _ _ => exact ⟨⟨_, _, _, _, h.remain rfl rfl h.secure⟩, fun _ => rfl⟩
  | @entered context m _ _ hm _ =>
    have hvars : (s.withVars (w.find s.vars name context).vars).Lodged w fs f ns n :=
      h.remain rfl rfl h.secure
    refine ⟨hvars.entered hm, ?_⟩
    have hsame : ((s.withVars (w.find s.vars name context).vars).entered m).halted = s.halted := by
      unfold Session.entered
      split <;> rfl
    simp [hsame, hhalted]

/-- The innermost node is complete, and the session goes on in the one below. -/
theorem finished (hbelow : s.traversal.frames.dropLast ≠ []) :
    ∃ fs' f' ns' n', (s.finished f).Lodged w fs' f' ns' n' := by
  obtain ⟨ks, k, hnodes, hks, -⟩ := h.exists_nodes
  rw [h.frames, List.dropLast_concat] at hbelow
  obtain ⟨fs', f', rfl⟩ := exists_concat hbelow
  obtain ⟨ns', n', rfl⟩ := exists_concat_of_forall₂ h.below
  obtain ⟨hrest, hheld, hsecure⟩ := forall₂_concat.mp h.below
  rw [finished_concat h.frames hnodes]
  exact ⟨fs', { f' with suspended := f'.suspended.withoutBlocks }, ns', n', rfl, hks, hrest, hheld,
    hsecure⟩

end Lodged

variable {w : Shelf} {s s' : Session}

/-- A session that waits for nothing does not wait for a choice. -/
theorem isChoosing_of_idle (h : s.phase = .idle) : s.isChoosing = false := by
  simp [isChoosing, h]

/-- What is on show does not matter for a session that runs. -/
theorem Underway.of_alike (h : s.Underway w) (hs : s.Alike s') : s'.Underway w := by
  obtain ⟨fs, f, ns, n, hlodged⟩ := h.lodged
  have hlodged := hlodged.of_alike hs
  obtain ⟨_, _, _, _, _, rfl⟩ := hs
  exact ⟨⟨fs, f, ns, n, hlodged⟩, h.halted⟩

/-- Nor does it for one that rests. -/
theorem Sound.of_alike (h : s.Sound w) (hs : s.Alike s') : s'.Sound w := by
  cases h with
  | nowhere hnodes hframes hcursor hidle =>
    obtain ⟨_, _, _, _, _, rfl⟩ := hs
    exact .nowhere hnodes hframes hcursor hidle
  | inside h hhalted hwaits =>
    have h := h.of_alike hs
    obtain ⟨_, _, _, _, _, rfl⟩ := hs
    exact .inside h hhalted hwaits

/-- Nor does it matter which blocks are remembered. -/
theorem Underway.remembering (h : s.Underway w) (seen : List Visit) :
    Underway w { s with seen } := by
  obtain ⟨fs, f, ns, n, hlodged⟩ := h.lodged
  exact ⟨⟨fs, f, ns, n, hlodged.remain rfl rfl hlodged.secure⟩, h.halted⟩

/-- Nor does it matter which line is in the transcript already. -/
theorem Sound.unrecorded (h : s.Sound w) : Sound w { s with unrecorded := none } := by
  cases h with
  | nowhere hnodes hframes hcursor hidle => exact .nowhere hnodes hframes hcursor hidle
  | inside h hhalted hwaits => exact .inside (h.remain rfl rfl h.secure) hhalted hwaits

theorem idle_of_not_halted (h : s.halted = false) : s.halted → s.phase = .idle := by
  simp [h]

/-- A session with a line on screen rests. -/
theorem Lodged.sound_presented {fs : List Frame} {f : Frame} {ns : List Node} {n : Node}
    (h : s.Lodged w fs f ns n) (hhalted : s.halted = false) (line : Spoken) :
    (s.presented line).Sound w :=
  .inside (h.presented line) (idle_of_not_halted hhalted) (by simp [isChoosing, Session.presented])

/-- A step of a session that runs leads to one that runs on or rests. -/
theorem Underway.step (h : s.Underway w) {goesOn : Bool} (hs' : s.Step w goesOn s') :
    if goesOn then s'.Underway w else s'.Sound w := by
  obtain ⟨⟨fs, f, ns, n, h⟩, hidle⟩ := h
  cases hs' with
  | halted hhalted =>
    exact .inside h hidle fun hchoosing => by
      simp [isChoosing_of_idle (hidle hhalted)] at hchoosing
  | nowhere hnode =>
    obtain ⟨ks, k, hnodes, -⟩ := h.exists_nodes
    simp [node, hnodes] at hnode
  | finish hhalted _ _ hf hbelow =>
    obtain rfl : f = _ := Option.some.inj (by simpa [Traversal.top, h.frames] using hf)
    refine ⟨h.finished hbelow, fun hhalted' => ?_⟩
    simp [Session.finished, hhalted] at hhalted'
  | finishLast _ _ _ _ hbelow =>
    obtain ⟨ks, k, hnodes, hks, -⟩ := h.exists_nodes
    rw [h.frames, List.dropLast_concat] at hbelow
    -- no other node waits, so none is left
    have hnone : ks = [] := by
      have hlength := h.below.length_eq
      rw [hbelow, ← hks, List.length_map] at hlength
      exact List.length_eq_zero_iff.mp hlength.symm
    refine .nowhere ?_ ?_ ?_ rfl
    · simp [cleared, Session.finished, hnodes, hnone]
    all_goals simp [cleared, Session.finished, Traversal.complete, Traversal.comeBack, h.frames,
      hbelow]
  | ask hpass =>
    obtain ⟨-, hpassed, hwaits⟩ := h.passes hpass
    exact .inside (hpassed.remain rfl rfl hpassed.secure) (idle_of_not_halted hpass.halted)
      fun _ => hwaits _ rfl
  | move hpass _ =>
    obtain ⟨-, hpassed, -⟩ := h.passes hpass
    exact ⟨⟨_, _, _, _, hpassed⟩, idle_of_not_halted hpass.halted⟩
  | @command _ _ _ text _ hpass _ _ _ hs' =>
    obtain ⟨-, hpassed, -⟩ := h.passes hpass
    have hnext := (hpassed.noted text).atNextLine
    rcases hs' with rfl | ⟨name, -, hgoes⟩
    · exact ⟨⟨_, _, _, _, hnext⟩, idle_of_not_halted hpass.halted⟩
    · exact hnext.goesTo hpass.halted hgoes
  | skip hpass _ _ _ _ =>
    obtain ⟨-, hpassed, -⟩ := h.passes hpass
    exact ⟨⟨_, _, _, _, hpassed.atNextLine⟩, idle_of_not_halted hpass.halted⟩
  | present hpass _ _ _ _ _ =>
    obtain ⟨-, hpassed, -⟩ := h.passes hpass
    exact hpassed.sound_presented hpass.halted _

/-- A step of a session that runs does not fail because an index is out of range, and if it fails
the session rests. The scripts have to be text, since one that is none strikes in the middle of a
step. -/
theorem Underway.breaks (hlegible : w.Legible) (h : s.Underway w) {e : Failure}
    (hs' : s.Breaks w e s') : e.isIndex = false ∧ s'.Sound w := by
  obtain ⟨⟨fs, f, ns, n, h⟩, -⟩ := h
  cases hs' with
  | noFrame _ htop => simp [Traversal.top, h.frames] at htop
  | noConditional hnode _ hstuck =>
    rw [(h.passConditionals hnode rfl).1] at hstuck
    cases hstuck
  | noDecision hpass => exact absurd rfl (h.passes hpass).1
  | noLine hnode hline hnone =>
    obtain ⟨text, htext⟩ := exists_at?_iff.mpr ⟨h.secure.line, hline⟩
    cases hnone.symm.trans htext
  | unreadable _ _ _ _ _ hf hdialogue =>
    obtain ⟨vs, context, hn⟩ := h.held
    rw [hlegible.isDialogue hn hf] at hdialogue
    cases hdialogue
  | noPace hpass _ _ _ _ hf =>
    obtain ⟨-, hpassed, -⟩ := h.passes hpass
    obtain rfl := Settings.error_secondsPerCharacter hf
    exact ⟨rfl, hpassed.sound_presented hpass.halted _⟩

/-- An input that is not followed by a run leads a session at rest to one at rest. -/
theorem Sound.rests (h : s.Sound w) {i : Input} (hs' : s.Rests w i s') : s'.Sound w := by
  cases hs' with
  | stay _ => exact h
  | pause hphase =>
    cases h with
    | nowhere _ _ _ hidle => simp [hidle] at hphase
    | inside h hhalted hwaits =>
      refine .inside (h.remain rfl rfl h.secure) (fun hh => ?_) fun hchoosing => ?_
      · simp [hhalted hh] at hphase
      · -- a paused session waits for a choice if it did so before
        have hphase : s.phase = .choosing := by simpa [isChoosing] using hchoosing
        exact hwaits (by simp [isChoosing, hphase])
  | @resume phase hpaused hfrom =>
    cases h with
    | nowhere _ _ _ hidle => simp [hidle] at hpaused
    | inside h hhalted hwaits =>
      refine .inside (h.remain rfl rfl h.secure) (fun hh => ?_) fun hchoosing => ?_
      · simp [hhalted hh] at hpaused
      · have hphase : phase = .choosing := by simpa [isChoosing] using hchoosing
        exact hwaits (by simp [isChoosing, hpaused, hfrom, hphase])
  | ended _ => exact .nowhere rfl rfl rfl rfl
  | lost _ _ => exact .nowhere rfl rfl rfl rfl
  | unreadable _ _ => exact .nowhere rfl rfl rfl rfl

/-- A session in no node enters one. -/
theorem entered_of_nowhere {n : Node} (hnodes : s.nodes = []) (hframes : s.traversal.frames = [])
    (hcursor : s.traversal.cursor = {}) : s.entered n = { s with
      traversal := { s.traversal with frames := [{ node := n.name, context := n.context }] }
      nodes := [n] } := by
  have htop : s.traversal.top = none := by simp [Traversal.top, hframes]
  simp [entered, htop, Traversal.enter, hframes, hnodes, hcursor, modifyLast]

/-- Entering a node from a session at rest leads to one that runs. -/
theorem Sound.enters (h : s.Sound w) {vs vs' : Variables} {name context : String} {n : Node}
    (hn : (w.find vs name context).result = .ok n) : ((s.withVars vs').entered n).Underway w := by
  have hhalted : ((s.withVars vs').entered n).halted = s.halted := by
    unfold Session.entered
    split <;> rfl
  have hphase : ((s.withVars vs').entered n).phase = s.phase := by
    unfold Session.entered
    split <;> rfl
  cases h with
  | nowhere hnodes hframes hcursor hidle =>
    have hkept : w.Keeps n.name n := by
      obtain ⟨rfl, -, -⟩ := Script.search_header hn
      exact ⟨_, _, hn⟩
    refine ⟨⟨[], { node := n.name, context := n.context }, [], n, ?_⟩, fun _ => hphase.trans hidle⟩
    rw [entered_of_nowhere (s := s.withVars vs') hnodes hframes hcursor]
    exact ⟨rfl, congrArg (fun m => [m]) hkept.rewound, .nil, hkept, hcursor ▸ .init n⟩
  | inside h hidle _ =>
    have hvars : (s.withVars vs').Lodged w _ _ _ _ := h.remain rfl rfl h.secure
    exact ⟨hvars.entered hn, fun hh => hphase.trans (hidle (hhalted ▸ hh))⟩

/-- Where a decision waits, it is that of the session. -/
theorem Lodged.exists_openDecision {fs : List Frame} {f : Frame} {ns : List Node} {n : Node}
    (h : s.Lodged w fs f ns n)
    (hwaits : s.traversal.cursor.choices.length < s.traversal.cursor.decisions.length) :
    ∃ d, n.openDecision? s.traversal.cursor = some d ∧ s.openDecision? = some d := by
  obtain ⟨d, hd⟩ := h.secure.exists_openDecision hwaits
  obtain ⟨ks, k, hnodes, -, rfl⟩ := h.exists_nodes
  refine ⟨d, hd, ?_⟩
  have hnode : s.node = some k := by simp [node, hnodes]
  simp only [openDecision?, hnode]
  exact hd

/-- An input that is followed by a run leads a session at rest to one that runs. -/
theorem Sound.begins (h : s.Sound w) {i : Input} {seen : List Visit}
    (hs' : s.Begins w i seen s') : s'.Underway w := by
  cases hs' with
  | start _ hn _ => exact Sound.enters (s := s.fresh) (.nowhere rfl rfl rfl rfl) hn
  | leaveLine _ hphase =>
    cases h with
    | nowhere _ _ _ hidle => simp [hidle] at hphase
    | inside h hhalted _ => exact ⟨⟨_, _, _, _, h.atNextLine⟩, hhalted⟩
  | @choose index d o k hphase hnode hd ho =>
    cases h with
    | nowhere _ _ _ hidle => simp [hidle] at hphase
    | inside h hhalted hwaits =>
      have hwaits := hwaits (by simp [isChoosing, hphase])
      obtain ⟨d', hd', hopen⟩ := h.exists_openDecision hwaits
      obtain rfl := Option.some.inj (hopen.symm.trans hd)
      exact ⟨⟨_, _, _, _, h.remain rfl rfl (h.secure.choosing h.held.laid hwaits hd' ho)⟩, hhalted⟩

end Session

end VisualNovel
