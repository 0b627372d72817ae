import VisualNovel.Proofs.Life.Stack

/-!
# What is kept throughout the life of a session

A session that runs is in a node in which it goes on by itself; a session at rest is nowhere, has
been halted, or needs the reader at a decision or at a line. Steps and inputs keep this.

## Main definitions

* `Session.Running`, `Session.Resting`: how a session stands while it runs and when it rests.

## Main results

* `Session.Running.step`: what a step leads to;
* `Session.Running.breaks`: how a step can fail;
* `Session.Resting.rests`, `Session.Resting.begins`: what an input leads to;
* `Life.stands`: the sessions that there can be stand in this way.
-/

namespace VisualNovel

namespace Stay

variable {s s' : Session} {ds : List Deed} {ys : List Stay}

/-- If nothing happens in a node, its stay is the same. -/
theorem note_nil (y : Stay) : y.note [] = y := by
  simp [note]

/-- If nothing happens in the innermost node, the stays are the same. -/
theorem modifyLast_note_nil (ys : List Stay) : modifyLast (note []) ys = ys := by
  rcases List.eq_nil_or_concat ys with rfl | ⟨zs, y, rfl⟩
  · rfl
  · rw [List.concat_eq_append, modifyLast_concat, note_nil]

variable (hys : ys.length = s.nodes.length)

include hys

/-- The stays when no node has been entered or completed. -/
theorem follow_of_length_eq (h : s'.nodes.length = s.nodes.length) :
    follow s s' ds ys = modifyLast (note ds) ys := by
  have hall : (modifyLast (note ds) ys).length = s.nodes.length := by
    rw [length_modifyLast, hys]
  rw [follow, h, ← hall, List.take_length, hall, ← h, List.drop_length, List.map_nil,
    List.append_nil]

/-- The stays when a node has been entered. -/
theorem follow_of_concat {ns : List Node} {n : Node} (h : s'.nodes = ns ++ [n])
    (hns : ns.length = s.nodes.length) :
    follow s s' ds ys = modifyLast (note ds) ys ++ [begin n] := by
  have hall : (modifyLast (note ds) ys).length = s.nodes.length := by
    rw [length_modifyLast, hys]
  rw [follow, h, List.take_of_length_le, ← hns, List.drop_left, List.map_singleton]
  rw [hall, List.length_append]
  omega

/-- The stays when nothing has happened and a node has been completed. -/
theorem follow_of_dropLast (h : s'.nodes = s.nodes.dropLast) :
    follow s s' [] ys = ys.dropLast := by
  have hdrop : s.nodes.dropLast.drop s.nodes.length = [] :=
    List.drop_eq_nil_of_le (by simp)
  rw [follow, modifyLast_note_nil, h, hdrop, List.map_nil, List.append_nil, List.length_dropLast,
    ← hys, ← List.dropLast_eq_take]

end Stay

namespace Session

/-- The session waits for something, or did so when it was paused. -/
def Awaits (s : Session) (phase : Phase) : Prop :=
  s.phase = phase ∨ s.phase = .paused ∧ s.pausedFrom = some phase

/-- A session that runs is in a node in which it goes on by itself, or it has been halted when it
had come to a line. -/
def Running (w : Shelf) (s : Session) (ys : List Stay) : Prop :=
  ∃ p, s.At w ys p ∧ p.stance.GoesOn ∧ (s.halted → s.phase = .idle ∧ p.stance = .arrived)

/-- How a session stands when it rests. -/
inductive Resting (w : Shelf) (s : Session) (ys : List Stay) : Prop where
  /-- It is in no node. -/
  | nowhere (hframes : s.traversal.frames = []) (hcursor : s.traversal.cursor = {})
      (hnodes : s.nodes = []) (hstays : ys = []) (hphase : s.phase = .idle)
  /-- It has been halted. -/
  | halted {p : Place} (h : s.At w ys p) (hst : p.stance = .arrived) (hphase : s.phase = .idle)
  /-- The reader has to choose. -/
  | choosing {p : Place} {d : Decision} (h : s.At w ys p) (hst : p.stance = .asking d)
      (hawaits : s.Awaits .choosing) (hhalted : s.halted = false)
  /-- A line is on screen. -/
  | presenting {p : Place} {text : String} (h : s.At w ys p) (hst : p.stance = .showing)
      (hawaits : s.Awaits .presenting) (hhalted : s.halted = false)
      (htext : at? p.node.lines p.cursor.line = some text)
      (hcommand : Command.isCommandLine text.toList = false)
      (hblank : (Spoken.ofLine text).text.isEmpty = false)
      (hline : s.line = some (Spoken.ofLine text))

variable {w : Shelf} {s s' : Session} {ys : List Stay}

/-- What is on show does not matter for a session that runs. -/
theorem Running.of_alike (h : s.Running w ys) (hs : s.Alike s') : s'.Running w ys := by
  obtain ⟨_, _, _, _, _, rfl⟩ := hs
  obtain ⟨p, hp, hst, hhalted⟩ := h
  exact ⟨p, hp.congr rfl rfl rfl, hst, hhalted⟩

/-- What is on show does not matter for a session at rest. -/
theorem Resting.of_alike (h : s.Resting w ys) (hs : s.Alike s') : s'.Resting w ys := by
  obtain ⟨_, _, _, _, _, rfl⟩ := hs
  cases h with
  | nowhere hframes hcursor hnodes hstays hphase =>
    exact .nowhere hframes hcursor hnodes hstays hphase
  | halted hp hst hphase => exact .halted (hp.congr rfl rfl rfl) hst hphase
  | choosing hp hst hawaits hhalted => exact .choosing (hp.congr rfl rfl rfl) hst hawaits hhalted
  | presenting hp hst hawaits hhalted htext hcommand hblank hline =>
    exact .presenting (hp.congr rfl rfl rfl) hst hawaits hhalted htext hcommand hblank hline

/-- There are as many stays as nodes. -/
theorem Resting.length_stays (h : s.Resting w ys) : ys.length = s.nodes.length := by
  cases h with
  | nowhere _ _ hnodes hstays _ => rw [hnodes, hstays]; rfl
  | halted hp _ _ => rw [hp.length_stays, hp.length_nodes]
  | choosing hp _ _ _ => rw [hp.length_stays, hp.length_nodes]
  | presenting hp _ _ _ _ _ _ _ => rw [hp.length_stays, hp.length_nodes]

section Deeds

variable {n : Node} {m : Motion} {c : Cursor}

/-- The deeds of a step that comes to a decision. -/
theorem Passes.deeds_of_ask {d : Decision} (h : s.Passes n m c (.ask d)) :
    s.deeds = s.traversal.cursor.leads m.cursor.line ++ [.asked m.cursor.line c d] := by
  obtain ⟨hhalted, hn, hline, hm, hd⟩ := h
  have hgo : (s.halted || decide ((n.lines.length : Int) ≤ s.traversal.cursor.line)) = false := by
    simp [hhalted, hline]
  simp only [deeds, hn, hgo, Bool.false_eq_true, if_false, Node.deeds, hm, hd]

/-- The deeds of a step in which no decision stands in the way. -/
theorem Passes.deeds_of_onward (h : s.Passes n m c .onward) :
    s.deeds = s.traversal.cursor.leads m.cursor.line ++
      if c.line = s.traversal.cursor.line ∧
        (at? n.lines s.traversal.cursor.line).any Script.isPlayable then [.played c] else [] := by
  obtain ⟨hhalted, hn, hline, hm, hd⟩ := h
  have hgo : (s.halted || decide ((n.lines.length : Int) ≤ s.traversal.cursor.line)) = false := by
    simp [hhalted, hline]
  simp only [deeds, hn, hgo, Bool.false_eq_true, if_false, Node.deeds, hm, hd]

end Deeds

/-- The session after a command has been carried out in its innermost node: it goes on in the same
node, is halted, or has entered another one. -/
theorem At.goesTo {s₁ : Session} {p : Place} (h : s₁.At w ys p) (hst : p.stance = .arrived)
    (hhalted : s₁.halted = false) {name : String} (hgoes : s₁.GoesTo w name s') :
    s'.nodes.length = s₁.nodes.length ∧ s'.Running w ys ∨
      ∃ ns n, s'.nodes = ns ++ [n] ∧ ns.length = s₁.nodes.length ∧
        s'.Running w (ys ++ [.begin n]) := by
  have hgo : p.stance.GoesOn := by rw [hst]; trivial
  cases hgoes with
  | completed _ => exact .inl ⟨rfl, p, h, hgo, by simp [hhalted]⟩
  | empty _ _ _ => exact .inl ⟨rfl, p, h.congr rfl rfl rfl, hgo, by simp [withVars, hhalted]⟩
  | lost _ _ _ => exact .inl ⟨rfl, p, h.congr rfl rfl rfl, hgo, fun _ => ⟨rfl, hst⟩⟩
  | @entered context n hnew hcontext hn _ =>
    have hstill :
        ((s₁.withVars (w.find s₁.vars name context).vars).entered n).halted = false := by
      unfold Session.entered
      split <;> exact hhalted
    -- a node of the name that is on top takes its place there, any other one comes on top of it
    cases htop : s₁.traversal.top.any fun f => f.node = n.name with
    | true =>
      have hplace := h.replace hst (w.find s₁.vars name context).vars hn
        (hcontext _ h.top_eq) htop
      refine .inl ⟨?_, _, hplace, hgo, by simp [hstill]⟩
      rw [hplace.length_nodes, h.length_nodes]
      rfl
    | false =>
      have hplace := h.push hst (w.find s₁.vars name context).vars hnew hn htop
      refine .inr ⟨_, n, hplace.nodes, ?_, _, hplace, trivial, by simp [hstill]⟩
      rw [h.nodes, List.length_append, List.length_append]
      rfl

section Onward

variable {p : Place} {n : Node} {m : Motion} {c : Cursor} {text : String} (hp : s.At w ys p)
  (hst : p.stance.GoesOn) (hpass : s.Passes n m c .onward)

include hp hst hpass

/-- Where no decision stands in the way, the passes over the blocks make a round. -/
theorem At.onward : p.stay.node.Round p.depth s.seen p.cursor m c ∧
    p.stay.node.decisionAt? p.depth m.seen c = none := by
  obtain ⟨-, hn, hline, hm, hd⟩ := hpass
  obtain rfl := Option.some.inj (hp.node_eq.symm.trans hn)
  obtain ⟨-, hturn⟩ := hp.turn hst hline hm
  rcases hturn _ _ hd with ⟨_, _, hask, -⟩ | ⟨-, hround, hnone⟩
  · cases hask
  · exact ⟨hround, hnone⟩

/-- The deeds of a step that takes up a line in which something is said or done. -/
theorem At.deeds_of_playable (hsame : c.line = s.traversal.cursor.line)
    (htext : at? n.lines c.line = some text) (hplayable : Script.isPlayable text) :
    s.deeds = p.cursor.leads m.cursor.line ++ [.played c] := by
  have hcursor := hp.cursor_eq (hst.cursor_eq _)
  rw [hpass.deeds_of_onward, ← hsame, htext, hcursor]
  simp [hplayable]

/-- Blocks carry the session to another line of its innermost node. -/
theorem At.moves (hmoved : c.line ≠ s.traversal.cursor.line) :
    (s.passed m c).At w (modifyLast (Stay.note s.deeds) ys)
      { p with cursor := c, stance := .moved, stay := p.stay.note s.deeds } := by
  obtain ⟨hround, hnone⟩ := hp.onward hst hpass
  have hcursor := hp.cursor_eq (hst.cursor_eq _)
  have hdeeds : s.deeds = p.cursor.leads m.cursor.line := by
    rw [hpass.deeds_of_onward, hcursor]
    rw [hcursor] at hmoved
    simp [hmoved]
  rw [hdeeds]
  refine hp.remain (n := p.node) (c := c) .moved _ rfl rfl hp.nodes rfl rfl
    (hp.seen_of_round hround) (hp.tour.move hst hround hnone ?_)
  rwa [← hcursor]

variable (hsame : c.line = s.traversal.cursor.line) (htext : at? n.lines c.line = some text)

include hsame htext

/-- The session carries out a command of its innermost node. -/
theorem At.carriesOut (hcommand : Command.isCommandLine text.toList) :
    ((s.passed m c).noted text).atNextLine.At w (modifyLast (Stay.note s.deeds) ys)
      { p with
        cursor := c.moveTo (c.line + 1), stance := .arrived, stay := p.stay.note s.deeds } := by
  obtain ⟨hround, hnone⟩ := hp.onward hst hpass
  have hcursor := hp.cursor_eq (hst.cursor_eq _)
  rw [hp.deeds_of_playable hst hpass hsame htext (by simp [Script.isPlayable, hcommand])]
  exact hp.remain (n := p.node) (c := c.moveTo (c.line + 1)) .arrived _ rfl rfl hp.nodes rfl rfl
    (hp.seen_of_round hround) (hp.tour.command hst hround hnone (hcursor ▸ hsame))

/-- The session passes over a line of its innermost node in which nothing is said. -/
theorem At.passesOver (hcommand : Command.isCommandLine text.toList = false)
    (hblank : (Spoken.ofLine text).text.isEmpty) :
    (s.passed m c).atNextLine.At w (modifyLast (Stay.note s.deeds) ys)
      { p with
        cursor := c.moveTo (c.line + 1), stance := .arrived, stay := p.stay.note s.deeds } := by
  obtain ⟨hround, hnone⟩ := hp.onward hst hpass
  have hcursor := hp.cursor_eq (hst.cursor_eq _)
  have hdeeds : s.deeds = p.cursor.leads m.cursor.line := by
    have hplayable : Script.isPlayable text = false := by
      simpa [Script.isPlayable, hcommand] using hblank
    rw [hpass.deeds_of_onward, ← hsame, htext, hcursor]
    simp [hplayable]
  rw [hdeeds]
  exact hp.remain (n := p.node) (c := c.moveTo (c.line + 1)) .arrived _ rfl rfl hp.nodes rfl rfl
    (hp.seen_of_round hround) (hp.tour.skip hst hround hnone (hcursor ▸ hsame))

/-- The session puts a line of its innermost node on screen. -/
theorem At.puts (hblank : (Spoken.ofLine text).text.isEmpty = false) :
    ((s.passed m c).presented (Spoken.ofLine text)).At w (modifyLast (Stay.note s.deeds) ys)
      { p with
        node := { p.node with line := c.line }, cursor := c, stance := .showing,
        stay := p.stay.note s.deeds } := by
  obtain ⟨hround, hnone⟩ := hp.onward hst hpass
  have hcursor := hp.cursor_eq (hst.cursor_eq _)
  have hnodes : ((s.passed m c).presented (Spoken.ofLine text)).nodes =
      p.nodes ++ [{ p.node with line := c.line }] := by
    show modifyLast _ s.nodes = _
    rw [hp.nodes, modifyLast_concat]
    rfl
  have htraversal : ((s.passed m c).presented (Spoken.ofLine text)).traversal.frames =
        s.traversal.frames ∧
      ((s.passed m c).presented (Spoken.ofLine text)).traversal.completed =
        s.traversal.completed ∧
      ((s.passed m c).presented (Spoken.ofLine text)).traversal.cursor = c := by
    simp only [presented, recorded, modifyNode]
    split <;> exact ⟨rfl, rfl, rfl⟩
  obtain ⟨hframes, hcompleted, hcursor'⟩ := htraversal
  rw [hp.deeds_of_playable hst hpass hsame htext (by simp [Script.isPlayable, hblank])]
  exact hp.remain (c := c) .showing _ hframes hcompleted hnodes rfl hcursor'
    (hp.seen_of_round hround) (hp.tour.present hst hround hnone (hcursor ▸ hsame))

end Onward

/-- A line of the innermost node is put on screen. -/
theorem Running.present (h : s.Running w ys) {n : Node} {m : Motion} {c : Cursor} {text : String}
    (hpass : s.Passes n m c .onward) (hsame : c.line = s.traversal.cursor.line)
    (htext : at? n.lines c.line = some text)
    (hcommand : Command.isCommandLine text.toList = false)
    (hblank : (Spoken.ofLine text).text.isEmpty = false) :
    ((s.passed m c).presented (Spoken.ofLine text)).Resting w
      (Stay.follow s ((s.passed m c).presented (Spoken.ofLine text)) s.deeds ys) := by
  obtain ⟨p, hp, hst, -⟩ := h
  have hplace := hp.puts hst hpass hsame htext hblank
  obtain rfl := Option.some.inj (hp.node_eq.symm.trans hpass.node)
  rw [Stay.follow_of_length_eq (by rw [hp.length_stays, hp.length_nodes])
    (hplace.length_nodes.trans hp.length_nodes.symm)]
  exact .presenting hplace rfl (.inl rfl) hpass.halted htext hcommand hblank rfl

/-- What a step of a session that runs leads to. -/
theorem Running.step (h : s.Running w ys) {goesOn : Bool} (hstep : s.Step w goesOn s') :
    if goesOn then s'.Running w (Stay.follow s s' s.deeds ys)
    else s'.Resting w (Stay.follow s s' s.deeds ys) := by
  have ⟨p, hp, hst, hidle⟩ := h
  have hys : ys.length = s.nodes.length := by rw [hp.length_stays, hp.length_nodes]
  have hcursor := hp.cursor_eq (hst.cursor_eq _)
  -- for each kind of step: where the cursor comes to rest, and which deeds are noted in the stay
  cases hstep with
  | halted hhalted =>
    -- where a session has been halted it rests, and it keeps what is on its stack
    obtain ⟨hphase, harrived⟩ := hidle hhalted
    have hdeeds : s.deeds = [] := by
      simp [deeds, hp.node_eq, hhalted]
    simp only [Bool.false_eq_true, if_false]
    rw [Stay.follow_of_length_eq hys rfl, hdeeds, Stay.modifyLast_note_nil]
    exact .halted hp harrived hphase
  | nowhere hnone =>
    rw [hp.node_eq] at hnone
    cases hnone
  | @finish n f hhalted hn hline hf hbelow =>
    obtain rfl := Option.some.inj (hp.top_eq.symm.trans hf)
    obtain rfl := Option.some.inj (hp.node_eq.symm.trans hn)
    have hdeeds : s.deeds = [] := by
      simp [deeds, hp.node_eq, hline]
    -- the node below goes on where it had been left
    obtain ⟨p', hp', harrived⟩ := hp.pop hbelow
    rw [if_pos rfl, hdeeds, Stay.follow_of_dropLast hys rfl]
    refine ⟨p', hp', ?_, ?_⟩
    · rw [harrived]
      trivial
    · intro hhalted'
      exact absurd (hhalted.symm.trans hhalted') (by simp)
  | @finishLast n f hhalted hn hline hf hbelow =>
    obtain rfl := Option.some.inj (hp.top_eq.symm.trans hf)
    obtain rfl := Option.some.inj (hp.node_eq.symm.trans hn)
    have hdeeds : s.deeds = [] := by
      simp [deeds, hp.node_eq, hline]
    have hframes : p.frames = [] := by simpa [hp.frames] using hbelow
    obtain ⟨hnodes, hstays⟩ := (hframes ▸ hp.below).eq_nil
    simp only [Bool.false_eq_true, if_false]
    rw [hdeeds, Stay.follow_of_dropLast hys rfl]
    refine .nowhere ?_ ?_ ?_ ?_ rfl
    · simp [finished, cleared, Traversal.complete, Traversal.comeBack, hp.frames, hframes]
    · simp [finished, cleared, Traversal.complete, Traversal.comeBack, hp.frames, hframes]
    · simp [finished, cleared, hp.nodes, hnodes]
    · rw [hp.stays, hstays]
      rfl
  | @ask n m c d hpass =>
    have hdeeds := hpass.deeds_of_ask
    obtain ⟨hhalted, hn, hline, hm, hd⟩ := hpass
    obtain rfl := Option.some.inj (hp.node_eq.symm.trans hn)
    obtain ⟨-, hturn⟩ := hp.turn hst hline hm
    -- the cursor is the one before the decision was opened, with the decision on top
    rcases hturn _ _ hd with ⟨c₀, d', hask, rfl, hround, hsome⟩ | ⟨honward, -⟩
    · obtain rfl := Turn.ask.inj hask
      simp only [Bool.false_eq_true, if_false]
      rw [hdeeds, hcursor, Stay.follow_of_length_eq hys
        (show (s.passed m (c₀.opening d.index)).choosing.nodes.length = s.nodes.length from rfl)]
      exact .choosing (hp.remain (n := p.node) (c := c₀) (.asking d) _ rfl rfl hp.nodes rfl rfl
        (hp.seen_of_round hround) (hp.tour.ask hst hround hsome)) rfl (.inl rfl) hhalted
    · cases honward
  | @move n m c hpass hmoved =>
    rw [if_pos rfl, Stay.follow_of_length_eq hys
      (show (s.passed m c).nodes.length = s.nodes.length from rfl)]
    refine ⟨_, hp.moves hst hpass hmoved, trivial, fun hhalted => ?_⟩
    exact absurd (hpass.halted.symm.trans hhalted) (by simp)
  | @command n m c text s' hpass hsame htext hcommand hs' =>
    have hnext := hp.carriesOut hst hpass hsame htext hcommand
    have hhalted : ((s.passed m c).noted text).atNextLine.halted = false := hpass.halted
    rw [if_pos rfl]
    rcases hs' with rfl | ⟨name, -, hgoes⟩
    · rw [Stay.follow_of_length_eq hys (show
        ((s.passed m c).noted text).atNextLine.nodes.length = s.nodes.length from rfl)]
      refine ⟨_, hnext, trivial, fun hhalted' => ?_⟩
      exact absurd (hhalted.symm.trans hhalted') (by simp)
    · -- the command has put a node on the stack, or the stack is as high as before
      rcases hnext.goesTo rfl hhalted hgoes with ⟨hlength, hrun⟩ | ⟨ns, n, hnodes, hlength, hrun⟩
      · rw [Stay.follow_of_length_eq hys hlength]
        exact hrun
      · rw [Stay.follow_of_concat hys hnodes hlength]
        exact hrun
  | @skip n m c text hpass hsame htext hcommand hblank =>
    rw [if_pos rfl, Stay.follow_of_length_eq hys
      (show (s.passed m c).atNextLine.nodes.length = s.nodes.length from rfl)]
    refine ⟨_, hp.passesOver hst hpass hsame htext hcommand hblank, trivial, fun hhalted => ?_⟩
    exact absurd (hpass.halted.symm.trans hhalted) (by simp)
  | present hpass hsame htext hcommand hblank _ =>
    exact h.present hpass hsame htext hcommand hblank

/-- A step of a session that runs fails only if a line leads to another node and a script cannot be
read, or if no pace is set for a line that is on screen then. -/
theorem Running.breaks (h : s.Running w ys) {f : Failure} (hf : s.Breaks w f s') :
    (∃ n ∈ s.node, ∃ text ∈ n.lines, ∃ name, Command.target? text = some name ∧
      ∃ vs context, (w.find vs name context).result = .error f ∧ f.isDialogue = false) ∨
      s.settings.secondsPerCharacter = .error f ∧
        s'.Resting w (Stay.follow s s' s.deeds ys) := by
  have ⟨p, hp, hst, _⟩ := h
  -- faults of the traversal cannot occur, as the session is at a place
  cases hf with
  | noFrame _ hnone =>
    rw [hp.top_eq] at hnone
    cases hnone
  | noConditional hn hline hstuck =>
    obtain rfl := Option.some.inj (hp.node_eq.symm.trans hn)
    obtain ⟨hgoes, -⟩ := hp.turn hst hline rfl
    rw [hgoes] at hstuck
    cases hstuck
  | noDecision hpass =>
    obtain ⟨-, hn, hline, hm, hd⟩ := hpass
    obtain rfl := Option.some.inj (hp.node_eq.symm.trans hn)
    obtain ⟨-, hturn⟩ := hp.turn hst hline hm
    rcases hturn _ _ hd with ⟨_, _, heq, -⟩ | ⟨heq, -⟩ <;> cases heq
  | @noLine n hn hline hnone =>
    obtain rfl := Option.some.inj (hp.node_eq.symm.trans hn)
    -- the cursor is before the end of the node, so the line is there
    have hle : 0 ≤ s.traversal.cursor.line := by
      rw [hp.cursor, hst.cursor_eq]
      exact (hp.tour.poised hp.laid).within.1
    rw [at?, if_neg (not_lt.mpr hle), List.getElem?_eq_none_iff] at hnone
    omega
  | unreadable hpass _ htext _ htarget hf hdialogue =>
    exact .inl ⟨_, hpass.node, _, mem_of_at? htext, _, htarget, _, _, hf, hdialogue⟩
  | noPace hpass hsame htext hcommand hblank hf =>
    exact .inr ⟨hf, h.present hpass hsame htext hcommand hblank⟩

/-- An input that is not followed by a run leaves a session at rest. -/
theorem Resting.rests (h : s.Resting w ys) {i : Input} (hs' : s.Rests w i s') :
    s'.Resting w (ys.take s'.nodes.length) := by
  cases hs' with
  | stay i =>
    rw [List.take_of_length_le (le_of_eq h.length_stays)]
    exact h
  | pause hphase =>
    rw [List.take_of_length_le (le_of_eq h.length_stays)]
    -- only a session that waits for the reader can be paused, and it remembers for what
    cases h with
    | nowhere _ _ _ _ hidle => rw [hidle] at hphase; simp at hphase
    | halted _ _ hidle => rw [hidle] at hphase; simp at hphase
    | choosing hp hst hawaits hhalted =>
      refine .choosing (hp.congr rfl rfl rfl) hst (.inr ⟨rfl, ?_⟩) hhalted
      rcases hawaits with hawaits | ⟨hawaits, -⟩
      · rw [hawaits]
      · simp [hawaits] at hphase
    | presenting hp hst hawaits hhalted htext hcommand hblank hline =>
      refine .presenting (hp.congr rfl rfl rfl) hst (.inr ⟨rfl, ?_⟩) hhalted htext hcommand hblank
        hline
      rcases hawaits with hawaits | ⟨hawaits, -⟩
      · rw [hawaits]
      · simp [hawaits] at hphase
  | @resume phase hphase hfrom =>
    rw [List.take_of_length_le (le_of_eq h.length_stays)]
    cases h with
    | nowhere _ _ _ _ hidle => rw [hidle] at hphase; cases hphase
    | halted _ _ hidle => rw [hidle] at hphase; cases hphase
    | choosing hp hst hawaits hhalted =>
      refine .choosing (hp.congr rfl rfl rfl) hst (.inl ?_) hhalted
      rcases hawaits with hawaits | ⟨-, hawaits⟩
      · rw [hawaits] at hphase; cases hphase
      · exact Option.some.inj (hfrom.symm.trans hawaits)
    | presenting hp hst hawaits hhalted htext hcommand hblank hline =>
      refine .presenting (hp.congr rfl rfl rfl) hst (.inl ?_) hhalted htext hcommand hblank hline
      rcases hawaits with hawaits | ⟨-, hawaits⟩
      · rw [hawaits] at hphase; cases hphase
      · exact Option.some.inj (hfrom.symm.trans hawaits)
  | ended _ => exact .nowhere rfl rfl rfl rfl rfl
  | lost _ _ => exact .nowhere rfl rfl rfl rfl rfl
  | unreadable _ _ => exact .nowhere rfl rfl rfl rfl rfl

/-- A session that waits for one thing does not wait for another. -/
private theorem Awaits.eq {phase phase' : Phase} (h : s.Awaits phase) (hs : s.phase = phase')
    (hpaused : phase' ≠ .paused) : phase = phase' := by
  rcases h with h | ⟨h, -⟩
  · exact h.symm.trans hs
  · exact absurd (hs.symm.trans h) hpaused

/-- The decision that waits is the one that has been opened last. -/
theorem At.openDecision?_eq {p : Place} {d : Decision} (h : s.At w ys p)
    (hst : p.stance = .asking d) : s.openDecision? = some d := by
  have htour := h.tour
  rw [hst] at htour
  obtain ⟨hmem, -⟩ := Node.decisionAt?_some (htour.poised_stands h.laid).2.1
  have hdecisions : p.node.decisions = p.stay.node.decisions := by
    rw [← h.belongs.rewound]
    rfl
  simp [openDecision?, h.node_eq, h.cursor, hst, Stance.cursor, Cursor.opening, hdecisions,
    h.laid.at?_decision hmem]

/-- A session that starts anew has nothing but the node at which it starts. -/
theorem entered_fresh (vs : Variables) (n : Node) : (s.fresh.withVars vs).entered n =
    { s.fresh.withVars vs with
      traversal := { s.traversal with
        frames := [{ node := n.name, context := n.context }]
        cursor := {}
        history := [] }
      nodes := [n] } := by
  simp [entered, fresh, withVars, cleared, replaceNodes, Traversal.top, Traversal.enter,
    modifyLast]

/-- A session that starts anew is in the node at which it starts. -/
theorem at_start {vs : Variables} {name context : String} {n : Node}
    (hn : (w.find vs name context).result = .ok n) (vs' : Variables) :
    { (s.fresh.withVars vs').entered n with seen := [] }.At w [.begin n] {
      frames := []
      frame := { node := n.name, context := n.context }
      nodes := []
      node := n
      stays := []
      stay := .begin n
      cursor := {}
      stance := .arrived } := by
  rw [entered_fresh]
  exact ⟨rfl, rfl, rfl, rfl, .nil, .of_found hn, .enter (by simp), by simp [Knows]⟩

/-- Whatever the session was before, it runs when it has started. -/
theorem running_start {vs : Variables} {name context : String} {n : Node}
    (hn : (w.find vs name context).result = .ok n) (vs' : Variables) :
    { (s.fresh.withVars vs').entered n with seen := [] }.Running w [.begin n] := by
  refine ⟨_, at_start hn vs', trivial, fun hhalted => ?_⟩
  rw [entered_fresh] at hhalted
  cases hhalted

/-- A session that leaves the line on screen behind goes on at the next line. -/
theorem At.leaves {p : Place} (hp : s.At w ys p) (hst : p.stance = .showing) :
    { s.atNextLine with seen := [] }.At w ys
      { p with cursor := p.cursor.moveTo (p.cursor.line + 1), stance := .arrived } := by
  have htour := hp.tour
  rw [hst] at htour
  have hcursor := hp.cursor_eq (by rw [hst]; rfl)
  exact {
    frames := hp.frames
    nodes := hp.nodes
    stays := hp.stays
    cursor := by
      rw [← hcursor]
      rfl
    below := hp.below_of_seen (by simp)
    belongs := hp.belongs
    tour := htour.advance
    knows := by simp [Knows] }

/-- An input that is followed by a run begins it in a node. -/
theorem Resting.begins (h : s.Resting w ys) {i : Input} {seen : List Visit}
    (hs' : s.Begins w i seen s') : { s' with seen }.Running w (i.stays s s' ys) := by
  cases hs' with
  | @start node context n hnew hn hlines =>
    have hstays : (Input.start node context).stays s
        ((s.fresh.withVars (w.find s.vars node context).vars).entered n) ys = [.begin n] := by
      show List.map Stay.begin _ = _
      rw [entered_fresh]
      rfl
    rw [hstays]
    exact running_start hn _
  | leaveLine hi hphase =>
    -- going on and waiting until the time is over come to the same
    have hstays : i.stays s s.atNextLine ys = ys := by
      rcases hi with rfl | ⟨dt, rfl⟩ <;> rfl
    rw [hstays]
    cases h with
    | nowhere _ _ _ _ hidle => rw [hidle] at hphase; cases hphase
    | halted _ _ hidle => rw [hidle] at hphase; cases hphase
    | choosing _ _ hawaits _ => cases hawaits.eq hphase (by simp)
    | @presenting p text hp hst hawaits hhalted _ _ _ _ =>
      exact ⟨_, hp.leaves hst, trivial, by simp [atNextLine, withCursor, hhalted]⟩
  | @choose index d o n hphase hn hd ho =>
    cases h with
    | nowhere _ _ _ _ hidle => rw [hidle] at hphase; cases hphase
    | halted _ _ hidle => rw [hidle] at hphase; cases hphase
    | presenting _ _ hawaits _ _ _ _ _ => cases hawaits.eq hphase (by simp)
    | @choosing p d' hp hst hawaits hhalted =>
      -- the option is one of the decision that waits
      obtain rfl := Option.some.inj (hd.symm.trans (hp.openDecision?_eq hst))
      obtain rfl := Option.some.inj (hn.symm.trans hp.node_eq)
      have htour := hp.tour
      rw [hst] at htour
      have hstays : Input.stays s (s.withCursor (s.traversal.cursor.choosing index o.start)) ys
          (.decide index) = modifyLast (Stay.note [.chose d o]) ys := by
        simp [Input.stays, choice?, hd, ho]
      have hvisit (k : Nat) : p.node.visit k .decision d.index =
          p.stay.node.visit k .decision d.index := by
        rw [← hp.belongs.rewound]
        rfl
      rw [hstays, hp.length_nodes, hvisit]
      refine ⟨_, hp.remain (n := p.node)
        (c := (p.cursor.opening d.index).choosing index o.start) .answered _ rfl rfl
        hp.nodes rfl ?_ ?_ (htour.choose ho), trivial, by simp [withCursor, hhalted]⟩
      · show s.traversal.cursor.choosing index o.start = _
        rw [hp.cursor, hst]
        rfl
      · intro v hv
        exact .inr ⟨_, _, List.mem_singleton.mp hv⟩

end Session

namespace Life

variable {σ : Type} {o : Observer σ} {w : Shelf} {running : Bool} {s : Session} {ys : List Stay}

/-- How a session stands. -/
theorem stands (h : Life o w running s ys) :
    if running then s.Running w ys else s.Resting w ys := by
  -- each move of a life is one of its session, up to what is on show
  induction h with
  | fresh _ _ => exact .nowhere rfl rfl rfl rfl rfl
  | @rests s ys _ st st' hw hs i hi ih =>
    subst hw hs
    obtain ⟨s', hs', hfollows⟩ := (Input.prepare_ends st o i).of_ok hi
    have hrest := Session.Resting.rests ih hs'
    rw [hfollows.session.nodes]
    exact hrest.of_alike hfollows.session
  | @fails s ys _ st st' hw hs i f hi ih =>
    subst hw hs
    obtain ⟨s', hs', hfollows⟩ := (Input.prepare_ends st o i).of_error hi
    have hrest := Session.Resting.rests ih hs'
    rw [hfollows.session.nodes]
    exact hrest.of_alike hfollows.session
  | @begins s ys _ st st' hw hs i seen hi ih =>
    subst hw hs
    obtain ⟨s', hs', hfollows⟩ := (Input.prepare_ends st o i).of_ok hi
    have hrun := Session.Resting.begins ih hs'
    obtain ⟨_, _, _, _, _, heq⟩ := hfollows.session
    have hstays : i.stays st.session st'.session ys = i.stays st.session s' ys := by
      rw [heq]
      cases i <;> rfl
    rw [hstays]
    exact hrun.of_alike (hfollows.session.remembering seen)
  | @steps s ys _ st st' hw hs goesOn hstep ih =>
    subst hw hs
    obtain ⟨s', hs', hfollows⟩ := (Act.step_ends st o).of_ok hstep
    have hfollow : Stay.follow st.session st'.session st.session.deeds ys =
        Stay.follow st.session s' st.session.deeds ys := by
      rw [Stay.follow, hfollows.session.nodes]
      rfl
    have hnext := Session.Running.step ih hs'
    rw [hfollow]
    cases goesOn with
    | true => exact Session.Running.of_alike hnext hfollows.session
    | false => exact Session.Resting.of_alike hnext hfollows.session

/-- Every node on the stack is on a tour. -/
theorem exists_tour (h : Life o w running s ys) {y : Stay} (hy : y ∈ ys) :
    ∃ f n depth seen c st, Belongs w f n y ∧ Tour y.node depth seen c st y.deeds := by
  have hstands := h.stands
  cases running with
  | true =>
    obtain ⟨p, hp, -⟩ := hstands
    exact hp.exists_tour hy
  | false =>
    cases hstands with
    | nowhere _ _ _ hstays _ => rw [hstays] at hy; cases hy
    | halted hp _ _ => exact hp.exists_tour hy
    | choosing hp _ _ _ => exact hp.exists_tour hy
    | presenting hp _ _ _ _ _ _ _ => exact hp.exists_tour hy

end Life

end VisualNovel
