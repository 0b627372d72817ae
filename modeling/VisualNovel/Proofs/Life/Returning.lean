import VisualNovel.Proofs.Life.Play
import VisualNovel.Proofs.Life.Shifting

/-!
# Calls return

A command that leads to another node is a call. The node that is called runs on top of the caller,
and may call further nodes, but nothing that happens there touches the stack below. When the node is
taken off, the caller goes on behind its command with the blocks that were open then. Only a new
start and a stored session that is taken up put another stack in the place of this one.

## Main definitions

* `Session.call?`: the call that the next step carries out;
* `Session.Idle`: a call that comes to nothing;
* `Session.Calling`: a session behind its command, in front of the call;
* `Session.Suspended`, `Session.Steady`, `Session.Returned`: a caller waits, goes on at once, or goes
  on when the call has returned.

## Main results

* `Act.step_calls`: what a step that carries out a call leads to;
* `Course.call_returns`: a call returns to the line behind it.
-/

namespace VisualNovel

open Act

/-- Only a command leads to a node. -/
theorem Command.isCommandLine_of_target {text name : String} (h : target? text = some name) :
    isCommandLine text.toList := by
  unfold target? ofLine? at h
  split at h
  · assumption
  · cases h

namespace Session

/-- The node to which the next step leads, if it carries out a command that leads to one, and the
cursor at that command. -/
def call? (s : Session) : Option (Cursor × String) := do
  let n ← s.node
  let m := n.passConditionals s.vars s.nodes.length s.seen s.traversal.cursor
  -- the command is carried out if the passes over the blocks leave the cursor at its line
  match n.passDecisions s.nodes.length m.seen m.cursor with
  | (c, .onward) =>
    if s.halted || n.lines.length ≤ s.traversal.cursor.line || m.stuck ||
        c.line ≠ s.traversal.cursor.line then none
    else return (c, ← Command.target? (← at? n.lines c.line))
  | _ => none

/-- A call of the node comes to nothing, because the node is complete, on top already or without
lines. -/
def Idle (w : Shelf) (s : Session) (name : String) : Prop :=
  name ∈ s.traversal.completed ∨ (∃ f, s.traversal.top = some f ∧ f.node = name) ∨
    ∃ f vs n, s.traversal.top = some f ∧ (w.find vs name f.context).result = .ok n ∧ n.lines = []

/-- The innermost node waits at a cursor, below a further node. -/
structure Suspended (s s' : Session) (c : Cursor) : Prop where
  /-- There is a further node. -/
  depth : s'.depth = s.depth + 1
  /-- The cursor is kept in the frame of the node that waits. -/
  frames : s'.traversal.frames.take s.depth =
    modifyLast (fun f => { f with suspended := c }) s.traversal.frames
  /-- The nodes are those from before. -/
  nodes : s'.nodes.take s.depth = modifyLast (fun n => { n with line := c.line }) s.nodes

/-- The innermost node goes on at a cursor. -/
structure Returned (s s' : Session) (c : Cursor) : Prop where
  /-- The cursor is there, with its open blocks. -/
  cursor : s'.traversal.cursor = c
  /-- The frames are those from before; the blocks are no longer kept in the innermost one. -/
  frames : s'.traversal.frames =
    modifyLast (fun f => { f with suspended := c.withoutBlocks }) s.traversal.frames
  /-- The nodes are those from before. -/
  nodes : s'.nodes = modifyLast (fun n => { n with line := c.line }) s.nodes

/-- The innermost node goes on where it was. -/
structure Steady (s s' : Session) : Prop where
  /-- The stack has stayed as it was. -/
  level : s.Level s'
  /-- So has the cursor. -/
  cursor : s'.traversal.cursor = s.traversal.cursor
  /-- The session has not been halted. -/
  halted : s'.halted = s.halted

variable {w : Shelf} {s s₁ s' : Session} {c : Cursor} {name : String}

theorem Steady.of_alike (h : s.Steady s₁) (hlike : s₁.Alike s') : s.Steady s' := by
  have hlevel := Level.of_alike hlike
  obtain ⟨_, _, _, _, _, rfl⟩ := hlike
  exact ⟨h.level.trans hlevel, h.cursor, h.halted⟩

/-- Unless the node of a call that comes to nothing is complete it is found, and then it has no
lines or is on top. -/
theorem Idle.exists_find {context : String} (h : s.Idle w name) (hs : s.Stocked w)
    (hcontext : ∀ f, s.traversal.top = some f → f.context = context)
    (hnew : ¬s.traversal.completed.contains name) :
    ∃ n, (w.find s.vars name context).result = .ok n ∧
      (n.lines = [] ∨ s.traversal.top.any fun f => f.node = n.name) := by
  rcases h with h | ⟨f, hf, rfl⟩ | ⟨f, vs, n, hf, hn, hlines⟩
  · exact absurd (List.contains_iff_mem.mpr h) hnew
  · obtain ⟨n, vs, hn⟩ := hs.found f (List.mem_of_getLast? hf)
    obtain rfl := hcontext f hf
    have hname := (Script.search_header hn).1
    exact ⟨n, (Script.search_congr _ vs).trans hn, .inr (by simp [hf, hname])⟩
  · obtain rfl := hcontext f hf
    exact ⟨n, (Script.search_congr _ vs).trans hn, .inl hlines⟩

/-- What the passes over the blocks come to in front of a call. -/
theorem passes_of_call (h : s.call? = some (c, name)) :
    ∃ n m text, s.Passes n m c .onward ∧ m.stuck = false ∧
      c.line = s.traversal.cursor.line ∧ at? n.lines c.line = some text ∧
      Command.target? text = some name := by
  obtain ⟨n, hn, h⟩ := Option.bind_eq_some_iff.mp h
  dsimp only at h
  split at h
  · next c' hd =>
    split at h
    · cases h
    · next hgo =>
      simp only [Option.bind_eq_bind, Option.bind_eq_some_iff] at h
      obtain ⟨text, htext, name', htarget, h⟩ := h
      obtain ⟨rfl, rfl⟩ := Prod.mk.inj (Option.some.inj h)
      simp only [Bool.or_eq_true, decide_eq_true_eq, not_or, not_le, ne_eq, not_not,
        Bool.not_eq_true] at hgo
      obtain ⟨⟨⟨hhalted, hline⟩, hstuck⟩, hsame⟩ := hgo
      exact ⟨n, _, text, ⟨hhalted, hn, hline, rfl, hd⟩, hstuck, hsame, htext, htarget⟩
  · cases h

/-- Where a node that has been called is entered on top of the caller, the caller waits. -/
theorem GoesTo.suspended (h : s.GoesTo w name s') (hs : s.Stocked w) (hpos : 0 < s.depth)
    (hd : s.depth < s'.depth) : s.Suspended s' s.traversal.cursor := by
  cases h with
  | @entered context n _ _ _ _ =>
    generalize (w.find s.vars name context).vars = vs at hd ⊢
    obtain ⟨fs, f, ns, m, hf, hm, hlength⟩ := hs.exists_concat hpos
    cases htop : s.traversal.top.any fun f => f.node = n.name with
    | true =>
      rw [entered_of_top (s := s.withVars vs) hm htop] at hd
      exact absurd hd (lt_irrefl s.depth)
    | false =>
      rw [entered_of_not_top (s := s.withVars vs) hf hm htop]
      have hdepth : s.depth = fs.length + 1 := by simp [Session.depth, hf]
      refine ⟨by simp [Session.depth, hf], ?_, ?_⟩
      · simp [hdepth, hf, List.take_append, List.take_of_length_le (Nat.le_succ fs.length),
          withVars]
      · simp [hdepth, hm, List.take_append, hlength,
          List.take_of_length_le (Nat.le_succ ns.length), withVars]
  | _ => exact absurd hd (lt_irrefl s.depth)

end Session

namespace Act

variable {σ : Type} {st : Stage σ} (o : Observer σ) {name text : String}
  {E : Failure → Stage σ → Prop}

/-- How a node is opened if this comes to nothing. -/
theorem openNode_idle_ends {context : String} (hs : st.session.Stocked st.shelf)
    (h : st.session.Idle st.shelf name)
    (hcontext : ∀ f, st.session.traversal.top = some f → f.context = context) :
    Ends (openNode o.hear name context) st (fun _ st' => st.session.Steady st'.session)
      fun _ _ => False := by
  have hfound (f : Failure) (hnew : ¬st.session.traversal.completed.contains name) :
      (st.shelf.find st.session.vars name context).result ≠ .error f := by
    obtain ⟨n, hn, -⟩ := h.exists_find hs hcontext hnew
    simp [hn]
  refine openNode_ends o ?_ ?_ ?_ (fun f _ hnew hf _ _ => hfound f hnew hf)
    fun f _ hnew hf _ _ => hfound f hnew hf
  · exact fun _ => ⟨.refl _, rfl, rfl⟩
  · intro n st' _ _ _ hfollows
    have hsteady (vs : Variables) : st.session.Steady (st.session.withVars vs) :=
      ⟨⟨rfl, rfl, rfl⟩, rfl, rfl⟩
    exact (hsteady _).of_alike hfollows.session
  · -- a node with lines is on top already, and is only put there once more
    intro n st' hnew hn hlines hfollows
    obtain ⟨n', hn', hidle⟩ := h.exists_find hs hcontext hnew
    obtain rfl : n' = n := Except.ok.inj (hn'.symm.trans hn)
    have htop := hidle.resolve_left hlines
    have hsteady (vs : Variables) : st.session.Steady ((st.session.withVars vs).entered n') := by
      unfold Session.entered
      rw [if_pos (show (st.session.withVars vs).traversal.top.any _ from htop)]
      have hlevel := Session.Level.modifyNode st.session
        fun _ => { n' with line := st.session.traversal.cursor.line }
      exact ⟨⟨hlevel.frames, hlevel.length_nodes, hlevel.dropLast_nodes⟩, rfl, rfl⟩
    exact (hsteady _).of_alike hfollows.session

/-- How a call that comes to nothing ends. -/
theorem goTo_idle_ends (hs : st.session.Stocked st.shelf) (h : st.session.Idle st.shelf name) :
    Ends (goTo o.hear name) st (fun _ st' => st.session.Steady st'.session) fun _ _ => False := by
  simp only [goTo, ends_bind, ends_session, ends_attempt, ends_pure]
  refine (openNode_idle_ends o hs h fun f hf => ?_).imp (fun _ _ h => h) fun _ _ h => h.elim
  simp only [hf]

/-- How a command that leads to a node is carried out. -/
theorem dispatch_goTo_ends {goTo : String → Act σ Unit} {Q : Bool → Stage σ → Prop}
    (htarget : Command.target? text = some name)
    (h : Ends (goTo name) st (fun _ st' => ∀ st'', st'.Follows st'' st'.session → Q true st'') E) :
    Ends (dispatch o.hear goTo text false) st Q E := by
  obtain ⟨c, hc, d, hd, heffect⟩ : ∃ c, Command.ofLine? text = some c ∧
      ∃ d, Directive.ofName? c.name = some d ∧ d.effect c.argument false = .goTo name := by
    simp only [Command.target?, Option.bind_eq_bind, Option.bind_eq_some_iff] at htarget
    obtain ⟨c, hc, d, hd, htarget⟩ := htarget
    refine ⟨c, hc, d, hd, ?_⟩
    split at htarget
    · next name' heffect =>
      obtain rfl := Option.some.inj htarget
      exact heffect
    · cases htarget
  simp only [dispatch, hc, hd, heffect, bringAbout, ends_bind, ends_hear, ends_pure,
    Bool.not_false, if_true]
  exact h.imp (fun _ st' h' => h' _ ⟨by simp, by simp, by simp [Session.Alike.refl]⟩)
    fun _ _ hf => hf

/-- How a call is carried out in a step. -/
theorem step_call_ends {n : Node} {m : Motion} {c : Cursor} {Q : Bool → Stage σ → Prop}
    (hpass : st.session.Passes n m c .onward) (hstuck : m.stuck = false)
    (hsame : c.line = st.session.traversal.cursor.line) (htext : at? n.lines c.line = some text)
    (htarget : Command.target? text = some name)
    (h : ∀ st₁, st.Follows st₁ ((st.session.passed m c).noted text).atNextLine →
      Ends (goTo o.hear name) st₁ (fun _ st₂ => ∀ st₃, st₂.Follows st₃ st₂.session → Q true st₃)
        E) : Ends (step o.hear st.session.era) st Q E := by
  have hline : st.session.traversal.cursor.line < n.lines.length := hpass.line
  have hcommand := Command.isCommandLine_of_target htarget
  have hnode {n' : Node} (hn : st.session.node = some n') : n' = n :=
    Option.some.inj (hn.symm.trans hpass.node)
  refine step_rule ?_ (fun n' _ hn hend => ?_) fun n' _ hn _ => ?_
  · rintro (hhalted | hnone)
    · simp [hpass.halted] at hhalted
    · simp [hpass.node] at hnone
  · obtain rfl := hnode hn
    rw [Session.era, Session.traversalOf_era] at hend
    omega
  obtain rfl := hnode hn
  rw [Session.era, Session.traversalOf_era]
  refine passConditionals_ends hpass.conditionals (fun st₁ _ h₁ => ?_) fun _ hs => by
    rw [hstuck] at hs
    cases hs
  -- the passes come to the line of the command
  have hlike : (st.session.passed m c).Alike (st₁.session.withCursor c) := by
    obtain ⟨_, _, _, _, _, hs₁⟩ := h₁.session
    rw [hs₁]
    exact ⟨_, _, _, _, _, rfl⟩
  have hd₁ : n'.passDecisions st₁.session.nodes.length st₁.session.seen
      st₁.session.traversal.cursor = (c, .onward) := by
    obtain ⟨_, _, _, _, _, hs₁⟩ := h₁.session
    rw [hs₁]
    exact hpass.decisions
  refine passDecisions_ends o hd₁ (fun _ _ h => by cases h) (fun st₂ _ h₂ => ?_)
    fun _ h => by cases h
  have h₂ := h₁.trans h₂ hlike
  obtain ⟨_, _, _, _, _, hs₂⟩ := h₂.session
  have hera : st.session.retired.length = st₂.session.retired.length := by rw [hs₂]; rfl
  have hcursor : (st₂.session.traversalOf st.session.retired.length).cursor = c := by
    rw [hera, Session.traversalOf_era, hs₂]
    rfl
  refine ⟨fun hmoved => absurd (hcursor ▸ hsame) hmoved, fun _ hnone => ?_, fun text' _ htext' => ?_⟩
  · rw [← hsame, htext] at hnone
    cases hnone
  obtain rfl : text' = text := by
    rw [← hsame, htext] at htext'
    exact (Option.some.inj htext').symm
  rw [hera]
  -- the cursor is behind the command when it is carried out
  simp only [takeLine, hcommand, if_true, nextLine, ends_bind, ends_edit,
    Session.modifyTraversalOf_era, ends_pure]
  refine dispatch_goTo_ends o htarget (h _ ⟨h₂.setup, h₂.files, ?_⟩)
  rw [hs₂]
  exact ⟨_, _, _, _, _, rfl⟩

end Act

section Calls

variable {σ : Type} {o : Observer σ} {w : Shelf} {s s₁ s₂ s₃ : Session} {c : Cursor}
  {name : String}

/-- A session that comes back to where the call was goes on behind it. -/
theorem Session.Suspended.returned (h : s.Suspended s₁ c) (hpos : 0 < s.depth)
    (hs₁ : s₁.Stocked w) (hwithin : s₁.Within o w s.depth s₂) (hshift : s₂.Shift w s₃)
    (hd : s₃.depth ≤ s.depth) : s.Returned s₃ c := by
  have hdepth : s.depth < s₁.depth := by rw [h.depth]; exact Nat.lt_succ_self _
  obtain ⟨hstocked, hdepth₂, hframes, hnodes⟩ := hwithin.take_eq hs₁ hdepth
  obtain ⟨fs, f, hfs, hframes₃, hcursor, hnodes₃⟩ := hshift.pop_of_le hstocked hpos hdepth₂ hd
  -- the frame that comes up is the one of the call
  obtain ⟨gs, g, hgs⟩ := exists_concat (List.length_pos_iff.mp hpos)
  have htop : fs ++ [f] = gs ++ [{ g with suspended := c }] := by
    rw [← hfs, hframes, h.frames, hgs, modifyLast_concat]
  obtain ⟨rfl, hf⟩ := List.append_inj' htop rfl
  obtain rfl := List.singleton_inj.mp hf
  refine ⟨hcursor, ?_, ?_⟩
  · rw [hframes₃, hgs, modifyLast_concat]
  · rw [hnodes₃, hnodes, h.nodes]

/-- The session in which a command is carried out is behind the command, and has come there with its
stack. -/
structure Session.Calling (s s₁ : Session) (c : Cursor) : Prop where
  /-- The cursor is behind the command. -/
  cursor : s₁.traversal.cursor = c.moveTo (c.line + 1)
  /-- The frames are the same. -/
  frames : s₁.traversal.frames = s.traversal.frames
  /-- The nodes are the same. -/
  nodes : s₁.nodes = s.nodes
  /-- So are those that are complete. -/
  completed : s₁.traversal.completed = s.traversal.completed
  /-- Nothing has been halted. -/
  halted : s₁.halted = false

namespace Session.Calling

variable (h : s.Calling s₁ c)

include h

theorem level : s.Level s₁ := ⟨h.frames, by rw [h.nodes], by rw [h.nodes]⟩

/-- Whether a call comes to nothing is the same behind the command. -/
theorem idle_iff : s₁.Idle w name ↔ s.Idle w name := by
  simp only [Session.Idle, Traversal.top, h.frames, h.completed]

/-- A caller that waits behind the command waits for the call. -/
theorem suspended (hs : s₁.Suspended s' s₁.traversal.cursor) :
    s.Suspended s' (c.moveTo (c.line + 1)) := by
  refine ⟨?_, ?_, ?_⟩
  · rw [← h.level.depth_eq]
    exact hs.depth
  · rw [← h.level.depth_eq, ← h.frames, ← h.cursor]
    exact hs.frames
  · rw [← h.level.depth_eq, ← h.nodes, ← h.cursor]
    exact hs.nodes

end Session.Calling

/-- What a step that carries out a call leads to. -/
theorem Act.step_calls {st : Stage σ} (o : Observer σ) (hs : st.session.Stocked st.shelf)
    (hcall : st.session.call? = some (c, name)) : Ends (step o.hear st.session.era) st
      (fun goesOn st' =>
        (st.session.depth < st'.session.depth →
          goesOn ∧ st.session.Suspended st'.session (c.moveTo (c.line + 1))) ∧
        (st.session.Idle st.shelf name → goesOn ∧ st'.session.halted = false ∧
          st.session.Level st'.session ∧
          st'.session.traversal.cursor = c.moveTo (c.line + 1)))
      fun _ _ => ¬st.session.Idle st.shelf name := by
  obtain ⟨n, m, text, hpass, hstuck, hsame, htext, htarget⟩ := Session.passes_of_call hcall
  have hpos : 0 < st.session.depth := by
    rw [← hs.length_nodes]
    exact List.length_pos_of_mem (List.mem_of_getLast? hpass.node)
  refine step_call_ends o hpass hstuck hsame htext htarget fun st₁ h₁ => ?_
  have hcalling : st.session.Calling st₁.session c := by
    obtain ⟨_, _, _, _, _, hs₁⟩ := h₁.session
    rw [hs₁]
    exact ⟨rfl, rfl, rfl, rfl, hpass.halted⟩
  have hlevel := hcalling.level
  have hs₁ : st₁.session.Stocked st₁.shelf := h₁.shelf ▸ hlevel.stocked hs
  by_cases h : st.session.Idle st.shelf name
  · -- the call comes to nothing
    have hidle : st₁.session.Idle st₁.shelf name := h₁.shelf ▸ hcalling.idle_iff.mpr h
    refine (goTo_idle_ends o hs₁ hidle).imp ?_ fun _ _ hf => hf.elim
    rintro - st₂ hsteady st₃ h₃
    have hsteady := hsteady.of_alike h₃.session
    have hlevel₃ := hlevel.trans hsteady.level
    refine ⟨fun hd => absurd hd (by rw [hlevel₃.depth_eq]; exact lt_irrefl _), fun _ => ?_⟩
    exact ⟨rfl, hsteady.halted.trans hcalling.halted, hlevel₃,
      hsteady.cursor.trans hcalling.cursor⟩
  · -- if the stack is deeper then, the caller waits below
    refine goTo_ends o (fun s' st₂ hgoes h₂ st₃ h₃ => ⟨fun hd => ⟨rfl, ?_⟩, fun h' => absurd h' h⟩)
      fun _ _ _ _ _ _ => h
    have hlike := h₂.session.trans h₃.session
    have hdepth₃ : st₃.session.depth = s'.depth := (Session.Level.of_alike hlike).depth_eq
    have hsuspended := hgoes.suspended hs₁ (hlevel.depth_eq ▸ hpos)
      (by rw [hlevel.depth_eq, ← hdepth₃]; exact hd)
    obtain ⟨_, _, _, _, _, hs₃⟩ := hlike
    rw [hs₃]
    exact hcalling.suspended ⟨hsuspended.depth, hsuspended.frames, hsuspended.nodes⟩

/-- A call returns. If it puts a further node on the stack, then as long as more nodes are there
than at the call, whatever is asked of the session, the frames and nodes of the call stay as they
are, and only a step brings the session back: it goes on behind the call, with the blocks that were
open there. A call of a node that is complete, on top already or without lines goes on at once. -/
theorem Course.call_returns (h : Course o w s) (hcall : s.call? = some (c, name)) {st : Stage σ}
    (hw : st.shelf = w) (hs : st.session = s) : Ends (step o.hear s.era) st
      (fun goesOn st₁ =>
        (s.depth < st₁.session.depth →
          goesOn ∧ s.Suspended st₁.session (c.moveTo (c.line + 1)) ∧
          ∀ s₂, st₁.session.Within o w s.depth s₂ →
            s₂.traversal.frames.take s.depth = st₁.session.traversal.frames.take s.depth ∧
            s₂.nodes.take s.depth = st₁.session.nodes.take s.depth ∧
            ∀ st₂ : Stage σ, st₂.shelf = w → st₂.session = s₂ →
              Ends (step o.hear s₂.era) st₂
                (fun _ st₃ => st₃.session.depth ≤ s.depth →
                  s.Returned st₃.session (c.moveTo (c.line + 1)))
                fun _ st₃ => s.depth < st₃.session.depth) ∧
        (s.Idle w name → goesOn ∧ st₁.session.halted = false ∧ s.Level st₁.session ∧
          st₁.session.traversal.cursor = c.moveTo (c.line + 1)))
      fun _ _ => ¬s.Idle w name := by
  subst hw hs
  have hpos : 0 < st.session.depth := by
    obtain ⟨n, m, text, hpass, -⟩ := Session.passes_of_call hcall
    rw [← h.stocked.length_nodes]
    exact List.length_pos_of_mem (List.mem_of_getLast? hpass.node)
  refine (step_calls o h.stocked hcall).and_eq.imp ?_ fun _ _ hf => hf.1
  rintro goesOn st₁ ⟨⟨hpush, hidle⟩, hstep⟩
  refine ⟨fun hd => ?_, hidle⟩
  obtain ⟨hgoesOn, hsuspended⟩ := hpush hd
  have hs₁ : st₁.session.Stocked st.shelf := (h.moves (.steps rfl rfl hstep)).stocked
  refine ⟨hgoesOn, hsuspended, fun s₂ hwithin => ?_⟩
  obtain ⟨hs₂, hdepth₂, hframes, hnodes⟩ := hwithin.take_eq hs₁ hd
  refine ⟨hframes, hnodes, ?_⟩
  rintro st₂ hw₂ rfl
  -- a step that fails takes nothing off the stack
  refine ((step_level o st₂).and_eq).imp ?_ fun f st₃ hlevel => ?_
  · rintro b st₃ ⟨-, hstep₂⟩ hd₃
    obtain ⟨s', hs', hfollows⟩ := (step_ends st₂ o).of_ok hstep₂
    rw [hw₂] at hs'
    exact hsuspended.returned hpos hs₁ hwithin ((hs'.shift hs₂).of_alike hfollows.session) hd₃
  · rw [hlevel.1.depth_eq]
    exact hdepth₂

/-- A script in which an option of a decision leads to another node and back. -/
private def stairwell : Stage Unit := .ofScript
  ["#Node: main", "#StartDecision", "-Down", "Stairs.", "[GoTo=cellar]", "Light again.",
    "#EndDecision", "#EndNode", "#Node: cellar", "Dark.", "#EndNode"]

/-- The reader goes down and comes to the call. -/
private def goingDown : List Stride :=
  [.asks (.input (.start "main" "")), .begins [], .steps, .asks (.input (.decide 0)),
    .begins [⟨1, "main", .decision, 0⟩], .steps, .asks (.input .advance),
    .asks (.input .advance), .begins []]

/-- The reader is shown the line of the node that has been called, and goes on. -/
private def lookingAround : List Stride :=
  [.steps, .asks (.input .advance), .asks (.input .advance), .begins []]

/-- A call is made in an option, and it comes back there. -/
private theorem stairwell_walks : (stairwell.walk .noting (fun _ => true) goingDown).any fun st =>
    st.session.call? = some (⟨1, [0], [0], [], []⟩, "cellar") ∧
      Ends (step (.noting : Observer Unit).hear st.session.era) st
        (fun _ st₁ => st.session.depth < st₁.session.depth ∧
          (st₁.walk .noting (fun s => st.session.depth < s.depth) lookingAround).any fun st₂ =>
            Ends (step (.noting : Observer Unit).hear st₂.session.era) st₂
              (fun _ st₃ => st₃.session.depth ≤ st.session.depth) fun _ _ => False)
        fun _ _ => False := by
  decide +kernel

/-- Behind the call the reader is in the option again. -/
theorem Course.call_returns_stairwell : ∃ (s s₁ s₂ s₃ : Session) (c : Cursor),
    Course (.noting : Observer Unit) stairwell.shelf s ∧ s.call? = some (c, "cellar") ∧
      s.depth < s₁.depth ∧ s₁.Within (.noting : Observer Unit) stairwell.shelf s.depth s₂ ∧
      s.Returned s₃ (c.moveTo (c.line + 1)) ∧ s₃.traversal.cursor = ⟨2, [0], [0], [], []⟩ := by
  obtain ⟨st, hdown, hwalks⟩ := (Option.any_eq_true ..).mp stairwell_walks
  obtain ⟨hcall, hends⟩ := of_decide_eq_true hwalks
  obtain ⟨hs, hw⟩ := Stage.walk_keep (P := Course .noting stairwell.shelf)
    (fun _ _ h hm _ => h.moves hm) rfl (.fresh {} .empty) hdown
  have hreturns := hs.call_returns hcall hw rfl
  obtain ⟨goesOn, st₁, hstep, hdepth, hlooks⟩ := hends.exists_ok
  obtain ⟨-, -, hlater⟩ := (hreturns.of_ok hstep).1 hdepth
  obtain ⟨st₂, hlook, hback⟩ := (Option.any_eq_true ..).mp hlooks
  -- what lies between the call and the return stays within the call
  have hw₁ : st₁.shelf = stairwell.shelf := ((step_shelf .noting st).of_ok hstep).trans hw
  obtain ⟨hwithin, hw₂⟩ := Stage.walk_keep
    (P := st₁.session.Within .noting stairwell.shelf st.session.depth)
    (fun _ _ h hm hd => h.moves hm (of_decide_eq_true hd)) hw₁ .now hlook
  obtain ⟨-, -, hreturned⟩ := hlater _ hwithin
  obtain ⟨_, st₃, hstep₃, hdepth₃⟩ := (of_decide_eq_true hback).exists_ok
  have hreturned := (hreturned st₂ hw₂ rfl).of_ok hstep₃ hdepth₃
  exact ⟨st.session, st₁.session, st₂.session, st₃.session, _, hs, hcall, hdepth, hwithin,
    hreturned, hreturned.cursor⟩

end Calls

end VisualNovel
