import VisualNovel.Proofs.Life.Moves
import VisualNovel.Proofs.Life.Secure

/-!
# How the stack of a session changes

A move of a session puts one node on its stack, takes one off or leaves the stack as it is, unless
the session starts anew. Whatever is below the innermost node is left alone. So while the stack is
deeper than it was at some time, the frames and nodes of that time stay where they are.

## Main definitions

* `Session.Stocked`: each frame has a node, and its node can be found;
* `Session.Level`: the stack has stayed as it was;
* `Session.Shift`: how the stack changes in a step;
* `Session.Within`: the sessions to which moves lead while the stack is deeper than it was.

## Main results

* `Session.Step.shift`, `Act.step_level`, `Session.Move.shift`: how moves change the stack;
* `Course.stocked`: throughout the course of a session the stack is stocked;
* `Session.Within.take_eq`: what is below stays as it is.
-/

namespace VisualNovel

open Act

namespace Session

/-- How many nodes are on the stack. -/
def depth (s : Session) : Nat := s.traversal.frames.length

/-- Each frame on the stack has a node, and its node can be found in the scripts. -/
structure Stocked (w : Shelf) (s : Session) : Prop where
  /-- There are as many nodes as frames. -/
  length_nodes : s.nodes.length = s.depth
  /-- The nodes of the frames can be found. -/
  found : ∀ f ∈ s.traversal.frames, ∃ n, w.Holds f n

/-- The stack has stayed as it was, except that the innermost node may have been replaced. -/
structure Level (s s' : Session) : Prop where
  /-- The frames are the same. -/
  frames : s'.traversal.frames = s.traversal.frames
  /-- There are as many nodes as before. -/
  length_nodes : s'.nodes.length = s.nodes.length
  /-- The nodes below the innermost one are the same. -/
  dropLast_nodes : s'.nodes.dropLast = s.nodes.dropLast

/-- How the stack of a session changes in a step. -/
inductive Shift (w : Shelf) (s s' : Session) : Prop where
  /-- The stack stays as it was. -/
  | stay (h : s.Level s')
  /-- A further node is entered, and the one that was innermost waits below it. -/
  | push {fs : List Frame} {f g : Frame} {c : Cursor} {ns : List Node} {m m' n : Node}
      (hframes : s.traversal.frames = fs ++ [f]) (hnodes : s.nodes = ns ++ [m])
      (hframes' : s'.traversal.frames = fs ++ [{ f with suspended := c }, g])
      (hnodes' : s'.nodes = ns ++ [m', n]) (hg : ∃ n, w.Holds g n)
  /-- The innermost node is taken off, and the one below it goes on. -/
  | pop {fs : List Frame} {f g : Frame} {ns : List Node} {m n : Node}
      (hframes : s.traversal.frames = fs ++ [f, g]) (hnodes : s.nodes = ns ++ [m, n])
      (hframes' : s'.traversal.frames = fs ++ [{ f with suspended := f.suspended.withoutBlocks }])
      (hnodes' : s'.nodes = ns ++ [m]) (hcursor : s'.traversal.cursor = f.suspended)
  /-- A single node is put on the stack or taken off, or is replaced by another one. -/
  | ends (h : s.depth ≤ 1) (h' : s'.depth ≤ 1) (hstocked : s'.Stocked w)

variable {w : Shelf} {s s₁ s' : Session} {d : Nat}

namespace Level

theorem refl (s : Session) : s.Level s := ⟨rfl, rfl, rfl⟩

theorem trans (h : s.Level s₁) (h₁ : s₁.Level s') : s.Level s' :=
  ⟨h₁.frames.trans h.frames, h₁.length_nodes.trans h.length_nodes,
    h₁.dropLast_nodes.trans h.dropLast_nodes⟩

/-- What is on show does not matter for the stack. -/
theorem of_alike (h : s.Alike s') : s.Level s' := by
  obtain ⟨_, _, _, _, _, rfl⟩ := h
  exact ⟨rfl, rfl, rfl⟩

/-- The innermost node is changed. -/
theorem modifyNode (s : Session) (f : Node → Node) : s.Level (s.modifyNode f) :=
  ⟨rfl, by simp [Session.modifyNode], by simp [Session.modifyNode]⟩

theorem depth_eq (h : s.Level s') : s'.depth = s.depth := congrArg List.length h.frames

theorem stocked (h : s.Level s') (hs : s.Stocked w) : s'.Stocked w :=
  ⟨h.length_nodes.trans (hs.length_nodes.trans h.depth_eq.symm), h.frames ▸ hs.found⟩

/-- Below the innermost node the nodes are the same. -/
theorem take_nodes (h : s.Level s') (hd : d < s.nodes.length) :
    s'.nodes.take d = s.nodes.take d := by
  have htake (l : List Node) (hl : d < l.length) : l.take d = l.dropLast.take d := by
    rw [List.dropLast_eq_take, List.take_take, Nat.min_eq_left (by omega)]
  rw [htake _ hd, htake _ (h.length_nodes ▸ hd), h.dropLast_nodes]

end Level

/-- A session that is not empty has an innermost frame and an innermost node. -/
theorem Stocked.exists_concat (h : s.Stocked w) (hs : 0 < s.depth) :
    ∃ fs f ns m, s.traversal.frames = fs ++ [f] ∧ s.nodes = ns ++ [m] ∧
      fs.length = ns.length := by
  obtain ⟨fs, f, hfs⟩ := VisualNovel.exists_concat (List.length_pos_iff.mp hs)
  have hlength := h.length_nodes
  obtain ⟨ns, m, hns⟩ := VisualNovel.exists_concat (l := s.nodes)
    (List.length_pos_iff.mp (by omega))
  refine ⟨fs, f, ns, m, hfs, hns, ?_⟩
  simp only [depth, hfs, hns, List.length_append, List.length_singleton] at hlength
  omega

namespace Shift

/-- Only the stack in front of the step matters for how it changes. -/
theorem of_level (h : s₁.Shift w s') (hs : s.traversal.frames = s₁.traversal.frames)
    (hnodes : s.nodes = s₁.nodes) : s.Shift w s' := by
  cases h with
  | stay h =>
    exact .stay ⟨h.frames.trans hs.symm, hnodes ▸ h.length_nodes, hnodes ▸ h.dropLast_nodes⟩
  | push hf hn hf' hn' hg => exact .push (hs.trans hf) (hnodes.trans hn) hf' hn' hg
  | pop hf hn hf' hn' hc => exact .pop (hs.trans hf) (hnodes.trans hn) hf' hn' hc
  | ends h h' hstocked => exact .ends (by rw [depth, hs]; exact h) h' hstocked

/-- Only the traversal and the nodes matter behind the step. -/
theorem congr (h : s.Shift w s₁) (htraversal : s'.traversal = s₁.traversal)
    (hnodes : s'.nodes = s₁.nodes) : s.Shift w s' := by
  cases h with
  | stay h =>
    exact .stay ⟨htraversal ▸ h.frames, hnodes ▸ h.length_nodes, hnodes ▸ h.dropLast_nodes⟩
  | push hf hn hf' hn' hg => exact .push hf hn (htraversal ▸ hf') (hnodes.trans hn') hg
  | pop hf hn hf' hn' hc => exact .pop hf hn (htraversal ▸ hf') (hnodes.trans hn') (htraversal ▸ hc)
  | ends h h' hstocked =>
    refine .ends h (by rw [depth, htraversal]; exact h') ⟨?_, htraversal ▸ hstocked.found⟩
    rw [depth, htraversal, hnodes]
    exact hstocked.length_nodes

/-- What is on show does not matter behind the step. -/
theorem of_alike (h : s.Shift w s₁) (hs : s₁.Alike s') : s.Shift w s' := by
  obtain ⟨_, _, _, _, _, rfl⟩ := hs
  exact h.congr rfl rfl

/-- A stack stays stocked. -/
theorem stocked (h : s.Shift w s') (hs : s.Stocked w) : s'.Stocked w := by
  have hlength := hs.length_nodes
  cases h with
  | stay h => exact h.stocked hs
  | @push fs f g c ns m m' n hf hn hf' hn' hg =>
    -- the frame that waits is of the same node as before
    have hfs := hs.found
    simp only [depth, hf, hn, List.length_append, List.length_singleton] at hlength
    refine ⟨by simp [depth, hf', hn']; omega, fun f' hmem => ?_⟩
    rw [hf'] at hmem
    rcases List.mem_append.mp hmem with hmem | hmem
    · exact hfs f' (by rw [hf]; exact List.mem_append_left _ hmem)
    · rcases List.mem_pair.mp hmem with rfl | rfl
      · exact hfs f (by rw [hf]; exact List.mem_append_right _ (List.mem_singleton_self f))
      · exact hg
  | @pop fs f g ns m n hf hn hf' hn' _ =>
    have hfs := hs.found
    simp only [depth, hf, hn, List.length_append, List.length_cons, List.length_nil] at hlength
    refine ⟨by simp [depth, hf', hn']; omega, fun f' hmem => ?_⟩
    rw [hf'] at hmem
    rcases List.mem_append.mp hmem with hmem | hmem
    · exact hfs f' (by rw [hf]; exact List.mem_append_left _ hmem)
    · obtain rfl := List.mem_singleton.mp hmem
      exact hfs f (by rw [hf]; exact List.mem_append_right _ (List.mem_cons_self))
  | ends _ _ hstocked => exact hstocked

/-- Frames and nodes below the innermost ones stay as they are, however the stack changes. -/
theorem take_eq (h : s.Shift w s') (hs : s.Stocked w) (hd : d < s.depth) (hd' : d < s'.depth) :
    s'.traversal.frames.take d = s.traversal.frames.take d ∧
      s'.nodes.take d = s.nodes.take d := by
  have hlength := hs.length_nodes
  cases h with
  | stay h => exact ⟨by rw [h.frames], h.take_nodes (by omega)⟩
  | @push fs f g c ns m m' n hf hn hf' hn' _ =>
    simp only [depth, hf, hn, List.length_append, List.length_singleton] at hlength hd
    rw [hf, hf', hn, hn']
    simp [List.take_append_of_le_length (show d ≤ fs.length by omega),
      List.take_append_of_le_length (show d ≤ ns.length by omega)]
  | @pop fs f g ns m n hf hn hf' hn' _ =>
    simp only [depth, hf, hn, hf', List.length_append, List.length_cons, List.length_nil]
      at hlength hd'
    rw [hf, hf', hn, hn']
    simp [List.take_append_of_le_length (show d ≤ fs.length by omega),
      List.take_append_of_le_length (show d ≤ ns.length by omega)]
  | ends h h' _ =>
    obtain rfl : d = 0 := by omega
    simp

/-- A step that brings the stack down to a depth takes a single node off, and the one below it goes
on. -/
theorem pop_of_le (h : s.Shift w s') (hs : s.Stocked w) (hpos : 0 < d) (hd : d < s.depth)
    (hd' : s'.depth ≤ d) :
    ∃ fs f, s.traversal.frames.take d = fs ++ [f] ∧
      s'.traversal.frames = fs ++ [{ f with suspended := f.suspended.withoutBlocks }] ∧
      s'.traversal.cursor = f.suspended ∧ s'.nodes = s.nodes.take d := by
  have hlength := hs.length_nodes
  cases h with
  | stay h =>
    rw [h.depth_eq] at hd'
    omega
  | @push fs f g c ns m m' n hf hn hf' hn' _ =>
    simp only [depth, hf, hf', List.length_append, List.length_cons, List.length_nil] at hd hd'
    omega
  | @pop fs f g ns m n hf hn hf' hn' hc =>
    simp only [depth, hf, hn, hf', List.length_append, List.length_cons, List.length_nil]
      at hlength hd hd'
    obtain rfl : d = fs.length + 1 := by omega
    refine ⟨fs, f, ?_, hf', hc, ?_⟩
    · simp [hf, List.take_append, List.take_of_length_le (Nat.le_succ fs.length)]
    · simp [hn, hn', List.take_append, show fs.length + 1 - ns.length = 1 by omega,
        List.take_of_length_le (show ns.length ≤ fs.length + 1 by omega)]
  | ends h _ _ => omega

end Shift

section Moves

/-- A node that has been found is entered. -/
theorem shift_entered (h : s.Stocked w) {vs vs' : Variables} {name context : String} {n : Node}
    (hn : (w.find vs name context).result = .ok n) :
    s.Shift w ((s.withVars vs').entered n) := by
  obtain ⟨hname, hcontext, -⟩ := Script.search_header hn
  have hheld : ∃ m, w.Holds { node := n.name, context := n.context } m :=
    ⟨n, vs, by rw [hname, hcontext]; exact hn⟩
  rcases Nat.eq_zero_or_pos s.depth with hzero | hpos
  · -- the stack has been empty
    have hframes : s.traversal.frames = [] := List.length_eq_zero_iff.mp hzero
    have hnodes : s.nodes = [] := List.length_eq_zero_iff.mp (h.length_nodes.trans hzero)
    refine .ends (by omega) ?_ ⟨?_, ?_⟩ <;>
      simp [depth, entered, Traversal.top, Traversal.enter, withVars, hframes, hnodes, modifyLast,
        hheld]
  obtain ⟨fs, f, ns, m, hf, hm, -⟩ := h.exists_concat hpos
  cases htop : s.traversal.top.any fun f => f.node = n.name with
  | true =>
    rw [entered_of_top (s := s.withVars vs') hm htop]
    exact .stay ⟨rfl, by simp [hm], by simp [hm]⟩
  | false =>
    rw [entered_of_not_top (s := s.withVars vs') hf hm htop]
    exact .push hf hm rfl (List.append_assoc ..) hheld

/-- A finished node is taken off the stack. -/
theorem shift_finished (h : s.Stocked w) {g : Frame} (hg : s.traversal.top = some g) :
    s.Shift w (s.finished g) := by
  obtain ⟨fs, hfs⟩ : ∃ fs, s.traversal.frames = fs ++ [g] := List.getLast?_eq_some_iff.mp hg
  have hlength := h.length_nodes
  simp only [depth, hfs, List.length_append, List.length_singleton] at hlength
  obtain ⟨ns, n, hns⟩ := VisualNovel.exists_concat (l := s.nodes)
    (List.length_pos_iff.mp (by omega))
  simp only [hns, List.length_append, List.length_singleton] at hlength
  rcases fs.eq_nil_or_concat with rfl | ⟨fs, f, rfl⟩
  · -- it has been the only one
    obtain rfl : ns = [] := List.length_eq_zero_iff.mp (by simpa using hlength)
    refine .ends ?_ ?_ ⟨?_, ?_⟩ <;>
      simp [depth, finished, Traversal.complete, Traversal.comeBack, hfs, hns]
  · rw [List.concat_eq_append] at hfs hlength
    obtain ⟨ns, m, rfl⟩ := VisualNovel.exists_concat (l := ns)
      (List.length_pos_iff.mp (by simp at hlength; omega))
    rw [finished_concat hfs hns]
    exact .pop (by simpa using hfs) (by simpa using hns) rfl rfl rfl

/-- A command that leads to a node puts it on the stack or leaves the stack as it is. -/
theorem GoesTo.shift {name : String} (h : s.GoesTo w name s') (hs : s.Stocked w) :
    s.Shift w s' := by
  cases h with
  | entered _ _ hn _ => exact shift_entered hs hn
  | _ => exact .stay ⟨rfl, rfl, rfl⟩

/-- Presenting a line leaves the stack as it is. -/
theorem level_presented (s : Session) (line : Spoken) : s.Level (s.presented line) := by
  refine ⟨?_, by simp [presented, modifyNode, recorded], by simp [presented, modifyNode, recorded]⟩
  unfold presented recorded modifyNode
  dsimp only
  split <;> rfl

/-- How a step changes the stack. -/
theorem Step.shift {goesOn : Bool} (h : s.Step w goesOn s') (hs : s.Stocked w) :
    s.Shift w s' := by
  cases h with
  | finish _ _ _ hf _ => exact shift_finished hs hf
  | finishLast _ _ _ hf _ => exact (shift_finished hs hf).congr rfl rfl
  | command _ _ _ _ hs' =>
    rcases hs' with rfl | ⟨_, -, hgoes⟩
    · exact .stay ⟨rfl, rfl, rfl⟩
    · exact (hgoes.shift ⟨hs.length_nodes, hs.found⟩).of_level rfl rfl
  | @present n m c text pace _ _ _ _ _ _ =>
    have hpassed : s.Level (s.passed m c) := ⟨rfl, rfl, rfl⟩
    exact .stay (hpassed.trans (level_presented _ _))
  | _ => exact .stay ⟨rfl, rfl, rfl⟩

/-- An input that is not followed by a run leaves the stack as it is or clears it. -/
theorem Rests.level {i : Input} (h : s.Rests w i s') :
    s.Level s' ∨ s'.depth ≤ 1 ∧ s'.Stocked w := by
  cases h with
  | stay _ | pause _ | resume _ _ => exact .inl ⟨rfl, rfl, rfl⟩
  | ended _ | lost _ _ | unreadable _ _ =>
    exact .inr ⟨Nat.zero_le 1, rfl, fun _ hf => absurd hf List.not_mem_nil⟩

/-- An input that is followed by a run leaves the stack as it is or puts a single node there. -/
theorem Begins.level {i : Input} {seen : List Visit} (h : s.Begins w i seen s') :
    s.Level s' ∨ s'.depth ≤ 1 ∧ s'.Stocked w := by
  cases h with
  | leaveLine _ _ | choose _ _ _ _ => exact .inl ⟨rfl, rfl, rfl⟩
  | @start node context n _ hn _ =>
    have hfresh : s.fresh.Stocked w := ⟨rfl, fun _ hf => absurd hf List.not_mem_nil⟩
    have hshift : s.fresh.Shift w
        ((s.fresh.withVars (w.find s.vars node context).vars).entered n) :=
      shift_entered hfresh hn
    refine .inr ⟨?_, hshift.stocked hfresh⟩
    simp [depth, entered, Traversal.top, Traversal.enter, withVars, fresh, Session.replaceNodes]

end Moves

end Session

namespace Act

variable {σ : Type} (o : Observer σ) (n : Node) (st : Stage σ)

/-- Passing over the conditionals leaves the stack as it is. -/
theorem passConditionals_level : Ends (passConditionals n) st
    (fun _ st' => st'.session.era = st.session.era ∧ st.session.Level st'.session)
    fun _ st' => st.session.Level st'.session := by
  simp only [passConditionals, ends_bind, ends_session, ends_edit, ends_remarkAll, ends_ite,
    ends_throw, ends_pure]
  split
  · exact ⟨rfl, rfl, rfl⟩
  · exact ⟨rfl, rfl, rfl, rfl⟩

/-- Passing over the decisions leaves the stack as it is. -/
theorem passDecisions_level : Ends (passDecisions o.hear n) st
    (fun _ st' => st'.session.era = st.session.era ∧ st.session.Level st'.session)
    fun _ st' => st.session.Level st'.session := by
  simp only [passDecisions, ends_bind, ends_session, ends_edit]
  split
  · exact ⟨rfl, rfl, rfl, rfl⟩
  · exact ⟨rfl, rfl, rfl⟩
  · simp only [awaitChoice, ends_bind, ends_edit, ends_ask, ends_hear, ends_pure]
    refine ⟨?_, ?_⟩
    · simp [Session.era, Session.withCursor]
    · exact ⟨by simp [Session.withCursor], by simp [Session.withCursor],
        by simp [Session.withCursor]⟩

/-- If a line cannot be taken up, the stack is left as it is. -/
theorem takeLine_level (text : String) : Ends (takeLine o.hear st.session.era n text) st
    (fun _ _ => True) fun _ st' => st.session.Level st'.session := by
  refine takeLine_ends o (fun _ _ _ _ _ => trivial) (fun _ _ _ _ => trivial)
    (fun _ _ _ _ _ _ => trivial) ?_ ?_
  · intro name context f st' _ _ _ _ hfollows
    have hlevel := Session.Level.of_alike hfollows.session
    exact ⟨hlevel.frames, hlevel.length_nodes, hlevel.dropLast_nodes⟩
  · intro f st' _ _ _ hfollows
    exact .trans (Session.level_presented _ _) (.of_alike hfollows.session)

/-- A step that fails leaves the stack as it is. -/
theorem step_level : Ends (step o.hear st.session.era) st (fun _ _ => True)
    fun _ st' => st.session.Level st'.session := by
  refine step_rule (fun _ => trivial) (fun _ _ _ _ => ?_) fun n _ _ _ => ?_
  · -- only a stack without frames makes the end of a node fail
    exact finishNode_ends o (fun _ _ _ _ _ => trivial) (fun _ _ _ _ _ => trivial) fun _ => .refl _
  refine (passConditionals_level n st).imp ?_ fun _ _ h => h
  rintro - st₁ ⟨hera₁, h₁⟩
  refine (passDecisions_level o n st₁).imp ?_ fun _ _ h => h₁.trans h
  rintro asked st₂ ⟨hera₂, h₂⟩
  have h₂ := h₁.trans h₂
  cases asked with
  | true => trivial
  | false =>
    refine ⟨fun _ => trivial, fun _ _ => h₂, fun text _ _ => ?_⟩
    rw [← hera₁, ← hera₂]
    exact (takeLine_level o n st₂ _).imp (fun _ _ _ => trivial) fun _ _ h => h₂.trans h

end Act

/-- The first part of a request changes the stack as a step does, or it leaves a single node there
at most. -/
theorem Request.prepare_shift {σ : Type} (o : Observer σ) {st : Stage σ} (r : Request)
    (hs : st.session.Stocked st.shelf) :
    Ends (r.prepare o.hear) st
      (fun _ st' => st.session.Shift st.shelf st'.session ∨
        st'.session.depth ≤ 1 ∧ st'.session.Stocked st.shelf)
      fun _ st' => st.session.Shift st.shelf st'.session ∨
        st'.session.depth ≤ 1 ∧ st'.session.Stocked st.shelf := by
  cases r with
  | input i =>
    -- what is on show does not matter behind the input
    have hrest {s₁ s' : Session} (h : st.session.Level s₁ ∨ s₁.depth ≤ 1 ∧ s₁.Stocked st.shelf)
        (hlike : s₁.Alike s') :
        st.session.Shift st.shelf s' ∨ s'.depth ≤ 1 ∧ s'.Stocked st.shelf := by
      have hlevel := Session.Level.of_alike hlike
      rcases h with h | ⟨hdepth, hstocked⟩
      · exact .inl (.stay (h.trans hlevel))
      · exact .inr ⟨hlevel.depth_eq ▸ hdepth, hlevel.stocked hstocked⟩
    refine (Input.prepare_ends st o i).imp ?_ fun _ _ ⟨_, h, hfollows⟩ =>
      hrest h.level hfollows.session
    rintro (_ | seen) st' ⟨s₁, h, hfollows⟩
    · exact hrest h.level hfollows.session
    · exact hrest h.level hfollows.session
  | findNode node context =>
    have hstay {s₁ s' : Session} (hlike : s₁.Alike s') (h : st.session.Level s₁) :
        st.session.Shift st.shelf s' ∨ s'.depth ≤ 1 ∧ s'.Stocked st.shelf :=
      .inl (.stay (h.trans (.of_alike hlike)))
    simp only [prepare, ends_bind, ends_ite, ends_pure]
    refine openNode_ends o ?_ ?_ ?_ ?_ ?_
    · exact fun _ => by simpa using hstay (.refl _) (.refl _)
    · exact fun _ st' _ _ _ h => by simpa using hstay h.session ⟨rfl, rfl, rfl⟩
    · intro n st' _ hn _ h
      simpa using Or.inl ((Session.shift_entered hs hn).of_alike h.session)
    · exact fun _ st' _ _ _ h => hstay h.session ⟨rfl, rfl, rfl⟩
    · exact fun _ st' _ _ _ h => hstay h.session ⟨rfl, rfl, rfl⟩

section Course

variable {σ : Type} {o : Observer σ} {w : Shelf} {s s₀ s' : Session} {d : Nat}

/-- How a single move changes the stack. -/
theorem Session.Move.shift (h : s.Move o w s') (hs : s.Stocked w) :
    s.Shift w s' ∨ s'.depth ≤ 1 ∧ s'.Stocked w := by
  cases h with
  | begins _ | adjusts _ _ => exact .inl (.stay ⟨rfl, rfl, rfl⟩)
  | @steps st st' hw hst goesOn hstep =>
    subst hw hst
    obtain ⟨s₁, hs₁, hfollows⟩ := (step_ends st o).of_ok hstep
    exact .inl ((hs₁.shift hs).of_alike hfollows.session)
  | @breaks st st' hw hst f hstep =>
    subst hst
    exact .inl (.stay ((step_level o st).of_error hstep))
  | @prepares st st' hw hst r seen hr =>
    subst hw hst
    exact (r.prepare_shift o hs).of_ok hr
  | @refuses st st' hw hst r f hr =>
    subst hw hst
    exact (r.prepare_shift o hs).of_error hr

/-- A stored traversal that is taken up has a node for each of its frames. -/
theorem Act.takeUp_stocked {st : Stage σ} {stored : String} (hs : st.session.Stocked st.shelf) :
    Ends (takeUp o.hear stored) st (fun _ st' => st'.session.Stocked st.shelf)
      fun _ st' => st'.session.Stocked st.shelf := by
  refine takeUp_ends o ?_ ?_
  · rintro f vs st' ⟨remarks, rfl⟩
    exact ⟨hs.length_nodes, hs.found⟩
  · intro t ns vs era st' _ hload _ hfollows
    have hheld : List.Forall₂ st.shelf.Holds t.frames ns :=
      Shelf.holds_of_load (congrArg Prod.fst hload)
    refine (Session.Level.of_alike hfollows.session).stocked ⟨?_, fun f hf => ?_⟩
    · simp [Session.resumed, Session.replaceNodes, Traversal.nodesAt, Session.depth,
        hheld.length_eq]
    · obtain ⟨i, hi, rfl⟩ := List.getElem_of_mem hf
      exact ⟨_, hheld.get hi (hheld.length_eq ▸ hi)⟩

/-- Throughout the course of a session each frame on its stack has a node, and its node can be
found. -/
theorem Course.stocked (h : Course o w s) : s.Stocked w := by
  -- on the moves and the traversals that have been taken up
  induction h with
  | fresh _ _ => exact ⟨rfl, fun _ hf => absurd hf List.not_mem_nil⟩
  | moves _ hm ih => exact (hm.shift ih).elim (fun h => h.stocked ih) fun h => h.2
  | takes _ hw hs ht ih =>
    subst hw hs
    exact (takeUp_stocked ih).of_ok ht
  | leaves _ hw hs ht ih =>
    subst hw hs
    exact (takeUp_stocked ih).of_error ht
  | settles _ ih => exact ⟨ih.length_nodes, ih.found⟩

/-- The sessions to which moves lead while more nodes than a number are on the stack. -/
inductive Session.Within (o : Observer σ) (w : Shelf) (d : Nat) (s₀ : Session) :
    Session → Prop where
  /-- No move has been made. -/
  | now : Within o w d s₀ s₀
  /-- A move has been made, and there are more nodes on the stack. -/
  | moves {s s' : Session} (h : Within o w d s₀ s) (hs : s.Move o w s') (hd : d < s'.depth) :
      Within o w d s₀ s'

/-- While more nodes than a number are on the stack, so many of its frames and nodes stay as they
are. -/
theorem Session.Within.take_eq (h : s₀.Within o w d s) (hs : s₀.Stocked w) (hd : d < s₀.depth) :
    s.Stocked w ∧ d < s.depth ∧ s.traversal.frames.take d = s₀.traversal.frames.take d ∧
      s.nodes.take d = s₀.nodes.take d := by
  -- on the moves, each of which leaves alone what is below the innermost node
  induction h with
  | now => exact ⟨hs, hd, rfl, rfl⟩
  | @moves s s' _ hm hd' ih =>
    obtain ⟨hstocked, hdepth, hframes, hnodes⟩ := ih
    rcases hm.shift hstocked with hshift | ⟨hone, hstocked'⟩
    · obtain ⟨hframes', hnodes'⟩ := hshift.take_eq hstocked hdepth hd'
      exact ⟨hshift.stocked hstocked, hd', hframes'.trans hframes, hnodes'.trans hnodes⟩
    · obtain rfl : d = 0 := by omega
      exact ⟨hstocked', hd', by simp, by simp⟩

end Course

end VisualNovel
