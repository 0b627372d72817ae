import VisualNovel.Proofs.Layout.Compile
import VisualNovel.Proofs.Life.Basic

/-!
# The stack of a session

Below the innermost node, every node on the stack waits at the line behind the command that led to
the next one. What is kept throughout the life of a session is that each node on the stack is on a
tour, that its frame and its stay are those of one and the same node, and that nothing is remembered
of a node that has not been entered.

## Main definitions

* `Belongs`: a frame, a node and a stay are of one node;
* `Stacked`: the nodes that wait below the innermost one;
* `Place`, `Session.At`: where a session is, and that it is there.

## Main results

* `Session.At.turn`: what the passes over the blocks come to;
* `Session.At.remain`, `Session.At.push`, `Session.At.pop`: a session goes on in its innermost node,
  enters another one, or comes back to the node below.
-/

namespace VisualNovel

section Rewound

variable {n : Node}

@[simp]
theorem Node.rewound_rewound : n.rewound.rewound = n.rewound := rfl

/-- The line of a node does not matter for its conditionals. -/
theorem Node.passConditionals_rewound (vs : Variables) (depth : Nat) (seen : List Visit)
    (c : Cursor) :
    n.rewound.passConditionals vs depth seen c = n.passConditionals vs depth seen c := by
  have hupTo (k : Nat) (m : Motion) :
      n.rewound.passConditionalsUpTo vs depth k m = n.passConditionalsUpTo vs depth k m := by
    induction k generalizing m with
    | zero => rfl
    | succ k ih =>
      unfold passConditionalsUpTo
      simp only [ih]
      rfl
  exact hupTo _ _

/-- The line of a node does not matter for its decisions. -/
theorem Node.passDecisions_rewound (depth : Nat) (seen : List Visit) (c : Cursor) :
    n.rewound.passDecisions depth seen c = n.passDecisions depth seen c := rfl

end Rewound

namespace Session

variable {s : Session} {fs : List Frame} {f g : Frame} {ns : List Node} {m n : Node}

/-- A node that is on top already is replaced. -/
theorem entered_of_top (hnodes : s.nodes = ns ++ [m])
    (htop : s.traversal.top.any fun f => f.node = n.name) :
    s.entered n = { s with nodes := ns ++ [{ n with line := s.traversal.cursor.line }] } := by
  simp [entered, htop, modifyNode, hnodes]

/-- A node that is not on top is put there, and the one below it waits at the cursor. -/
theorem entered_of_not_top (hframes : s.traversal.frames = fs ++ [f]) (hnodes : s.nodes = ns ++ [m])
    (htop : (s.traversal.top.any fun f => f.node = n.name) = false) :
    s.entered n = { s with
      traversal := { s.traversal with
        frames := fs ++ [{ f with suspended := s.traversal.cursor },
          { node := n.name, context := n.context }]
        cursor := {} }
      nodes := ns ++ [{ m with line := s.traversal.cursor.line }] ++ [n] } := by
  simp [entered, htop, Traversal.enter, hframes, hnodes]

/-- A node that has been taken off the stack leaves the session at the frame below. -/
theorem finished_concat (hframes : s.traversal.frames = fs ++ [f] ++ [g])
    (hnodes : s.nodes = ns ++ [n]) :
    s.finished g = { s with
      traversal := { s.traversal.complete g.node with
        frames := fs ++ [{ f with suspended := f.suspended.withoutBlocks }]
        cursor := f.suspended }
      nodes := ns } := by
  simp [finished, Traversal.complete, Traversal.comeBack, hframes, hnodes]

end Session

/-- A frame, a node on the stack and a stay are of one node. -/
structure Belongs (w : Shelf) (f : Frame) (n : Node) (y : Stay) : Prop where
  /-- The node is the one that has been compiled, at some line. -/
  rewound : n.rewound = y.node
  /-- The frame has its name. -/
  name : f.node = y.node.name
  /-- The frame has its scene. -/
  context : f.context = y.node.context
  /-- The node is found in the scripts. -/
  found : ∃ vs, (w.find vs f.node f.context).result = .ok y.node

namespace Belongs

variable {w : Shelf} {f : Frame} {n : Node} {y : Stay}

/-- The node is laid out properly. -/
theorem laid (h : Belongs w f n y) : y.node.Laid := by
  obtain ⟨vs, hfound⟩ := h.found
  exact Script.search_laid hfound

/-- A node that has been found belongs to its frame at once. -/
theorem of_found {vs : Variables} {name context : String}
    (hn : (w.find vs name context).result = .ok n) :
    Belongs w { node := n.name, context := n.context } n (.begin n) := by
  obtain ⟨rfl, rfl, hline⟩ := Script.search_header hn
  have hrewound : n.rewound = n := by
    rw [Node.rewound, ← hline]
  refine ⟨rfl, rfl, rfl, vs, ?_⟩
  rw [hn, Stay.begin, hrewound]

/-- A node that is found by the name and the scene of the frame is the same. -/
theorem rewound_of_found (h : Belongs w f n y) {vs : Variables} {m : Node} {name context : String}
    (hm : (w.find vs name context).result = .ok m) (hname : f.node = m.name)
    (hcontext : context = f.context) : m.rewound = y.node := by
  obtain ⟨vs', hfound⟩ := h.found
  obtain ⟨hmname, -, hline⟩ := Script.search_header hm
  rw [hname, hmname, ← hcontext] at hfound
  have hsame : (w.find vs name context).result = (w.find vs' name context).result :=
    Script.search_congr vs vs'
  have hfound : y.node = m := Except.ok.inj (hfound.symm.trans (hsame.symm.trans hm))
  rw [hfound, Node.rewound, ← hline]

/-- What has happened in the node, where its frame was left and its line do not matter. -/
theorem congr (h : Belongs w f n y) {f' : Frame} {n' : Node} {y' : Stay}
    (hn : n'.rewound = n.rewound)
    (hname : f'.node = f.node) (hcontext : f'.context = f.context) (hy : y'.node = y.node) :
    Belongs w f' n' y' := by
  refine ⟨hn.trans (h.rewound.trans hy.symm), ?_, ?_, ?_⟩
  · rw [hname, h.name, hy]
  · rw [hcontext, h.context, hy]
  · rw [hname, hcontext, hy]
    exact h.found

end Belongs

/-- The nodes that wait below the innermost one, with their frames and their stays. -/
inductive Stacked (w : Shelf) (seen : List Visit) :
    List Frame → List Node → List Stay → Prop where
  | nil : Stacked w seen [] [] []
  /-- A node waits at a line at which it has not looked for blocks. -/
  | push {fs : List Frame} {ns : List Node} {ys : List Stay} {f : Frame} {n : Node} {y : Stay}
      (h : Stacked w seen fs ns ys) (hbelongs : Belongs w f n y)
      (htour : Tour y.node (fs.length + 1) seen f.suspended .arrived y.deeds) :
      Stacked w seen (fs ++ [f]) (ns ++ [n]) (ys ++ [y])

namespace Stacked

variable {w : Shelf} {seen : List Visit} {fs : List Frame} {ns : List Node} {ys : List Stay}

/-- There are as many nodes as frames. -/
theorem length_nodes (h : Stacked w seen fs ns ys) : ns.length = fs.length := by
  induction h with
  | nil => rfl
  | push _ _ _ ih => simp [ih]

/-- There are as many stays as frames. -/
theorem length_stays (h : Stacked w seen fs ns ys) : ys.length = fs.length := by
  induction h with
  | nil => rfl
  | push _ _ _ ih => simp [ih]

/-- Without frames nothing waits. -/
theorem eq_nil (h : Stacked w seen [] ns ys) : ns = [] ∧ ys = [] :=
  ⟨List.length_eq_zero_iff.mp h.length_nodes, List.length_eq_zero_iff.mp h.length_stays⟩

/-- The innermost of the nodes that wait. -/
theorem pop {f : Frame} (h : Stacked w seen (fs ++ [f]) ns ys) :
    ∃ ns' n ys' y, ns = ns' ++ [n] ∧ ys = ys' ++ [y] ∧ Stacked w seen fs ns' ys' ∧
      Belongs w f n y ∧ Tour y.node (fs.length + 1) seen f.suspended .arrived y.deeds := by
  -- the stack is taken apart at its end, which the case analysis needs as an equation
  generalize hfs : fs ++ [f] = gs at h
  cases h with
  | nil => simp at hfs
  | @push gs ns' ys' g n y h hbelongs htour =>
    obtain ⟨rfl, hfg⟩ := List.append_inj' hfs rfl
    obtain rfl := (List.cons.inj hfg).1
    exact ⟨ns', n, ys', y, rfl, rfl, h, hbelongs, htour⟩

/-- Visits may be forgotten, and visits to nodes that are not among those do not matter. -/
theorem forget (h : Stacked w seen fs ns ys) {seen' : List Visit}
    (hseen : ∀ v ∈ seen', v ∈ seen ∨ fs.length < v.depth) : Stacked w seen' fs ns ys := by
  induction h with
  | nil => exact .nil
  | @push fs ns ys f n y _ hbelongs htour ih =>
    -- the visits that are remembered in this node are at its depth, further ones lie deeper
    refine .push (ih fun v hv => ?_) hbelongs (htour.forget fun kind index hv => ?_)
    · refine (hseen v hv).imp_right fun hlt => ?_
      rw [List.length_append, List.length_singleton] at hlt
      omega
    · refine (hseen _ hv).resolve_right fun hlt => ?_
      simp [Node.visit] at hlt

/-- Every node that waits is on a tour. -/
theorem tour (h : Stacked w seen fs ns ys) {y : Stay} (hy : y ∈ ys) :
    ∃ f n depth c, Belongs w f n y ∧ Tour y.node depth seen c .arrived y.deeds := by
  induction h with
  | nil => cases hy
  | push _ hbelongs htour ih =>
    rcases List.mem_append.mp hy with hy | hy
    · exact ih hy
    · obtain rfl := List.mem_singleton.mp hy
      exact ⟨_, _, _, _, hbelongs, htour⟩

end Stacked

/-- Where a session is: its stack with the innermost node apart, its cursor without a decision that
waits, and what is going on. -/
structure Place where
  /-- The frames of the nodes that wait. -/
  frames : List Frame
  /-- The innermost frame. -/
  frame : Frame
  /-- The nodes that wait. -/
  nodes : List Node
  /-- The innermost node. -/
  node : Node
  /-- The stays of the nodes that wait. -/
  stays : List Stay
  /-- The stay of the innermost node. -/
  stay : Stay
  /-- The cursor. -/
  cursor : Cursor
  /-- What is going on. -/
  stance : Stance

/-- How many nodes are on the stack. -/
def Place.depth (p : Place) : Nat := p.frames.length + 1

/-- What is remembered as entered belongs to nodes that have been entered. -/
def Session.Knows (s : Session) : Prop :=
  ∀ v ∈ s.seen, v.node ∈ s.traversal.completed ∨
    ∃ k f, v.depth = k + 1 ∧ s.traversal.frames[k]? = some f ∧ f.node = v.node

/-- The session is at a place. -/
structure Session.At (w : Shelf) (s : Session) (ys : List Stay) (p : Place) : Prop where
  /-- The frames are those of the place. -/
  frames : s.traversal.frames = p.frames ++ [p.frame]
  /-- So are the nodes. -/
  nodes : s.nodes = p.nodes ++ [p.node]
  /-- So are the stays. -/
  stays : ys = p.stays ++ [p.stay]
  /-- The cursor is that of the place; a decision that waits is open. -/
  cursor : s.traversal.cursor = p.stance.cursor p.cursor
  /-- Nodes wait below the innermost one. -/
  below : Stacked w s.seen p.frames p.nodes p.stays
  /-- The innermost node has its frame and its stay. -/
  belongs : Belongs w p.frame p.node p.stay
  /-- The innermost node is on a tour. -/
  tour : Tour p.stay.node p.depth s.seen p.cursor p.stance p.stay.deeds
  /-- Only nodes that have been entered are remembered. -/
  knows : s.Knows

namespace Session.At

variable {w : Shelf} {s s' : Session} {ys : List Stay} {p : Place} (h : s.At w ys p)

include h

/-- A session with the same traversal and nodes that remembers the same is at the same place. -/
theorem congr (htraversal : s'.traversal = s.traversal) (hnodes : s'.nodes = s.nodes)
    (hseen : s'.seen = s.seen) : s'.At w ys p where
  frames := htraversal ▸ h.frames
  nodes := hnodes ▸ h.nodes
  stays := h.stays
  cursor := htraversal ▸ h.cursor
  below := hseen ▸ h.below
  belongs := h.belongs
  tour := hseen ▸ h.tour
  knows := by
    unfold Session.Knows
    rw [htraversal, hseen]
    exact h.knows

/-- The innermost node of the session. -/
theorem node_eq : s.node = some p.node := by
  simp [Session.node, h.nodes]

/-- The innermost frame of the session. -/
theorem top_eq : s.traversal.top = some p.frame := by
  simp [Traversal.top, h.frames]

/-- Where no decision waits, the cursor is that of the place. -/
theorem cursor_eq (hst : p.stance.cursor p.cursor = p.cursor) :
    s.traversal.cursor = p.cursor := h.cursor.trans hst

/-- The number of nodes on the stack. -/
theorem length_nodes : s.nodes.length = p.depth := by
  rw [h.nodes, List.length_append, h.below.length_nodes]
  rfl

/-- The number of stays. -/
theorem length_stays : ys.length = p.depth := by
  rw [h.stays, List.length_append, h.below.length_stays]
  rfl

/-- The innermost node is laid out properly. -/
theorem laid : p.stay.node.Laid := h.belongs.laid

/-- The content lines are those of the compiled node. -/
theorem lines_eq : p.node.lines = p.stay.node.lines := by
  rw [← h.belongs.rewound]
  rfl

/-- Every node on the stack is on a tour. -/
theorem exists_tour {y : Stay} (hy : y ∈ ys) :
    ∃ f n depth seen c st, Belongs w f n y ∧ Tour y.node depth seen c st y.deeds := by
  rw [h.stays] at hy
  rcases List.mem_append.mp hy with hy | hy
  · obtain ⟨f, n, depth, c, hbelongs, htour⟩ := h.below.tour hy
    exact ⟨f, n, depth, _, c, _, hbelongs, htour⟩
  · obtain rfl := List.mem_singleton.mp hy
    exact ⟨_, _, _, _, _, _, h.belongs, h.tour⟩

/-- The pass over the conditionals of the innermost node is one of the compiled node. -/
theorem passConditionals_eq (hst : p.stance.GoesOn) :
    p.node.passConditionals s.vars s.nodes.length s.seen s.traversal.cursor =
      p.stay.node.passConditionals s.vars p.depth s.seen p.cursor := by
  rw [h.length_nodes, h.cursor, hst.cursor_eq, ← Node.passConditionals_rewound, h.belongs.rewound]

/-- What the passes over the blocks of the innermost node come to. -/
theorem turn (hst : p.stance.GoesOn) (hline : s.traversal.cursor.line < p.node.lines.length)
    {m : Motion}
    (hm : p.node.passConditionals s.vars s.nodes.length s.seen s.traversal.cursor = m) :
    m.stuck = false ∧
      ∀ c turn, p.node.passDecisions s.nodes.length m.seen m.cursor = (c, turn) →
        (∃ c₀ d, turn = .ask d ∧ c = c₀.opening d.index ∧
          p.stay.node.Round p.depth s.seen p.cursor m c₀ ∧
          p.stay.node.decisionAt? p.depth m.seen c₀ = some d) ∨
        (turn = .onward ∧ p.stay.node.Round p.depth s.seen p.cursor m c ∧
          p.stay.node.decisionAt? p.depth m.seen c = none) := by
  -- the line of the node does not matter, so the compiled node turns as this one does
  rw [h.cursor, hst.cursor_eq, h.lines_eq] at hline
  rw [h.passConditionals_eq hst] at hm
  rw [h.length_nodes]
  obtain ⟨hstuck, hturn⟩ := (h.tour.poised h.laid).round h.laid hline hm
  refine ⟨hstuck, fun c turn hd => ?_⟩
  rw [← Node.passDecisions_rewound, h.belongs.rewound] at hd
  exact hturn c turn hd

/-- The visits of a round over the innermost node are those from before and some to the node. -/
theorem seen_of_round {m : Motion} {c : Cursor}
    (hround : p.stay.node.Round p.depth s.seen p.cursor m c) :
    ∀ v ∈ m.seen, v ∈ s.seen ∨ ∃ kind index, v = p.stay.node.visit p.depth kind index := by
  intro v hv
  have hturned := hround.turned h.laid (h.tour.poised h.laid)
  exact (hturned.passed.seen_new v hv).imp_right fun ⟨index, heq⟩ => ⟨_, index, heq⟩

/-- Visits to the innermost node do not matter for the nodes below. -/
theorem below_of_seen {seen' : List Visit}
    (hseen : ∀ v ∈ seen', v ∈ s.seen ∨ ∃ kind index, v = p.stay.node.visit p.depth kind index) :
    Stacked w seen' p.frames p.nodes p.stays := by
  refine h.below.forget fun v hv => (hseen v hv).imp_right ?_
  rintro ⟨kind, index, rfl⟩
  exact Nat.lt_succ_self _

/-- The session is still known to know its nodes if only visits to the innermost one are added. -/
theorem knows_of_seen (hframes : s'.traversal.frames = s.traversal.frames)
    (hcompleted : s'.traversal.completed = s.traversal.completed)
    (hseen : ∀ v ∈ s'.seen, v ∈ s.seen ∨ ∃ kind index, v = p.stay.node.visit p.depth kind index) :
    s'.Knows := by
  intro v hv
  rw [hframes, hcompleted]
  rcases hseen v hv with hv | ⟨kind, index, rfl⟩
  · exact h.knows v hv
  · refine .inr ⟨p.frames.length, p.frame, rfl, ?_, h.belongs.name⟩
    rw [h.frames, List.getElem?_concat_length]

/-- The session goes on in its innermost node. -/
theorem remain {n : Node} {c : Cursor} (st : Stance) (ds : List Deed)
    (hframes : s'.traversal.frames = s.traversal.frames)
    (hcompleted : s'.traversal.completed = s.traversal.completed)
    (hnodes : s'.nodes = p.nodes ++ [n]) (hn : n.rewound = p.node.rewound)
    (hcursor : s'.traversal.cursor = st.cursor c)
    (hseen : ∀ v ∈ s'.seen, v ∈ s.seen ∨ ∃ kind index, v = p.stay.node.visit p.depth kind index)
    (htour : Tour p.stay.node p.depth s'.seen c st (p.stay.deeds ++ ds)) :
    s'.At w (modifyLast (Stay.note ds) ys)
      { p with node := n, cursor := c, stance := st, stay := p.stay.note ds } where
  frames := hframes.trans h.frames
  nodes := hnodes
  stays := by rw [h.stays, modifyLast_concat]
  cursor := hcursor
  below := h.below_of_seen hseen
  belongs := h.belongs.congr hn rfl rfl rfl
  tour := htour
  knows := h.knows_of_seen hframes hcompleted hseen

/-- A further node is entered, while the one that was innermost waits. -/
theorem push (hst : p.stance = .arrived) {vs : Variables} (vs' : Variables)
    {name context : String} {n : Node}
    (hnew : ¬s.traversal.completed.contains name)
    (hn : (w.find vs name context).result = .ok n)
    (htop : (s.traversal.top.any fun f => f.node = n.name) = false) :
    ((s.withVars vs').entered n).At w (ys ++ [.begin n]) {
      frames := p.frames ++ [{ p.frame with suspended := p.cursor }]
      frame := { node := n.name, context := n.context }
      nodes := p.nodes ++ [{ p.node with line := p.cursor.line }]
      node := n
      stays := ys
      stay := .begin n
      cursor := {}
      stance := .arrived } := by
  obtain ⟨hname, -, -⟩ := Script.search_header hn
  have hcursor := h.cursor_eq (by rw [hst]; rfl)
  have hentered := Session.entered_of_not_top (s := s.withVars vs') h.frames h.nodes htop
  rw [show (s.withVars vs').traversal.cursor = p.cursor from hcursor] at hentered
  -- no visit to the new node is remembered
  have hunseen : ∀ kind index, n.visit (p.frames.length + 1 + 1) kind index ∉ s.seen := by
    intro kind index hv
    rcases h.knows _ hv with hv | ⟨k, f, hk, hf, -⟩
    · refine hnew ?_
      rw [← hname]
      simpa [Node.visit] using hv
    · obtain rfl : p.frames.length + 1 = k := by simpa [Node.visit] using hk
      rw [h.frames, List.getElem?_eq_none (by simp)] at hf
      cases hf
  rw [hentered]
  refine ⟨by simp, rfl, rfl, rfl, ?_, .of_found hn, ?_, ?_⟩
  · rw [h.stays]
    refine h.below.push (h.belongs.congr rfl rfl rfl rfl) ?_
    have htour := h.tour
    rw [hst] at htour
    exact htour
  · refine .enter fun kind index => ?_
    simpa [Place.depth, Stay.begin, Node.rewound, Node.visit, Session.withVars] using
      hunseen kind index
  · -- what is remembered is of the frames below, which are the ones there were
    intro v hv
    refine (h.knows v hv).imp_right ?_
    rintro ⟨k, f, hk, hf, hfv⟩
    rw [h.frames, List.getElem?_append] at hf
    split at hf
    · next hlt =>
      refine ⟨k, f, hk, ?_, hfv⟩
      dsimp only
      rw [List.getElem?_append_left hlt]
      exact hf
    · next hge =>
      obtain ⟨hlt, rfl⟩ := List.getElem?_eq_some_iff.mp hf
      obtain rfl : k = p.frames.length := by
        simp only [List.length_singleton] at hlt
        omega
      exact ⟨p.frames.length, { p.frame with suspended := p.cursor }, hk, by simp,
        by simpa using hfv⟩

/-- The innermost node is replaced by itself. -/
theorem replace (hst : p.stance = .arrived) {vs : Variables} (vs' : Variables)
    {name context : String} {n : Node}
    (hn : (w.find vs name context).result = .ok n) (hcontext : context = p.frame.context)
    (htop : s.traversal.top.any fun f => f.node = n.name) :
    ((s.withVars vs').entered n).At w ys
      { p with node := { n with line := p.cursor.line } } := by
  have hcursor := h.cursor_eq (by rw [hst]; rfl)
  have hname : p.frame.node = n.name := by simpa [h.top_eq] using htop
  have hentered := Session.entered_of_top (s := s.withVars vs') h.nodes htop
  rw [show (s.withVars vs').traversal.cursor = p.cursor from hcursor] at hentered
  -- the same name in the same context leads to the same node
  have hsame : n.rewound = p.node.rewound := by
    rw [h.belongs.rewound]
    exact h.belongs.rewound_of_found hn hname hcontext
  rw [hentered]
  exact {
    frames := h.frames
    nodes := rfl
    stays := h.stays
    cursor := h.cursor
    below := h.below
    belongs := h.belongs.congr hsame rfl rfl rfl
    tour := h.tour
    knows := h.knows }

/-- The innermost node is complete, and the session comes back to the one below. -/
theorem pop (hbelow : s.traversal.frames.dropLast ≠ []) :
    ∃ p', (s.finished p.frame).At w ys.dropLast p' ∧ p'.stance = .arrived := by
  rw [h.frames, List.dropLast_concat] at hbelow
  obtain ⟨fs, f, hfs⟩ := exists_concat hbelow
  obtain ⟨ns, n, zs, y, hns, hzs, hstacked, hbelongs, htour⟩ := (hfs ▸ h.below).pop
  have hfinished := Session.finished_concat (hfs ▸ h.frames) h.nodes
  rw [hns] at hfinished
  -- the cursor of the frame becomes that of the session
  refine ⟨⟨fs, { f with suspended := f.suspended.withoutBlocks }, ns, n, zs, y, f.suspended,
    .arrived⟩, ?_, rfl⟩
  rw [hfinished]
  refine ⟨rfl, rfl, ?_, rfl, hstacked, hbelongs.congr rfl rfl rfl rfl, htour, ?_⟩
  · rw [h.stays, List.dropLast_concat, hzs]
  · intro v hv
    have hcompleted : (s.traversal.complete p.frame.node).completed =
        if s.traversal.completed.contains p.frame.node then s.traversal.completed
        else s.traversal.completed ++ [p.frame.node] := rfl
    dsimp only
    rw [hcompleted]
    rcases h.knows v hv with hv | ⟨k, g, hk, hg, hgv⟩
    · left
      split
      · exact hv
      · exact List.mem_append_left _ hv
    · rw [h.frames, List.getElem?_append] at hg
      split at hg
      · next hlt =>
        rw [hfs, List.getElem?_append] at hg
        split at hg
        · next hlt' =>
          refine .inr ⟨k, g, hk, ?_, hgv⟩
          rw [List.getElem?_append_left hlt']
          exact hg
        · next hge =>
          obtain ⟨hlt'', rfl⟩ := List.getElem?_eq_some_iff.mp hg
          obtain rfl : k = fs.length := by
            simp only [List.length_singleton] at hlt''
            omega
          exact .inr ⟨fs.length, _, hk, List.getElem?_concat_length, by simpa using hgv⟩
      · next hge =>
        -- the node that is complete is noted as such
        obtain ⟨hlt, rfl⟩ := List.getElem?_eq_some_iff.mp hg
        left
        have hname : p.frame.node = v.node := by simpa using hgv
        rw [← hname]
        split
        · next hc => simpa using hc
        · exact List.mem_append_right _ (List.mem_singleton_self _)

end Session.At

end VisualNovel
