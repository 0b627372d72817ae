import VisualNovel.Proofs.Life.Play
import VisualNovel.Proofs.Life.Presenting

/-!
# Lines are read before they are left

A session with a text on screen is at the line that has been presented last, and it has been there
ever since. To go on, or to let time pass, leads away from a line only when its text is complete.
Since a text is not completed without this being told, whoever has listened has heard of it by then.

A request is done in two parts. What is done at once leaves the session at its place, or it begins a
run, which comes to a rest with a line that has just been presented or with no text on screen. So
attention is kept by every request, whether or not it succeeds, unless the session runs on without
end.

## Main definitions

* `Session.Lingers`: a session has been at its line since this was presented;
* `Attentive`: a session at rest whose host has heard of everything that it has presented;
* `Heard`: the sessions that a fresh one reaches by requests, with notes.

## Main results

* `Act.step_attentive`, `Act.run_attentive`: what a step and a run lead to;
* `Request.perform_attentive`: a request keeps attention;
* `Input.remains_or_revealed`: a session remains at a line until its text is complete;
* `Heard.presented_in_turn`: transcript, completions and lines go together.
-/

namespace VisualNovel

open Act Entry

namespace Session

/-- The session is at the line that has been presented last, and it has been there ever since: the
line has been presented in its innermost node and at its cursor, and whatever has been told since
then, has been told at this place. -/
structure Lingers (s : Session) (log since : List Entry) : Prop where
  presented : ∃ front name speaker text s₀, log =
      front ++ told (.linePresented name s.traversal.cursor.line speaker text) s₀ :: since ∧
    s.node.map Node.name = some name ∧ s₀.traversal = s.traversal
  silence : ∀ x ∈ since, x.presented? = none
  stays : ∀ e s', told e s' ∈ since → s'.traversal = s.traversal

namespace Lingers

variable {s s' : Session} {log since later : List Entry}

/-- The session may go on staying there. -/
theorem append (h : s.Lingers log since) (hsame : s'.traversal = s.traversal)
    (hnode : s'.node.map Node.name = s.node.map Node.name)
    (hsilence : ∀ x ∈ later, x.presented? = none)
    (hstays : ∀ e s', told e s' ∈ later → s'.traversal = s.traversal) :
    s'.Lingers (log ++ later) (since ++ later) := by
  obtain ⟨⟨front, name, speaker, text, s₀, rfl, hname, hplace⟩, hsilence', hstays'⟩ := h
  rw [← hsame] at hplace hstays hstays'
  refine ⟨⟨front, name, speaker, text, s₀, ?_, hnode.trans hname, hplace⟩, fun x hx => ?_,
    fun e s' he => ?_⟩
  · rw [hsame, List.append_assoc, List.cons_append]
  · exact (List.mem_append.mp hx).elim (hsilence' x) (hsilence x)
  · exact (List.mem_append.mp he).elim (hstays' e s') (hstays e s')

/-- The completions since the line was presented are those that have been told since then. -/
theorem completions_eq (h : s.Lingers log since) :
    completions log = since.countP Entry.isCompletion := by
  obtain ⟨⟨front, name, speaker, text, s₀, rfl, -⟩, hsilence, -⟩ := h
  rw [completions, List.foldl_append, List.foldl_cons, foldl_tally _ hsilence]
  exact Nat.zero_add _

end Lingers

/-- A line that is not in the transcript already is added to it when it is put on screen. -/
theorem transcript_presented {s : Session} (hnew : s.unrecorded = none) (line : Spoken) :
    (s.presented line).traversal.transcript =
      s.traversal.transcript ++ [⟨line.speaker, s.wording line.text⟩] := by
  simp [presented, modifyNode, recorded, hnew]

/-- If a run in nodes of the scripts comes to a rest, the session is over, or the reader has to
choose, or a line has been added to the transcript. -/
theorem Underway.rests {w : Shelf} {s s' : Session} (h : s.Underway w) (hnew : s.unrecorded = none)
    (hs' : s.Step w false s') :
    (s'.Awaits .idle ∨ s'.Awaits .choosing) ∧
        s'.traversal.transcript = s.traversal.transcript ∨
      (∃ line, s'.traversal.transcript = s.traversal.transcript ++ [line]) ∧
        s'.node.map Node.name = s.node.map Node.name := by
  cases hs' with
  | halted hhalted => exact .inl ⟨.inl (.inl (h.halted hhalted)), rfl⟩
  | nowhere hnode =>
    obtain ⟨⟨fs, f, ns, n, hlodged⟩, -⟩ := h
    obtain ⟨ks, k, hnodes, -⟩ := hlodged.exists_nodes
    simp [node, hnodes] at hnode
  | finishLast _ _ _ _ _ => exact .inl ⟨.inl (.inl rfl), Traversal.transcript_comeBack _⟩
  | ask _ => exact .inl ⟨.inr (.inl rfl), rfl⟩
  | @present n m c text _ _ _ _ _ _ _ =>
    have hat (k : Node) : Node.name { k with line := c.line } = k.name := rfl
    refine .inr ⟨⟨_, transcript_presented (s := s.passed m c) hnew (Spoken.ofLine text)⟩, ?_⟩
    rw [node, node, ← List.getLast?_map, ← List.getLast?_map]
    exact congrArg List.getLast? (map_modifyLast hat s.nodes)

/-- If a step of such a run fails, then because the settings give no pace. The scripts have to be
text. -/
theorem Underway.unpaced {w : Shelf} {s s' : Session} (hlegible : w.Legible) (h : s.Underway w)
    {f : Failure} (hs' : s.Breaks w f s') : ¬s.settings.Paced := by
  have hindex := (h.breaks hlegible hs').1
  cases hs' with
  | noFrame _ _ _ => cases hindex
  | noConditional _ _ _ _ => cases hindex
  | noDecision _ _ => cases hindex
  | noLine _ _ _ _ => cases hindex
  | unreadable _ _ _ _ _ hf hdialogue =>
    obtain ⟨⟨_, _, _, _, hlodged⟩, -⟩ := h
    obtain ⟨_, _, hn⟩ := hlodged.held
    rw [hlegible.isDialogue hn hf] at hdialogue
    cases hdialogue
  | noPace _ _ _ _ _ hf => simp [Settings.Paced, hf]

end Session

/-- A session at rest, whose host has heard of everything that it has presented. If a text is on
screen, the session has been at its line since the line was presented. -/
structure Attentive (w : Shelf) (settings : Settings) (log : List Entry) (s : Session) : Prop where
  voiced : Voiced settings log s
  sound : s.Sound w
  lingers : s.typewriter ≠ none → ∃ since, s.Lingers log since

/-- A session that begins has presented nothing. -/
theorem Attentive.fresh (w : Shelf) (settings : Settings) (vars : Variables) :
    Attentive w settings [] { settings, vars } where
  voiced := .fresh settings vars
  sound := .nowhere rfl rfl rfl rfl
  lingers h := absurd rfl h

/-- Where a session waits for nothing, or for a choice, no text is on screen. -/
theorem Attentive.of_awaits {w : Shelf} {settings : Settings} {log : List Entry} {s : Session}
    (hvoiced : Voiced settings log s) (hsound : s.Sound w)
    (hawaits : s.Awaits .idle ∨ s.Awaits .choosing) : Attentive w settings log s :=
  ⟨hvoiced, hsound, fun htext => absurd (hvoiced.tidy hawaits) htext⟩

/-- Without a pace no text is ever on screen. -/
theorem Attentive.of_unpaced {w : Shelf} {settings : Settings} {log : List Entry} {s : Session}
    (hvoiced : Voiced settings log s) (hsound : s.Sound w) (hunpaced : ¬settings.Paced) :
    Attentive w settings log s :=
  ⟨hvoiced, hsound, fun htext => absurd (hvoiced.wordless hunpaced).2 htext⟩

namespace Voiced

variable {settings : Settings} {st st' : Stage (List Entry)}
  (h : Voiced settings st.host st.session)

include h

/-- What presents no line is in accordance with what has been told. -/
theorem dwells (h' : st.Dwells st') : Voiced settings st'.host st'.session := by
  obtain ⟨st₁, hsilent, hreveals⟩ := h'
  exact (h.silent hsilent).reveals hreveals

/-- So is what presents a line. -/
theorem presents {name : String} (h' : st.Presents name st') :
    Voiced settings st'.host st'.session := by
  obtain ⟨st₁, st₂, hsilent, hputs, hreveals⟩ := h'
  exact ((h.silent hsilent).puts hputs).reveals hreveals

end Voiced

namespace Stage

variable {w : Shelf} {st st' : Stage (List Entry)}

/-- A line that is presented is added to the transcript. -/
theorem Presents.transcript {name : String} (h : st.Presents name st') :
    st'.session.traversal.transcript ≠ st.session.traversal.transcript := by
  obtain ⟨st₁, st₂, hsilent, hputs, hreveals⟩ := h
  obtain ⟨_, _, -, hmore⟩ := hputs.told
  rw [hreveals.traversal, hmore, hsilent.session.transcript]
  simp

/-- A session that has presented a line of its innermost node lingers there. -/
theorem Presents.lingers {name : String} (h : st.Presents name st')
    (hnode : st'.session.node.map Node.name = some name) :
    ∃ since, st'.session.Lingers st'.host since := by
  obtain ⟨st₁, st₂, -, hputs, hreveals⟩ := h
  obtain ⟨speaker, text, hhost, -⟩ := hputs.told
  rw [← hreveals.traversal] at hhost
  -- at most the completion of its text has been told since then
  rcases hreveals.told with ⟨hhost', -⟩ | ⟨-, -, s, hhost', hs⟩
  · refine ⟨[], ⟨st₁.host, name, speaker, text, st₂.session, ?_, hnode, hreveals.traversal.symm⟩,
      by simp, by simp⟩
    rw [hhost', hhost]
  · refine ⟨[told .textCompleted s], ⟨st₁.host, name, speaker, text, st₂.session, ?_, hnode,
      hreveals.traversal.symm⟩, by simp [Entry.presented?], fun e s' he => ?_⟩
    · rw [hhost', hhost, List.append_assoc, List.singleton_append]
    · obtain ⟨-, rfl⟩ := Entry.told.inj (List.mem_singleton.mp he)
      rw [hs, hreveals.traversal]

/-- Where no line is presented, none is told of. -/
theorem Dwells.silence (h : st.Dwells st') :
    ∃ later, st'.host = st.host ++ later ∧ ∀ x ∈ later, x.presented? = none := by
  obtain ⟨st₁, ⟨-, log, hhost, hlog⟩, hreveals⟩ := h
  have hlog (x : Entry) (hx : x ∈ log) : x.presented? = none := (hlog x hx).presented?
  rcases hreveals.told with ⟨hhost', -⟩ | ⟨-, -, s, hhost', -⟩
  · exact ⟨log, by rw [hhost', hhost], hlog⟩
  · refine ⟨log ++ [told .textCompleted s], by rw [hhost', hhost, List.append_assoc], ?_⟩
    intro x hx
    rcases List.mem_append.mp hx with hx | hx
    · exact hlog x hx
    · rw [List.mem_singleton.mp hx]
      rfl

/-- Nor is a text put on screen. -/
theorem Dwells.typewriter (h : st.Dwells st') (hnone : st.session.typewriter = none) :
    st'.session.typewriter = none := by
  obtain ⟨st₁, hsilent, hreveals⟩ := h
  have hnone₁ : st₁.session.typewriter = none := by
    rcases hsilent.session.typewriter with hsame | hoff
    · rw [hsame, hnone]
    · exact hoff
  rcases hreveals.told with ⟨-, hsame⟩ | ⟨hbefore, -⟩
  · simpa [Session.revealed?, hnone₁] using hsame
  · simp [Session.revealed?, hnone₁] at hbefore

/-- Where no line has been presented and the session is where it was, it still lingers. -/
theorem Dwells.lingers (h : st.Dwells st') (htells : st.Tells st')
    (hlingers : st.session.typewriter ≠ none → ∃ since, st.session.Lingers st.host since)
    (hsame : st'.session.traversal = st.session.traversal)
    (hnodes : st'.session.nodes = st.session.nodes) (htext : st'.session.typewriter ≠ none) :
    ∃ since, st'.session.Lingers st'.host since := by
  obtain ⟨since, hlingers⟩ := hlingers (mt h.typewriter htext)
  -- what has been told since then presents nothing, and is told of the session at its place
  obtain ⟨later, hhost, hsilence⟩ := h.silence
  obtain ⟨log, hhost', hlog⟩ := htells
  obtain rfl := List.append_cancel_left (hhost.symm.trans hhost')
  rw [hhost]
  refine ⟨_, hlingers.append hsame ?_ hsilence fun e s' he => ?_⟩
  · rw [Session.node, Session.node, hnodes]
  · obtain ⟨_, _, _, _, _, hs⟩ := hlog e s' he
    rw [← hsame, hs]

end Stage

namespace Act

variable {w : Shelf} {settings : Settings} {st : Stage (List Entry)} (hlegible : w.Legible)

include hlegible

/-- A step of a session that runs leads to one that runs on or rests. -/
theorem step_attentive (hw : st.shelf = w) (hvoiced : Voiced settings st.host st.session)
    (hunderway : st.session.Underway w) :
    Ends (step scribe.hear st.session.era) st
      (fun goesOn st' => if goesOn then st'.shelf = w ∧ Voiced settings st'.host st'.session ∧
          st'.session.Underway w else Attentive w settings st'.host st'.session)
      (fun _ st' => Attentive w settings st'.host st'.session) := by
  subst hw
  refine ((step_ends st scribe).and (step_presents hvoiced.unrecorded _)).imp ?_ ?_
  · rintro goesOn st' ⟨⟨s', hs', hfollows⟩, hspoken⟩
    have hnext := hunderway.step hs'
    cases goesOn with
    | true =>
      have hsilent : st.Silent st' := by simpa using hspoken
      exact ⟨hfollows.shelf, hvoiced.silent hsilent, hnext.of_alike hfollows.session⟩
    | false =>
      have hsound : st'.session.Sound st.shelf := Session.Sound.of_alike hnext hfollows.session
      obtain ⟨_, _, _, _, _, hsession⟩ := hfollows.session
      -- whether a line has been presented can be seen from the transcript
      rcases hunderway.rests hvoiced.unrecorded hs' with ⟨hawaits, hsame⟩ | ⟨⟨line, hmore⟩, hnode⟩
      · have hsilent : st.Silent st' := by
          refine hspoken.resolve_right fun ⟨_, _, _, hpresents⟩ => hpresents.transcript ?_
          rw [hsession]
          exact hsame
        refine .of_awaits (hvoiced.silent hsilent) hsound ?_
        rw [hsession]
        exact hawaits
      · obtain ⟨-, n, hn, hpresents⟩ := hspoken.resolve_left fun hsilent => by
          have hsame := hsilent.session.transcript
          rw [hsession] at hsame
          simp [hmore] at hsame
        refine ⟨hvoiced.presents hpresents, hsound, fun _ => hpresents.lingers ?_⟩
        rw [hsession]
        exact hnode.trans (by rw [hn]; rfl)
  · rintro f st' ⟨⟨s', hs', hlike⟩, hspoken⟩
    have hsound := (hunderway.breaks hlegible hs').2.of_alike hlike
    have hunpaced := hvoiced.kept ▸ hunderway.unpaced hlegible hs'
    rcases hspoken with hsilent | ⟨st₁, hsilent, hmutters⟩
    · exact .of_unpaced (hvoiced.silent hsilent) hsound hunpaced
    · exact .of_unpaced ((hvoiced.silent hsilent).mutters hmutters) hsound hunpaced

/-- A run leads to a session at rest, unless it has no end. -/
theorem run_attentive {seen : List Visit} (hw : st.shelf = w)
    (hvoiced : Voiced settings st.host { st.session with seen })
    (hunderway : Session.Underway w { st.session with seen }) :
    Ends (run scribe.hear seen) st (fun _ st' => Attentive w settings st'.host st'.session)
      (fun f st' => Voiced settings st'.host st'.session ∧
        (f ≠ .endless → Attentive w settings st'.host st'.session)) := by
  refine run_induction scribe (P := fun st => st.shelf = w ∧ Voiced settings st.host st.session ∧
    st.session.Underway w) (fun st₁ ⟨hw₁, hvoiced₁, h₁⟩ => ?_) ?_ ⟨hw, hvoiced, hunderway⟩
  · exact (step_attentive hlegible hw₁ hvoiced₁ h₁).imp (fun _ _ h => h) fun _ _ h =>
      ⟨h.voiced, fun _ => h⟩
  · exact fun st₁ ⟨_, hvoiced₁, _⟩ => ⟨hvoiced₁, fun hne => absurd rfl hne⟩

end Act

/-! ### Requests -/

namespace Session

/-- A session has stayed at its place, or it waits for nothing now. -/
def StaysPut (s s' : Session) : Prop :=
  s'.traversal = s.traversal ∧ s'.nodes = s.nodes ∨ s'.phase = .idle

variable {w : Shelf} {s s' s'' : Session}

/-- What is on show does not matter for this. -/
theorem StaysPut.of_alike (h : s.StaysPut s') (hs : s'.Alike s'') : s.StaysPut s'' := by
  obtain ⟨_, _, _, _, _, rfl⟩ := hs
  exact h

/-- An input that is not followed by a run leaves the session at its place, or without any. -/
theorem Rests.staysPut {i : Input} (h : s.Rests w i s') : s.StaysPut s' := by
  cases h with
  | stay _ => exact .inl ⟨rfl, rfl⟩
  | pause _ => exact .inl ⟨rfl, rfl⟩
  | resume _ _ => exact .inl ⟨rfl, rfl⟩
  | ended _ => exact .inr rfl
  | lost _ _ => exact .inr rfl
  | unreadable _ _ => exact .inr rfl

/-- Looking for a node leaves a session at its place. -/
theorem Sound.withVars (h : s.Sound w) (vs : Variables) : (s.withVars vs).Sound w := by
  cases h with
  | nowhere hnodes hframes hcursor hidle => exact .nowhere hnodes hframes hcursor hidle
  | inside h hhalted hwaits => exact .inside (h.remain rfl rfl h.secure) hhalted hwaits

/-- A session at rest is at rest when it has been halted. -/
theorem Sound.halt (h : s.Sound w) : s.halt.Sound w := by
  cases h with
  | nowhere hnodes hframes hcursor hidle => exact .nowhere hnodes hframes hcursor rfl
  | inside h hhalted hwaits =>
    exact .inside (h.remain rfl rfl h.secure) (fun _ => rfl) fun hchoosing => by
      simp [isChoosing_of_idle (s := s.halt) rfl] at hchoosing

end Session

namespace Request

variable {w : Shelf}

/-- What is done at once leads a session at rest to one that runs, or to one at rest that has stayed
at its place. -/
theorem prepare_places {σ : Type} {st : Stage σ} (o : Observer σ) (hw : st.shelf = w)
    (h : st.session.Sound w) (r : Request) :
    Ends (r.prepare o.hear) st
      (fun seen? st' => match seen? with
        | none => st'.session.Sound w ∧ st.session.StaysPut st'.session
        | some _ => st'.shelf = w ∧ st'.session.Underway w)
      fun _ st' => st'.session.Sound w ∧ st.session.StaysPut st'.session := by
  subst hw
  cases r with
  | input i =>
    refine (Input.prepare_ends st o i).imp ?_ fun f st' ⟨s', hs', hfollows⟩ =>
      ⟨(h.rests hs').of_alike hfollows.session, hs'.staysPut.of_alike hfollows.session⟩
    rintro (_ | seen) st' ⟨s', hs', hfollows⟩
    · exact ⟨(h.rests hs').of_alike hfollows.session, hs'.staysPut.of_alike hfollows.session⟩
    · exact ⟨hfollows.shelf, (h.begins hs').of_alike hfollows.session⟩
  | findNode node context =>
    -- what has been declared on the way does not matter for the place of the session
    have hstays {vs : Variables} {st' : Stage σ} (h' : st.Follows st' (st.session.withVars vs)) :
        st'.session.Sound st.shelf ∧ st.session.StaysPut st'.session := by
      have hsame : st.session.StaysPut (st.session.withVars vs) := .inl ⟨rfl, rfl⟩
      exact ⟨(h.withVars vs).of_alike h'.session, hsame.of_alike h'.session⟩
    simp only [prepare, ends_bind, ends_ite, ends_pure]
    refine openNode_ends o (fun _ => ?_) (fun n st' _ _ _ h' => ?_) (fun n st' _ hn _ h' => ?_)
      (fun f st' _ _ _ h' => ?_) fun f st' _ _ _ h' => hstays h'
    · simpa using ⟨h, .inl ⟨rfl, rfl⟩⟩
    · simpa using hstays h'
    · simpa using ⟨h'.shelf, (h.enters hn).of_alike h'.session⟩
    · have hhalted (s : Session) : st.session.StaysPut s.halt := .inr rfl
      exact ⟨(h.withVars _).halt.of_alike h'.session, (hhalted _).of_alike h'.session⟩

/-- Whatever is told at once is told of the session that is there in the end. -/
theorem prepare_tells {st : Stage (List Entry)} (r : Request) :
    LeavesFrom Stage.Tells st (r.prepare scribe.hear) := by
  cases r with
  | input i => exact i.prepare_tells
  | findNode node context =>
    simp only [LeavesFrom, prepare, ends_bind, ends_ite, ends_pure]
    refine (tells_openNode node context).imp (fun opened st' h => ?_) fun _ _ h => h
    cases opened with
    | true => simpa using h
    | false => simpa using (show st.Quiet st' from h).tells

end Request

namespace Attentive

variable {w : Shelf} {settings : Settings} {st st' : Stage (List Entry)}

/-- A session that presents no line is still where it was, or no text is on screen. -/
theorem dwells (h : Attentive w settings st.host st.session) (hdwells : st.Dwells st')
    (htells : st.Tells st') (hsound : st'.session.Sound w)
    (hstays : st.session.StaysPut st'.session) : Attentive w settings st'.host st'.session := by
  rcases hstays with ⟨hsame, hnodes⟩ | hidle
  · exact ⟨h.voiced.dwells hdwells, hsound, hdwells.lingers htells h.lingers hsame hnodes⟩
  · exact .of_awaits (h.voiced.dwells hdwells) hsound (.inl (.inl hidle))

/-- Where a text on screen is complete, this has been told since the line was presented. -/
theorem exists_completed {log : List Entry} {s : Session} (h : Attentive w settings log s)
    (hrevealed : s.revealed? = some true) :
    ∃ since, s.Lingers log since ∧ ∃ s', told .textCompleted s' ∈ since := by
  obtain ⟨since, hlingers⟩ := h.lingers fun hnone => by simp [Session.revealed?, hnone] at hrevealed
  refine ⟨since, hlingers, ?_⟩
  have hcount : 0 < since.countP Entry.isCompletion := by
    rw [← hlingers.completions_eq, h.voiced.counted true hrevealed]
    exact Nat.one_pos
  obtain ⟨x, hx, hcompletion⟩ := List.countP_pos_iff.mp hcount
  unfold Entry.isCompletion at hcompletion
  split at hcompletion
  · next s' => exact ⟨s', hx⟩
  · cases hcompletion

end Attentive

/-- Which blocks are remembered does not matter for what has been told. -/
theorem Voiced.remembering {settings : Settings} {log : List Entry} {s : Session}
    (h : Voiced settings log s) (seen : List Visit) : Voiced settings log { s with seen } :=
  ⟨h.kept, h.unrecorded, h.tidy, h.transcribed, h.wordless, h.grows, h.once, h.counted⟩

namespace Request

variable {w : Shelf} {settings : Settings} {st : Stage (List Entry)}

/-- What is done at once leads an attentive session to one that is attentive, or to one that runs in
accordance with what has been told. -/
theorem prepare_attentive (hw : st.shelf = w) (h : Attentive w settings st.host st.session)
    (r : Request) :
    Ends (r.prepare scribe.hear) st
      (fun seen? st' => match seen? with
        | none => Attentive w settings st'.host st'.session
        | some _ => st'.shelf = w ∧ Voiced settings st'.host st'.session ∧ st'.session.Underway w)
      fun _ st' => Attentive w settings st'.host st'.session := by
  refine ((r.prepare_places scribe hw h.sound).and (r.prepare_dwells.and r.prepare_tells)).imp ?_ ?_
  · rintro (_ | seen) st' ⟨hplaces, hdwells, htells⟩
    · obtain ⟨hsound, hstays⟩ := hplaces
      exact h.dwells hdwells htells hsound hstays
    · obtain ⟨hw', hunderway⟩ := hplaces
      exact ⟨hw', h.voiced.dwells hdwells, hunderway⟩
  · rintro f st' ⟨⟨hsound, hstays⟩, hdwells, htells⟩
    exact h.dwells hdwells htells hsound hstays

/-- A request leads from attention to attention, unless the session runs on without end. Even then
it is in accordance with what has been told. -/
theorem perform_attentive (hlegible : w.Legible) (hw : st.shelf = w)
    (h : Attentive w settings st.host st.session) (r : Request) :
    Ends (r.perform scribe.hear) st (fun _ st' => Attentive w settings st'.host st'.session)
      fun f st' => Voiced settings st'.host st'.session ∧
        (f ≠ .endless → Attentive w settings st'.host st'.session) := by
  rw [r.perform_eq, ends_bind]
  refine (r.prepare_attentive hw h).imp ?_ fun _ _ h' => ⟨h'.voiced, fun _ => h'⟩
  rintro (_ | seen) st' h'
  · cases r <;> exact h'
  obtain ⟨hw', hvoiced, hunderway⟩ := h'
  have hrun := run_attentive hlegible hw' (hvoiced.remembering seen) (hunderway.remembering seen)
  cases r with
  | findNode node context => exact hrun
  | input i =>
    rw [runOn, Input.runOn, ends_bind]
    refine hrun.imp (fun _ st₁ h₁ => ?_) fun _ _ h₁ => h₁
    -- what is told when a session has started is nothing about its lines
    have htold (e : Event) (he : e.isOfText = false) : Ends (scribe.hear e) st₁
        (fun _ st' => Attentive w settings st'.host st'.session) fun _ _ => False :=
      h₁.dwells (((silent_hear he st₁).of_ok rfl).dwells) ((tells_hear e).of_ok rfl) h₁.sound
        (.inl ⟨rfl, rfl⟩)
    cases i with
    | start node context =>
      exact (htold (.autoSaveRequested node) rfl).imp (fun _ _ h => h) fun _ _ h => h.elim
    | _ => exact h₁

end Request

/-! ### Leaving lines -/

/-- The session is where it has been, and so it was whenever something was told meanwhile. -/
def Stage.Remains (st st' : Stage (List Entry)) : Prop :=
  st'.session.traversal = st.session.traversal ∧ ∃ later, st'.host = st.host ++ later ∧
    ∀ e s, told e s ∈ later → s.traversal = st.session.traversal

namespace Input

variable {σ : Type} {i : Input} (hi : i = .advance ∨ ∃ dt, i = .update dt)

include hi

/-- The session runs on only from a line whose text is complete. -/
theorem revealed_of_leaves {st : Stage σ} (o : Observer σ) :
    Ends (i.prepare o.hear) st (fun seen? _ => seen?.isSome → st.session.revealed? = some true)
      fun _ _ => True := by
  by_cases hrevealed : st.session.revealed? = some true
  · exact ends_of_forall (fun _ _ _ => hrevealed) fun _ _ => trivial
  -- the text is still being revealed, so that the session stays
  have hstays {x : Act σ Unit} : Ends (do x; return (none : Option (List Visit))) st
      (fun seen? _ => seen?.isSome → st.session.revealed? = some true) fun _ _ => True :=
    ends_bind.mpr (ends_of_forall (fun _ _ h => by cases h) fun _ _ => trivial)
  have hc {w : Typewriter} (hw : st.session.typewriter = some w) : w.complete = false := by
    simpa [Session.revealed?, hw] using hrevealed
  rcases hi with rfl | ⟨dt, rfl⟩
  · rw [prepare, ends_bind, ends_session]
    split
    · next w _ hw =>
      rw [hc hw, if_neg Bool.false_ne_true]
      split <;> exact hstays
    · exact fun h => by cases h
  · rw [prepare, ends_bind, ends_session]
    split
    · next w _ hw =>
      rw [hc hw, if_neg Bool.false_ne_true]
      exact hstays
    · exact fun h => by cases h

/-- Otherwise the session stays where it is. -/
theorem remains_or_revealed (st : Stage (List Entry)) :
    st.Remains ((Request.input i).after scribe.hear st) ∨ st.session.revealed? = some true := by
  -- these inputs leave the session alone, unless it runs on
  have hremains {s' : Session} {st' : Stage (List Entry)} (hs' : st.session.Rests st.shelf i s')
      (hfollows : st.Follows st' s') (htells : st.Tells st') : st.Remains st' := by
    have hsame : s' = st.session := by
      rcases hi with rfl | ⟨dt, rfl⟩ <;> cases hs' <;> rfl
    obtain ⟨_, _, _, _, _, hsession⟩ := hsame ▸ hfollows.session
    have htraversal : st'.session.traversal = st.session.traversal := by rw [hsession]
    obtain ⟨later, hhost, hlater⟩ := htells
    refine ⟨htraversal, later, hhost, fun e s he => ?_⟩
    obtain ⟨_, _, _, _, _, hs⟩ := hlater e s he
    rw [← htraversal, hs]
  have hends := (i.prepare_ends st scribe).and (i.prepare_tells.and (revealed_of_leaves hi scribe))
  refine Request.after_of_ends
    (P := fun st' => st.Remains st' ∨ st.session.revealed? = some true) ?_
  rw [Request.perform_eq, ends_bind]
  refine hends.imp ?_ fun f st' ⟨⟨s', hs', hfollows⟩, htells, _⟩ =>
    .inl (hremains hs' hfollows htells)
  rintro (_ | seen) st' ⟨hprepared, htells, hleaves⟩
  · obtain ⟨s', hs', hfollows⟩ := hprepared
    exact .inl (hremains hs' hfollows htells)
  · exact ends_of_forall (fun _ _ => .inr (hleaves rfl)) fun _ _ => .inr (hleaves rfl)

end Input

/-! ### Whole plays -/

/-- The sessions over a shelf of scripts that one which begins with settings reaches by requests,
and what has been noted on the way. A request may fail, as long as it comes to an end. -/
inductive Heard (w : Shelf) (settings : Settings) : Session → List Entry → Prop where
  /-- A session begins with variables. -/
  | fresh (vars : Variables) : Heard w settings { settings, vars } []
  /-- A request has been performed. -/
  | performed {s : Session} {log : List Entry} (h : Heard w settings s log)
      {st st' : Stage (List Entry)} (hw : st.shelf = w) (hs : st.session = s) (hlog : st.host = log)
      {r : Request} (hr : r.perform scribe.hear st = .ok () st') :
      Heard w settings st'.session st'.host
  /-- A request has failed. -/
  | failed {s : Session} {log : List Entry} (h : Heard w settings s log)
      {st st' : Stage (List Entry)} (hw : st.shelf = w) (hs : st.session = s) (hlog : st.host = log)
      {r : Request} {f : Failure} (hf : f ≠ .endless)
      (hr : r.perform scribe.hear st = .error f st') : Heard w settings st'.session st'.host

namespace Heard

variable {w : Shelf} {settings : Settings} {s : Session} {log : List Entry}

/-- Sessions that are reached are attentive. -/
theorem attentive (hlegible : w.Legible) (h : Heard w settings s log) :
    Attentive w settings log s := by
  induction h with
  | fresh vars => exact .fresh w settings vars
  | @performed _ _ _ st st' hw hs hlog r hr ih =>
    subst hs hlog
    exact (r.perform_attentive hlegible hw ih).of_ok hr
  | @failed _ _ _ st st' hw hs hlog r f hf hr ih =>
    subst hs hlog
    exact ((r.perform_attentive hlegible hw ih).of_error hr).2 hf

/-- Whatever is asked of a session next, the transcript holds the lines that have been presented,
and has done so throughout, exactly if the settings give a pace or nothing has come into it. Between
two lines a text is completed once at most. To go on or to let time pass leaves the session where it
is, or its line has been presented there, and its text has been completed since then. -/
theorem presented_in_turn (hlegible : w.Legible) (h : Heard w settings s log)
    {st : Stage (List Entry)} (hw : st.shelf = w) (hs : st.session = s) (hlog : st.host = log)
    (r : Request) :
    let st' := r.after scribe.hear st
    (Transcribed st'.host st'.session.traversal.transcript ↔
        settings.Paced ∨ st'.session.traversal.transcript = []) ∧
      Once st'.host ∧
      ∀ i, r = .input i → (i = .advance ∨ ∃ dt, i = .update dt) →
        st.Remains st' ∨
          ∃ since, s.Lingers log since ∧ ∃ s', told .textCompleted s' ∈ since := by
  subst hs hlog
  have hattentive := h.attentive hlegible
  have hvoiced :
      Voiced settings (r.after scribe.hear st).host (r.after scribe.hear st).session := by
    refine Request.after_of_ends (P := fun st' => Voiced settings st'.host st'.session) ?_
    exact (r.perform_attentive hlegible hw hattentive).imp (fun _ _ h' => h'.voiced) fun _ _ h' =>
      h'.1
  refine ⟨hvoiced.transcribed_iff, once_of_completions_le hvoiced.once, ?_⟩
  rintro i rfl hi
  exact (Input.remains_or_revealed hi st).imp id hattentive.exists_completed

/-- A script with two lines. -/
private def greeting : Stage (List Entry) :=
  { Stage.ofScript ["#Node: main", "Hello.", "Bye.", "#EndNode"] with host := [] }

/-- The reader starts, lets the first line be completed and goes on to the second one. -/
private theorem greeting_goes_on :
    Ends ((Request.input (.start "main" "")).perform scribe.hear) greeting
      (fun _ st => Ends ((Request.input .advance).perform scribe.hear) st
        (fun _ st₁ =>
          ((Request.input .advance).after scribe.hear st₁).session.traversal.cursor.line ≠
            st₁.session.traversal.cursor.line)
        fun _ _ => False)
      fun _ _ => False := by
  decide +kernel

/-- When the reader goes on to the second line, the text of the first one has been completed, and
the transcript holds what has been presented. -/
theorem presented_in_turn_greeting : ∃ s log, ∃ st : Stage (List Entry),
    Heard greeting.shelf {} s log ∧ st.session = s ∧ st.host = log ∧
      Transcribed ((Request.input .advance).after scribe.hear st).host
        ((Request.input .advance).after scribe.hear st).session.traversal.transcript ∧
      ∃ since, s.Lingers log since ∧ ∃ s', told .textCompleted s' ∈ since := by
  obtain ⟨_, st, hstart, hends⟩ := greeting_goes_on.exists_ok
  obtain ⟨_, st₁, hadvance, hline⟩ := hends.exists_ok
  have hw : st.shelf = greeting.shelf :=
    (Input.perform_shelf scribe (.start "main" "") greeting).of_ok hstart
  have hw₁ : st₁.shelf = greeting.shelf :=
    ((Input.perform_shelf scribe .advance st).of_ok hadvance).trans hw
  have hheard : Heard greeting.shelf {} st.session st.host :=
    (Heard.fresh .empty).performed rfl rfl rfl hstart
  have hheard₁ := hheard.performed hw rfl rfl hadvance
  obtain ⟨htranscribed, -, hleaves⟩ := presented_in_turn (by decide +kernel) hheard₁ hw₁ rfl rfl
    (.input .advance)
  refine ⟨_, _, st₁, hheard₁, rfl, rfl, htranscribed.mpr (.inl Settings.exists_pace), ?_⟩
  -- the cursor has moved, so the session has not remained at the first line
  refine (hleaves .advance rfl (.inl rfl)).resolve_left fun hremains => hline ?_
  rw [hremains.1]

/-- It is not so that the transcript always holds the lines that have been presented: a line is
added to it before the time is known that its text takes, and this may be no number. -/
theorem not_presented_in_turn : ¬∀ (w : Shelf) (settings : Settings) (s : Session)
    (log : List Entry) (st : Stage (List Entry)) (r : Request), w.Legible →
    Heard w settings s log → st.shelf = w → st.session = s → st.host = log →
    Transcribed (r.after scribe.hear st).host
      (r.after scribe.hear st).session.traversal.transcript := by
  intro hall
  have hsame := (hall greeting.shelf { textSpeed := 10 ^ 400 } _ _
    { greeting with session := { settings := { textSpeed := 10 ^ 400 } } }
    (.input (.start "main" "")) (by decide +kernel) (.fresh .empty) rfl rfl rfl).1
  revert hsame
  decide +kernel

end Heard

end VisualNovel
