import VisualNovel.Proofs.Tour.Basic

/-!
# Lines of decisions

A line of a decision is played only inside the option that was chosen, unless conditionals have
carried the cursor into the decision past the line at which the reader would have been asked. Then
the decision is never opened, and whatever is played of it is played although nothing was chosen.

## Main definitions

* `Decision.Guides`: a decision is open and its chosen option is the one with the line;
* `Decision.Bypassed`: conditionals have carried the cursor into a decision that is not open.

## Main results

* `Tour.guides_iff_not_bypassed`: a line that is played in a decision is one of the chosen option
  exactly if the decision has not been bypassed.
-/

namespace VisualNovel

/-- A line belongs to an option. -/
def Choice.Covers (o : Choice) (line : Int) : Prop := o.start ≤ line ∧ line < o.stop

namespace Decision

/-- A decision is open, an option has been chosen in it, and this option and no other one has the
line of the cursor. -/
def Guides (d : Decision) (c : Cursor) : Prop :=
  ∃ way o, (d.index, way) ∈ c.decisions.zip c.choices ∧ at? d.options way = some o ∧
    o.Covers c.line ∧ ∀ way' o', at? d.options way' = some o' → o'.Covers c.line → way' = way

/-- Conditionals have carried the cursor past the line at which the reader is asked, to a line of
the decision, while the decision was not open. -/
def Bypassed (d : Decision) (deeds : List Deed) : Prop :=
  ∃ c line, .led c line ∈ deeds ∧ c.line ≤ d.start ∧ d.start < line ∧ line < d.stop ∧
    d.index ∉ c.decisions

variable {d : Decision} {deeds deeds' : List Deed}

/-- A decision has been bypassed earlier or lately. -/
theorem bypassed_append : d.Bypassed (deeds ++ deeds') ↔ d.Bypassed deeds ∨ d.Bypassed deeds' := by
  simp only [Bypassed, List.mem_append]
  constructor
  · rintro ⟨c, line, hmem | hmem, hrest⟩
    · exact .inl ⟨c, line, hmem, hrest⟩
    · exact .inr ⟨c, line, hmem, hrest⟩
  · rintro (⟨c, line, hmem, hrest⟩ | ⟨c, line, hmem, hrest⟩)
    · exact ⟨c, line, .inl hmem, hrest⟩
    · exact ⟨c, line, .inr hmem, hrest⟩

/-- A decision is bypassed only by conditionals. -/
theorem not_bypassed_singleton {x : Deed} (hx : ∀ c line, x ≠ .led c line) :
    ¬d.Bypassed [x] := by
  rintro ⟨c, line, hmem, -⟩
  exact hx c line (List.mem_singleton.mp hmem).symm

/-- Two options of a decision have no line in common. -/
theorem Laid.option_unique (h : d.Laid) {line way way' : Int} {o o' : Choice}
    (ho : at? d.options way = some o) (ho' : at? d.options way' = some o') (hc : o.Covers line)
    (hc' : o'.Covers line) : way' = way := by
  obtain ⟨a, -, htiles⟩ := h.tiles
  obtain ⟨i, rfl, hi⟩ := at?_eq_some_iff.mp ho
  obtain ⟨j, rfl, hj⟩ := at?_eq_some_iff.mp ho'
  obtain ⟨hilt, rfl⟩ := List.getElem?_eq_some_iff.mp hi
  obtain ⟨hjlt, rfl⟩ := List.getElem?_eq_some_iff.mp hj
  have hordered := List.pairwise_iff_getElem.mp htiles.ordered
  obtain ⟨hc₁, hc₂⟩ := hc
  obtain ⟨hc₁', hc₂'⟩ := hc'
  rcases lt_trichotomy i j with hlt | rfl | hgt
  · have := hordered i j hilt hjlt hlt
    omega
  · rfl
  · have := hordered j i hjlt hilt hgt
    omega

end Decision

/-- How the decisions of a node stand to its cursor, given which of them are open. -/
structure Attended (n : Node) (c : Cursor) (opened : List Int) (deeds : List Deed) : Prop where
  /-- A decision around the cursor starts there, is open, or has been bypassed. -/
  around : ∀ d ∈ n.decisions, d.Covers c.line →
    d.start = c.line ∨ d.index ∈ opened ∨ d.Bypassed deeds
  /-- A decision that has been bypassed is behind the point where it could be opened. -/
  bypassed : ∀ d ∈ n.decisions, d.Bypassed deeds → d.start < c.line ∧ d.index ∉ opened

namespace Attended

variable {n : Node} {depth : Nat} {seen : List Visit} {c c' : Cursor} {m : Motion}
  {deeds : List Deed}

/-- Further deeds in which no decision is bypassed do not matter. -/
theorem append {opened : List Int} {deeds' : List Deed} (h : Attended n c opened deeds)
    (hnone : ∀ d ∈ n.decisions, ¬d.Bypassed deeds') : Attended n c opened (deeds ++ deeds') where
  around d hd hc := by
    rw [Decision.bypassed_append]
    exact (h.around d hd hc).imp_right (Or.imp_right .inl)
  bypassed d hd hb := by
    rcases Decision.bypassed_append.mp hb with hb | hb
    · exact h.bypassed d hd hb
    · exact absurd hb (hnone d hd)

/-- A round over the blocks keeps the decisions attended. -/
theorem round (hn : n.Laid) (h : Attended n c c.decisions deeds)
    (hround : n.Turned depth seen c m c') :
    Attended n c' c'.decisions (deeds ++ c.leads m.cursor.line) where
  around d hd hcovers := by
    obtain ⟨hstart, hstop⟩ := hcovers
    have hpassed := hround.passed
    rcases hround.left.line_eq with hline | ⟨e, he, hopen, hline⟩
    · -- the decisions have left the cursor where the conditionals had led it
      by_cases hat : d.start = c'.line
      · exact .inl hat
      by_cases hopen : d.index ∈ c.decisions
      · rw [← hpassed.decisions] at hopen
        rcases hround.left.behind d hd hopen with hopen | hbehind
        · exact .inr (.inl hopen)
        · omega
      have hle := hpassed.line_le
      refine .inr (.inr (Decision.bypassed_append.mpr ?_))
      by_cases hbefore : c.line ≤ d.start
      · refine .inr ⟨c, m.cursor.line, Cursor.mem_leads.mpr ⟨by omega, rfl⟩, hbefore, ?_⟩
        exact ⟨by omega, by omega, hopen⟩
      · rcases h.around d hd ⟨by omega, by omega⟩ with hat' | hopen' | hbypassed
        · omega
        · exact absurd hopen' hopen
        · exact .inl hbypassed
    · -- at the end of one decision another one can only start
      have hlaid := (hn.decision_laid e he).start_le_stop
      rcases lt_trichotomy d.index e.index with hlt | heq | hgt
      · have := hn.decision_lt hd he hlt
        omega
      · obtain rfl := hn.decision_ext hd he heq
        omega
      · have := hn.decision_lt he hd hgt
        exact .inl (by omega)
  bypassed d hd hb := by
    have hpassed := hround.passed
    have hle := hround.left.line_le
    have hle' := hpassed.line_le
    rcases Decision.bypassed_append.mp hb with hb | ⟨c₀, line, hmem, -, hlt, -, hopen⟩
    · obtain ⟨hlt, hopen⟩ := h.bypassed d hd hb
      exact ⟨by omega, fun hmem => hopen (hround.mem_decisions hmem)⟩
    · obtain ⟨-, heq⟩ := Cursor.mem_leads.mp hmem
      obtain ⟨rfl, rfl⟩ := Deed.led.inj heq
      exact ⟨by omega, fun hmem => hopen (hround.mem_decisions hmem)⟩

/-- A decision is opened. -/
theorem ask (h : Attended n c c.decisions deeds) (hn : n.Laid) {d : Decision}
    (hd : n.decisionAt? depth seen c = some d) :
    Attended n c (c.opening d.index).decisions deeds where
  around e he hc := by
    refine (h.around e he hc).imp_right (Or.imp_left fun hopen => ?_)
    exact List.mem_append_left _ hopen
  bypassed e he hb := by
    obtain ⟨hlt, hopen⟩ := h.bypassed e he hb
    obtain ⟨hmem, hstart, -⟩ := Node.decisionAt?_some hd
    refine ⟨hlt, fun hopened => ?_⟩
    rcases List.mem_append.mp hopened with hopened | hopened
    · exact hopen hopened
    · obtain rfl := hn.decision_ext he hmem (List.mem_singleton.mp hopened)
      omega

/-- Where no decision is left to open, a decision around the cursor is open or has been bypassed. -/
theorem open_or_bypassed (h : Attended n c c.decisions deeds) (hp : n.Poised depth seen c)
    (hnone : n.decisionAt? depth seen c = none) {d : Decision} (hd : d ∈ n.decisions)
    (hc : d.Covers c.line) : d.index ∈ c.decisions ∨ d.Bypassed deeds := by
  rcases h.around d hd hc with hstart | hrest
  · -- a decision that starts here has been opened, and its lines are not behind
    rcases Node.decisionAt?_none hnone hd hstart with hopen | hseen
    · exact .inl hopen
    · rcases (hp.seen_decisions d hd hseen).2 with hopen | hbehind
      · exact .inl hopen
      · have := hc.2
        omega
  · exact hrest

/-- The cursor goes to the next line where no decision is left to open. -/
theorem next (h : Attended n c c.decisions deeds) (hp : n.Poised depth seen c)
    (hnone : n.decisionAt? depth seen c = none) :
    Attended n (c.moveTo (c.line + 1)) c.decisions deeds where
  around d hd hc := by
    obtain ⟨hstart, hstop⟩ : d.start ≤ c.line + 1 ∧ c.line + 1 < d.stop := hc
    by_cases hat : d.start = c.line + 1
    · exact .inl hat
    · exact .inr (h.open_or_bypassed hp hnone hd ⟨by omega, by omega⟩)
  bypassed d hd hb := by
    obtain ⟨hlt, hopen⟩ := h.bypassed d hd hb
    have hline : (c.moveTo (c.line + 1)).line = c.line + 1 := rfl
    exact ⟨by omega, hopen⟩

/-- Where a line is taken up in a decision, the line is one of the chosen option exactly if the
decision has not been bypassed. -/
theorem guides_iff (hn : n.Laid) (h : Attended n c c.decisions deeds) (hp : n.Poised depth seen c)
    (hunfinished : n.OptionUnfinished c) (htail : c.decisions.tail = [])
    (hnone : n.decisionAt? depth seen c = none) {d : Decision} (hd : d ∈ n.decisions)
    (hc : d.Covers c.line) : d.Guides c ↔ ¬d.Bypassed deeds := by
  constructor
  · rintro ⟨way, o, hzip, -⟩ hb
    exact (h.bypassed d hd hb).2 (List.of_mem_zip hzip).1
  · intro hb
    have hopen := (h.open_or_bypassed hp hnone hd hc).resolve_right hb
    have hsingle : c.decisions = [d.index] := Node.eq_singleton_of_mem htail hopen
    obtain ⟨w, e, o, hw, hpicks, hstart⟩ := hp.exists_only_option hsingle
    have hlt := hunfinished [] d.index [] w e o hsingle hw hpicks
    obtain rfl := Option.some.inj (hpicks.1.symm.trans (hn.at?_decision hd))
    refine ⟨w, o, by simp [hsingle, hw], hpicks.2, ⟨hstart, hlt⟩, ?_⟩
    intro way' o' ho' hc'
    exact (hn.decision_laid e hd).option_unique hpicks.2 ho' ⟨hstart, hlt⟩ hc'

end Attended

/-- An option of the decision at the cursor is chosen. -/
theorem Attended.choose {n : Node} (hn : n.Laid) {c : Cursor} {deeds : List Deed} {d : Decision}
    (h : Attended n c (c.opening d.index).decisions deeds) (hd : d ∈ n.decisions)
    (hstart : d.start = c.line) {way : Int} {o : Choice} (ho : at? d.options way = some o) :
    Attended n ((c.opening d.index).choosing way o.start) (c.opening d.index).decisions
      (deeds ++ [.chose d o]) := by
  have hwithin := (hn.decision_laid d hd).option_within (mem_of_at? ho)
  have hline : ((c.opening d.index).choosing way o.start).line = o.start := rfl
  refine append ⟨?_, ?_⟩ fun e _ => Decision.not_bypassed_singleton (by simp)
  · intro e he hc
    obtain ⟨hle, hlt⟩ : e.start ≤ o.start ∧ o.start < e.stop := hc
    rcases lt_trichotomy e.index d.index with hbefore | heq | hbehind
    · have := hn.decision_lt he hd hbefore
      omega
    · exact .inr (.inl (by simp [Cursor.opening, heq]))
    · have := hn.decision_lt hd he hbehind
      exact .inl (by omega)
  · intro e he hb
    obtain ⟨hlt, hopen⟩ := h.bypassed e he hb
    exact ⟨by omega, hopen⟩

namespace Tour

variable {n : Node} {depth : Nat} {seen : List Visit} {c : Cursor} {st : Stance}
  {deeds : List Deed}

/-- Nothing is bypassed when a line is played. -/
private theorem not_bypassed_played (d : Decision) (c : Cursor) : ¬d.Bypassed [.played c] :=
  Decision.not_bypassed_singleton (by simp)

/-- The decisions of a node are attended throughout a tour. -/
theorem attended (hn : n.Laid) (h : Tour n depth seen c st deeds) :
    Attended n c (st.cursor c).decisions deeds := by
  -- on the tour: each step is a round, a move to the next line or an answer
  induction h with
  | enter _ =>
    refine ⟨fun d hd hc => .inl ?_, ?_⟩
    · have hle : d.start ≤ 0 := hc.1
      have := (hn.decision_within d hd).1
      exact le_antisymm hle this
    · rintro d - ⟨_, _, hmem, -⟩
      cases hmem
  | forget _ _ ih => exact ih
  | @ask seen c c' st deeds m d h hst hround hd ih =>
    have hturned := hround.turned hn (h.poised hn)
    rw [hst.cursor_eq] at ih
    rw [← List.append_assoc]
    exact ((ih.round hn hturned).ask hn hd).append fun e _ =>
      Decision.not_bypassed_singleton (by simp)
  | @move seen c c' st deeds m h hst hround hd hmoved ih =>
    rw [hst.cursor_eq] at ih
    exact ih.round hn (hround.turned hn (h.poised hn))
  | @command seen c c' st deeds m h hst hround hd hline ih =>
    have hturned := hround.turned hn (h.poised hn)
    rw [hst.cursor_eq] at ih
    rw [← List.append_assoc]
    exact ((ih.round hn hturned).next hturned.poised hd).append fun e _ => not_bypassed_played e c'
  | @skip seen c c' st deeds m h hst hround hd hline ih =>
    have hturned := hround.turned hn (h.poised hn)
    rw [hst.cursor_eq] at ih
    exact (ih.round hn hturned).next hturned.poised hd
  | @present seen c c' st deeds m h hst hround hd hline ih =>
    have hturned := hround.turned hn (h.poised hn)
    rw [hst.cursor_eq] at ih
    rw [← List.append_assoc]
    exact (ih.round hn hturned).append fun e _ => not_bypassed_played e c'
  | @advance seen c deeds h ih =>
    obtain ⟨hpoised, hnone, -⟩ := h.poised_stands hn
    exact Attended.next ih hpoised hnone
  | @choose seen c deeds d way o h ho ih =>
    obtain ⟨-, hd, -⟩ := h.poised_stands hn
    obtain ⟨hmem, hstart, -⟩ := Node.decisionAt?_some hd
    exact Attended.choose hn ih hmem hstart ho

/-- At the end of a round that finds no decision to ask, the line at the cursor is one of the chosen
option of a decision around it exactly if the decision has not been bypassed. -/
private theorem guides_iff_of_round (hn : n.Laid) (h : Tour n depth seen c st deeds)
    (hst : st.GoesOn) {m : Motion} {c' : Cursor} (hround : n.Round depth seen c m c')
    (hnone : n.decisionAt? depth m.seen c' = none) {d : Decision} (hd : d ∈ n.decisions)
    (hc : d.Covers c'.line) : d.Guides c' ↔ ¬d.Bypassed (deeds ++ c.leads m.cursor.line) := by
  have hturned := hround.turned hn (h.poised hn)
  have hattended := h.attended hn
  rw [hst.cursor_eq] at hattended
  exact (hattended.round hn hturned).guides_iff hn hturned.poised hturned.option_unfinished
    hturned.tail_nil hnone hd hc

/-- A line that is played in a decision is one of the option that has been chosen there, exactly if
conditionals have not carried the cursor past the line at which the reader would have chosen. -/
theorem guides_iff_not_bypassed (hn : n.Laid) (h : Tour n depth seen c st deeds) :
    AtEach (fun before x => ∀ cursor, x = .played cursor → ∀ d ∈ n.decisions,
      d.Covers cursor.line → (d.Guides cursor ↔ ¬d.Bypassed before)) deeds := by
  -- on the tour: a line is played at the end of a round that finds no decision to ask
  induction h with
  | enter _ => exact atEach_nil
  | forget _ _ ih => exact ih
  | ask _ _ _ _ ih =>
    rw [← List.append_assoc]
    exact (ih.leads _ _ (by simp)).concat (by simp)
  | move _ _ _ _ _ ih => exact ih.leads _ _ (by simp)
  | skip _ _ _ _ _ ih => exact ih.leads _ _ (by simp)
  | command h hst hround hd _ ih | present h hst hround hd _ ih =>
    rw [← List.append_assoc]
    refine (ih.leads _ _ (by simp)).concat ?_
    rintro cursor ⟨⟩ d hmem hc
    exact guides_iff_of_round hn h hst hround hd hmem hc
  | advance _ ih => exact ih
  | choose _ _ ih => exact ih.concat (by simp)

end Tour

end VisualNovel
