import VisualNovel.Proofs.Tour.Basic

/-!
# How often the reader is asked

A decision is opened for the reader only where it starts, and the cursor never goes back, so the
decisions of a visit are asked one after the other. The only way to ask one again is a choice that
leaves the cursor where it was, with earlier decisions that start at the same line: these have no
lines, and the guard that keeps them from being entered again is forgotten with every choice.

## Main definitions

* `Deed.asks?`: the decision that a deed opens, so that `filterMap Deed.asks?` gives all of them;
* `Node.Returns`: a choice leaves the cursor at a line where an earlier decision starts.

## Main results

* `Tour.asks_sorted_of_not_returns`: if no choice returns, the decisions are asked in order;
* `Tour.not_nodup_of_returns`: after a choice that returns, a decision is asked for a second time;
* `Tour.asks_nodup_iff_dropLast`: both together.
-/

namespace VisualNovel

/-- The decision that a deed opens. -/
def Deed.asks? : Deed → Option Decision
  | asked _ _ d => some d
  | _ => none

@[simp]
theorem filterMap_asks?_asked (line : Int) (c : Cursor) (d : Decision) :
    [Deed.asked line c d].filterMap Deed.asks? = [d] := rfl

@[simp]
theorem filterMap_asks?_chose (d : Decision) (o : Choice) :
    [Deed.chose d o].filterMap Deed.asks? = [] := rfl

@[simp]
theorem filterMap_asks?_played (c : Cursor) : [Deed.played c].filterMap Deed.asks? = [] := rfl

/-- Conditionals ask nothing. -/
@[simp]
theorem filterMap_asks?_leads (c : Cursor) (line : Int) :
    (c.leads line).filterMap Deed.asks? = [] := by
  unfold Cursor.leads
  split <;> rfl

/-- Choosing the option leaves the cursor at a line where an earlier decision starts. -/
def Node.Returns (n : Node) (d : Decision) (o : Choice) : Prop :=
  ∃ e ∈ n.decisions, e.index < d.index ∧ e.start = o.start ∧ (o.start < o.stop ∨ d.stop = o.start)

namespace Node

variable {n : Node}

/-- Of two decisions the one with the smaller number starts before the other, or where it does. -/
theorem Laid.start_le_of_index_le (hn : n.Laid) {d e : Decision} (hd : d ∈ n.decisions)
    (he : e ∈ n.decisions) (hle : d.index ≤ e.index) : d.start ≤ e.start := by
  rcases eq_or_lt_of_le hle with heq | hlt
  · rw [hn.decision_ext hd he heq]
  · exact le_trans (hn.decision_laid d hd).start_le_stop (hn.decision_lt hd he hlt)

end Node

namespace Tour

variable {n : Node} {depth : Nat} {seen : List Visit} {c : Cursor} {st : Stance}
  {deeds : List Deed}

/-- The session has come to a line at which nothing has been asked. -/
def IsNew : Stance → Prop
  | .arrived | .moved => True
  | _ => False

/-- The decisions that have been asked are those of the node that start at the cursor or before
it; they start before it if the session has just come to its line. -/
theorem asks_before (hn : n.Laid) (h : Tour n depth seen c st deeds) :
    ∀ d ∈ deeds.filterMap Deed.asks?, d ∈ n.decisions ∧ d.start ≤ c.line ∧
      (IsNew st → d.start < c.line) := by
  -- on the tour: only a round that asks adds a decision, and no step moves the cursor back
  induction h with
  | enter _ => simp
  | forget _ _ ih => exact ih
  | @ask seen c c' st deeds m d h _ hround hd ih =>
    have hle := (hround.turned hn (h.poised hn)).line_le
    obtain ⟨hmem, hstart, -⟩ := Node.decisionAt?_some hd
    intro e he
    simp only [List.filterMap_append, filterMap_asks?_leads, List.nil_append, List.mem_append] at he
    rcases he with he | he
    · obtain ⟨hmem', hle', -⟩ := ih e he
      exact ⟨hmem', by omega, False.elim⟩
    · obtain rfl : e = d := by simpa using he
      exact ⟨hmem, le_of_eq hstart, False.elim⟩
  | @move seen c c' st deeds m h _ hround _ hmoved ih =>
    have hle := (hround.turned hn (h.poised hn)).line_le
    intro e he
    obtain ⟨hmem', hle', -⟩ := ih e (by simpa using he)
    exact ⟨hmem', by omega, fun _ => by omega⟩
  | @command seen c c' st deeds m _ _ _ _ hline ih | @skip seen c c' st deeds m _ _ _ _ hline ih =>
    intro e he
    obtain ⟨hmem', hle', -⟩ := ih e (by simpa using he)
    have : (c'.moveTo (c'.line + 1)).line = c'.line + 1 := rfl
    exact ⟨hmem', by omega, fun _ => by omega⟩
  | @present seen c c' st deeds m h _ hround _ hline ih =>
    intro e he
    obtain ⟨hmem', hle', -⟩ := ih e (by simpa using he)
    exact ⟨hmem', by omega, False.elim⟩
  | @advance seen c deeds _ ih =>
    intro e he
    obtain ⟨hmem', hle', -⟩ := ih e he
    have : (c.moveTo (c.line + 1)).line = c.line + 1 := rfl
    exact ⟨hmem', by omega, fun _ => by omega⟩
  | @choose seen c deeds d way o h ho ih =>
    obtain ⟨hmem, hstart, -⟩ := Node.decisionAt?_some (h.poised_stands hn).2.1
    have hwithin := (hn.decision_laid d hmem).option_within (mem_of_at? ho)
    intro e he
    obtain ⟨hmem', hle', -⟩ := ih e (by simpa using he)
    have : ((c.opening d.index).choosing way o.start).line = o.start := rfl
    exact ⟨hmem', by omega, False.elim⟩

/-- While the reader has to choose, the decision is the one that was asked last. -/
theorem asks_last {d : Decision} (h : Tour n depth seen c (.asking d) deeds) :
    ∃ before, deeds.filterMap Deed.asks? = before ++ [d] := by
  cases h with
  | @ask seen c₀ c' st deeds m d => exact ⟨deeds.filterMap Deed.asks?, by simp⟩

/-- A pass over conditionals enters no decision. -/
private theorem seen_decision {seen' : List Visit} {c' : Cursor} {index : Int}
    (h : n.PassedConditionals depth seen c seen' c')
    (hmem : n.visit depth .decision index ∈ seen') : n.visit depth .decision index ∈ seen := by
  rcases h.seen_new _ hmem with hmem | ⟨_, heq⟩
  · exact hmem
  · simp [Node.visit] at heq

/-- The decisions that are remembered as entered have been asked. -/
theorem seen_asked (hn : n.Laid) (h : Tour n depth seen c st deeds) :
    ∀ d ∈ n.decisions, n.visit depth .decision d.index ∈ seen →
      d ∈ deeds.filterMap Deed.asks? := by
  -- a choice remembers its own decision alone, a round nothing but conditionals
  induction h with
  | enter hseen => exact fun d _ hmem => absurd hmem (hseen _ _)
  | forget _ hseen ih => exact fun d hd hmem => ih d hd (hseen _ _ hmem)
  | @ask _ _ _ _ _ _ _ h _ hround _ ih =>
    intro d hd hmem
    have := ih d hd (seen_decision (hround.turned hn (h.poised hn)).passed hmem)
    rw [List.filterMap_append]
    exact List.mem_append_left _ this
  | move h _ hround _ _ ih | command h _ hround _ _ ih | skip h _ hround _ _ ih
  | present h _ hround _ _ ih =>
    intro d hd hmem
    have := ih d hd (seen_decision (hround.turned hn (h.poised hn)).passed hmem)
    simpa using this
  | advance _ _ => exact fun d _ hmem => by simp at hmem
  | @choose _ _ _ e _ _ h _ _ =>
    intro d hd hmem
    obtain ⟨hmem', -⟩ := Node.decisionAt?_some (h.poised_stands hn).2.1
    have hindex : d.index = e.index := by simpa [Node.visit] using hmem
    obtain rfl := hn.decision_ext hd hmem' hindex
    obtain ⟨before, hlast⟩ := h.asks_last
    simp [hlast]

/-- An earlier decision that starts where the reader is asked has been asked just before, and the
conditionals have nothing more to do there. -/
theorem asking_earlier (hn : n.Laid) {d : Decision} (h : Tour n depth seen c (.asking d) deeds)
    {e : Decision} (he : e ∈ n.decisions) (hlt : e.index < d.index) (hstart : e.start = d.start) :
    e ∈ deeds.filterMap Deed.asks? ∧ n.Settled c := by
  cases h with
  | @ask seen c₀ _ st deeds m _ h hst hround hd =>
    have hturned := hround.turned hn (h.poised hn)
    obtain ⟨hmem, hline, -⟩ := Node.decisionAt?_some hd
    have hbefore := hn.decision_lt he hmem hlt
    have hlaid := (hn.decision_laid e he).start_le_stop
    -- `e` has no lines, so it is not open any more
    have hseen : n.visit depth .decision e.index ∈ seen := by
      refine seen_decision hturned.passed ?_
      refine (Node.decisionAt?_first hn hd he hlt (hstart.trans hline)).resolve_left ?_
      intro hopen
      have := hturned.poised.lt_stop_of_open hn hturned.option_unfinished hturned.tail_nil he hopen
      omega
    have hasked := h.seen_asked hn e he hseen
    refine ⟨by rw [List.filterMap_append]; exact List.mem_append_left _ hasked, ?_⟩
    -- the cursor has not moved since `e` was asked, so the conditionals have been passed here
    obtain ⟨-, hle, -⟩ := h.asks_before hn e hasked
    exact hturned.settled_of_stays (by omega)

/-- After a choice that stays at its line, leaving options does not move the cursor. -/
private theorem leaveOptions_line (hn : n.Laid) {d : Decision} (hd : d ∈ n.decisions)
    (hunfinished : n.OptionUnfinished c) {way : Int} {o : Choice}
    (ho : at? d.options way = some o) (hline : o.start = c.line)
    (hstays : o.start < o.stop ∨ d.stop = o.start)
    (hopen : List.Forall₂ (n.OptionOpen o.start) (c.opening d.index).decisions
      ((c.opening d.index).choosing way o.start).choices) :
    (n.leaveOptions ((c.opening d.index).choosing way o.start)).1.line = c.line := by
  obtain ⟨-, ⟨heq, -⟩, -⟩ := Node.leaveOptions_induction
    (c := (c.opening d.index).choosing way o.start)
    (P := fun c' => c'.line = c.line ∧ (c' = (c.opening d.index).choosing way o.start ∨
      c'.decisions = c.decisions ∧ c'.choices = c.choices)) hopen ⟨hline, .inl rfl⟩ (by
    rintro c' is i ws w e o' ⟨hline', hcase⟩ hi hw hpicks hstop
    rcases hcase with rfl | ⟨hdecisions, hchoices⟩
    · -- the option that has just been chosen is finished, so its decision ends here as well
      obtain rfl := (List.cons.inj (List.append_inj' hi rfl).2).1
      obtain rfl := (List.cons.inj (List.append_inj' hw rfl).2).1
      obtain ⟨rfl, rfl⟩ := hpicks.unique ⟨hn.at?_decision hd, ho⟩
      refine ⟨?_, .inr ⟨?_, ?_⟩⟩
      · rw [Cursor.leaveOption, hline', max_eq_left]
        omega
      · simp [Cursor.leaveOption, Cursor.choosing, Cursor.opening]
      · simp [Cursor.leaveOption, Cursor.choosing, Cursor.opening]
    · have := hunfinished is i ws w e o' (hdecisions ▸ hi) (hchoices ▸ hw) hpicks
      omega)
  exact heq

/-- After a choice that returns, the next round asks a decision that has been asked before. -/
theorem asks_again (hn : n.Laid) {d : Decision} (h : Tour n depth seen c (.asking d) deeds)
    {way : Int} {o : Choice} (ho : at? d.options way = some o) (hreturns : n.Returns d o)
    {m : Motion} {c' : Cursor}
    (hround : n.Round depth [n.visit depth .decision d.index]
      ((c.opening d.index).choosing way o.start) m c') :
    ∃ e ∈ deeds.filterMap Deed.asks?, n.decisionAt? depth m.seen c' = some e := by
  obtain ⟨e, he, hlt, hstart, hreturn⟩ := hreturns
  obtain ⟨hpoised, hd, hunfinished, htail⟩ := h.poised_stands hn
  obtain ⟨hmem, hline, hopen, -⟩ := Node.decisionAt?_some hd
  have hwithin := (hn.decision_laid d hmem).option_within (mem_of_at? ho)
  have hbefore := hn.decision_lt he hmem hlt
  have hlaid := (hn.decision_laid e he).start_le_stop
  have hchosen := hpoised.choose hn hunfinished htail hmem hline hopen ho
  have hturned := hround.turned hn hchosen
  -- neither pass moves the cursor
  have hsettled : n.Settled ((c.opening d.index).choosing way o.start) := by
    refine (h.asking_earlier hn he hlt (by omega)).2.congr ?_ rfl rfl
    show o.start = c.line
    omega
  obtain ⟨-, vs, hm, hc'⟩ := hround
  have hcursor := hchosen.passConditionals_of_settled hn hsettled vs
  rw [hm] at hcursor
  have hline' : c'.line = c.line := by
    rw [← hc', hcursor]
    exact leaveOptions_line hn hmem hunfinished ho (by omega) hreturn hchosen.options_open
  -- so `e` can be opened
  have hfree : ¬(e.index ∈ c'.decisions ∨ n.visit depth .decision e.index ∈ m.seen) := by
    rintro (hopen' | hseen)
    · have := hturned.poised.lt_stop_of_open hn hturned.option_unfinished hturned.tail_nil he
        hopen'
      omega
    · have := seen_decision hturned.passed hseen
      have hindex : e.index = d.index := by simpa [Node.visit] using this
      omega
  cases hfound : n.decisionAt? depth m.seen c' with
  | none => exact absurd (Node.decisionAt?_none hfound he (by omega)) hfree
  | some x =>
    obtain ⟨hx, hxline, -⟩ := Node.decisionAt?_some hfound
    have hxe : ¬e.index < x.index := fun hlt' =>
      hfree (Node.decisionAt?_first hn hfound he hlt' (by omega))
    exact ⟨x, (h.asking_earlier hn hx (by omega) (by omega)).1, rfl⟩

/-- After a choice that does not return, a round asks only for later decisions. -/
theorem asks_later (hn : n.Laid) {d : Decision} (h : Tour n depth seen c (.asking d) deeds)
    {way : Int} {o : Choice} (ho : at? d.options way = some o) (hreturns : ¬n.Returns d o)
    {m : Motion} {c' : Cursor}
    (hround : n.Round depth [n.visit depth .decision d.index]
      ((c.opening d.index).choosing way o.start) m c')
    {e : Decision} (he : n.decisionAt? depth m.seen c' = some e) : d.index < e.index := by
  obtain ⟨hpoised, hd, hunfinished, htail⟩ := h.poised_stands hn
  obtain ⟨hmem, hline, hopen, -⟩ := Node.decisionAt?_some hd
  obtain ⟨hmem', hline', hopen', hseen'⟩ := Node.decisionAt?_some he
  have hwithin := (hn.decision_laid d hmem).option_within (mem_of_at? ho)
  have hchosen := hpoised.choose hn hunfinished htail hmem hline hopen ho
  have hturned := hround.turned hn hchosen
  have hle : o.start ≤ m.cursor.line := hturned.passed.line_le
  have hle' := hturned.left.line_le
  by_contra hnot
  rcases eq_or_lt_of_le (not_lt.mp hnot) with heq | hlt
  · -- the decision that has just been answered is remembered
    refine hseen' (hturned.passed.seen_mono _ ?_)
    rw [heq]
    exact List.mem_singleton_self _
  · have hbefore := hn.decision_lt hmem' hmem hlt
    have hlaid := (hn.decision_laid e hmem').start_le_stop
    -- the option has no lines but its decision has, so the cursor leaves both
    have hfinished : ¬(o.start < o.stop ∨ d.stop = o.start) := fun hreturn =>
      hreturns ⟨e, hmem', hlt, by omega, hreturn⟩
    obtain ⟨-, vs, -, hc'⟩ := hround
    have hstop := hturned.poised_between.stop_le_leaveOptions
      (show m.cursor.decisions = c.decisions ++ [d.index] by rw [hturned.passed.decisions]; rfl)
      (show m.cursor.choices = c.choices ++ [way] by rw [hturned.passed.choices]; rfl)
      ⟨hn.at?_decision hmem, ho⟩ (by omega)
    rw [hc'] at hstop
    omega

/-- If no choice returns, the decisions are asked in the order of their numbers. -/
theorem asks_sorted_of_not_returns (hn : n.Laid) (h : Tour n depth seen c st deeds)
    (hclean : ∀ d o, .chose d o ∈ deeds → ¬n.Returns d o) :
    (deeds.filterMap Deed.asks?).Pairwise fun d e => d.index < e.index := by
  induction h with
  | enter _ => exact List.Pairwise.nil
  | forget _ _ ih => exact ih hclean
  | @ask seen c c' st deeds m e h hst hround he ih =>
    have hclean' : ∀ d o, .chose d o ∈ deeds → ¬n.Returns d o := fun d o hmem =>
      hclean d o (List.mem_append_left _ hmem)
    obtain ⟨hmem, hline, -⟩ := Node.decisionAt?_some he
    have hle := (hround.turned hn (h.poised hn)).line_le
    -- whatever has been asked before has a smaller number than what is asked now
    have hlater : ∀ d ∈ deeds.filterMap Deed.asks?, d.index < e.index := by
      intro d hd
      obtain ⟨hmem', hstart, hnew⟩ := h.asks_before hn d hd
      by_contra hnot
      have hback := hn.start_le_of_index_le hmem hmem' (not_lt.mp hnot)
      -- a session that has come to a new line has asked nothing that starts there
      cases st with
      | arrived => exact absurd (hnew trivial) (by omega)
      | moved => exact absurd (hnew trivial) (by omega)
      | asking _ => cases hst
      | showing => cases hst
      | answered =>
        -- the last decision before is the one that has been answered
        cases h with
        | @choose seen₀ c₀ deeds d' way o h ho =>
          obtain ⟨before, hlast⟩ := h.asks_last
          have hreturns := hclean d' o (by simp)
          have hlt := h.asks_later hn ho hreturns hround he
          have hd : d ∈ before ++ [d'] := by
            rw [← hlast]
            simpa using hd
          have hsorted := ih hclean'
          rw [List.filterMap_append, hlast] at hsorted
          rcases List.mem_append.mp hd with hd | hd
          · have hpairwise := (List.pairwise_append.mp hsorted).1
            have := (List.pairwise_append.mp hpairwise).2.2 d hd d' (by simp)
            omega
          · obtain rfl := List.mem_singleton.mp hd
            omega
    simp only [List.filterMap_append, filterMap_asks?_leads, List.nil_append]
    refine List.pairwise_append.mpr ⟨ih hclean', List.pairwise_singleton _ _, ?_⟩
    intro d hd e' he'
    obtain rfl : e' = e := by simpa using he'
    exact hlater d hd
  | move _ _ _ _ _ ih | command _ _ _ _ _ ih | skip _ _ _ _ _ ih | present _ _ _ _ _ ih
  | choose _ _ ih =>
    simpa using ih fun d o hmem => hclean d o (List.mem_append_left _ hmem)
  | advance _ ih => exact ih hclean

/-- A choice is made only by the reader. -/
private theorem chose_not_mem_leads {d : Decision} {o : Choice} {line : Int} :
    Deed.chose d o ∉ c.leads line := by
  intro hmem
  cases (Cursor.mem_leads.mp hmem).2

/-- After a choice that returns, a decision is asked for a second time as soon as the session has
gone on. -/
theorem not_nodup_of_returns (hn : n.Laid) (h : Tour n depth seen c st deeds) {d : Decision}
    {o : Choice} (hchose : .chose d o ∈ deeds) (hreturns : n.Returns d o) :
    ¬(deeds.filterMap Deed.asks?).Nodup ∨
      st = .answered ∧ ∃ before, deeds = before ++ [.chose d o] := by
  -- a round either follows a repetition or asks a decision that has been asked before
  have hround {seen : List Visit} {c c' : Cursor} {st : Stance} {deeds : List Deed} {m : Motion}
      (h : Tour n depth seen c st deeds) (hround : n.Round depth seen c m c')
      (ih : ¬(deeds.filterMap Deed.asks?).Nodup ∨
        st = .answered ∧ ∃ before, deeds = before ++ [.chose d o]) :
      ¬(deeds.filterMap Deed.asks?).Nodup ∨
        ∃ e ∈ deeds.filterMap Deed.asks?, n.decisionAt? depth m.seen c' = some e := by
    rcases ih with hdup | ⟨rfl, before, hlast⟩
    · exact .inl hdup
    · cases h with
      | @choose seen c deeds' d' way o' h ho =>
        have hsame := (List.append_inj' hlast rfl).2
        obtain ⟨rfl, rfl⟩ := Deed.chose.inj (List.cons.inj hsame).1
        obtain ⟨e, hmem, he⟩ := h.asks_again hn ho hreturns hround
        exact .inr ⟨e, by simpa using hmem, he⟩
  -- so where nothing is asked, something had been asked twice before
  have honward {seen : List Visit} {c c' : Cursor} {st : Stance} {deeds : List Deed} {m : Motion}
      (h : Tour n depth seen c st deeds) (hround' : n.Round depth seen c m c')
      (hnone : n.decisionAt? depth m.seen c' = none)
      (ih : ¬(deeds.filterMap Deed.asks?).Nodup ∨
        st = .answered ∧ ∃ before, deeds = before ++ [.chose d o]) :
      ¬(deeds.filterMap Deed.asks?).Nodup := by
    rcases hround h hround' ih with hdup | ⟨e, -, he⟩
    · exact hdup
    · rw [hnone] at he
      cases he
  induction h with
  | enter _ => cases hchose
  | forget _ _ ih => exact (ih hchose).imp_right fun hst => by simp at hst
  | @ask seen c c' st deeds m e h hst hround' he ih =>
    have hmem : .chose d o ∈ deeds := by
      simpa [chose_not_mem_leads] using hchose
    refine .inl ?_
    simp only [List.filterMap_append, filterMap_asks?_leads, List.nil_append]
    rcases hround h hround' (ih hmem) with hdup | ⟨e', hasked, he'⟩
    · exact fun hnodup => hdup (List.nodup_append.mp hnodup).1
    · obtain rfl := Option.some.inj (he.symm.trans he')
      exact fun hnodup => (List.nodup_append.mp hnodup).2.2 e hasked e (by simp) rfl
  | move h _ hround' hnone _ ih | command h _ hround' hnone _ ih
  | skip h _ hround' hnone _ ih | present h _ hround' hnone _ ih =>
    have hdup := honward h hround' hnone (ih (by simpa [chose_not_mem_leads] using hchose))
    exact .inl (by simpa using hdup)
  | advance _ ih => exact (ih hchose).imp_right fun hst => by simp at hst
  | @choose seen c deeds d' way o' h ho ih =>
    rcases List.mem_append.mp hchose with hmem | hmem
    · refine .inl ?_
      rcases ih hmem with hdup | ⟨hst, -⟩
      · simpa using hdup
      · cases hst
    · obtain heq := List.mem_singleton.mp hmem
      exact .inr ⟨rfl, deeds, by rw [heq]⟩

/-- Unless an option has just been chosen, no decision has been asked twice exactly if no choice
has returned. -/
theorem asks_nodup_iff (hn : n.Laid) (h : Tour n depth seen c st deeds) (hst : st ≠ .answered) :
    (deeds.filterMap Deed.asks?).Nodup ↔ ∀ d o, .chose d o ∈ deeds → ¬n.Returns d o := by
  constructor
  · intro hnodup d o hchose hreturns
    rcases h.not_nodup_of_returns hn hchose hreturns with hdup | ⟨hanswered, -⟩
    · exact hdup hnodup
    · exact hst hanswered
  · intro hclean
    refine (h.asks_sorted_of_not_returns hn hclean).imp fun hlt heq => ?_
    rw [heq] at hlt
    exact lt_irrefl _ hlt

/-- Just before an option is chosen, the reader has to choose. -/
theorem asking_of_chose {d : Decision} {o : Choice} {before : List Deed}
    (h : Tour n depth seen c st (before ++ [.chose d o])) :
    ∃ seen' c', Tour n depth seen' c' (.asking d) before := by
  generalize hds : before ++ [Deed.chose d o] = ds at h
  -- on the tour: apart from a choice, no step that adds deeds ends with one
  induction h with
  | enter _ => simp at hds
  | forget _ _ ih => exact ih hds
  | ask _ _ _ _ _ | command _ _ _ _ _ _ | present _ _ _ _ _ _ =>
    rw [← List.append_assoc] at hds
    cases (List.append_inj' hds rfl).2
  | move _ _ _ _ _ ih | skip _ _ _ _ _ ih =>
    unfold Cursor.leads at hds
    split at hds
    · exact ih (by simpa using hds)
    · cases (List.append_inj' hds rfl).2
  | advance _ ih => exact ih hds
  | @choose seen c deeds d' way o' h _ _ =>
    obtain ⟨rfl, heq⟩ := List.append_inj' hds rfl
    obtain ⟨rfl, rfl⟩ := Deed.chose.inj (List.cons.inj heq).1
    exact ⟨seen, c, h⟩

/-- No decision has been asked twice exactly if no choice has returned, where the last deed does not
count. -/
theorem asks_nodup_iff_dropLast (hn : n.Laid) (h : Tour n depth seen c st deeds) :
    (deeds.filterMap Deed.asks?).Nodup ↔
      ∀ d o, .chose d o ∈ deeds.dropLast → ¬n.Returns d o := by
  rcases List.eq_nil_or_concat deeds with rfl | ⟨before, x, rfl⟩
  · simp
  rw [List.concat_eq_append] at h ⊢
  rw [List.dropLast_concat]
  -- a choice at the end has not been followed by a round that could ask again
  by_cases hx : ∃ d o, x = .chose d o
  · obtain ⟨d, o, rfl⟩ := hx
    obtain ⟨seen', c', hasking⟩ := h.asking_of_chose
    rw [List.filterMap_append, filterMap_asks?_chose, List.append_nil]
    exact hasking.asks_nodup_iff hn (by simp)
  · have hst : st ≠ .answered := by
      rintro rfl
      generalize hds : before ++ [x] = ds at h
      cases h with
      | @choose _ _ deeds d _ o h _ =>
        obtain ⟨-, heq⟩ := List.append_inj' hds rfl
        exact hx ⟨d, o, (List.cons.inj heq).1⟩
    rw [h.asks_nodup_iff hn hst]
    have hmem (d : Decision) (o : Choice) :
        Deed.chose d o ∈ before ++ [x] ↔ Deed.chose d o ∈ before := by
      rw [List.mem_append, List.mem_singleton]
      exact or_iff_left fun heq => hx ⟨d, o, heq.symm⟩
    simp only [hmem]

/-- As long as no decision has been asked twice, no more decisions have been asked than the node
has. -/
theorem length_asks_le (hn : n.Laid) (h : Tour n depth seen c st deeds)
    (hnodup : (deeds.filterMap Deed.asks?).Nodup) :
    (deeds.filterMap Deed.asks?).length ≤ n.decisions.length :=
  hnodup.length_le_of_subset fun d hd => (h.asks_before hn d hd).1

end Tour

end VisualNovel
