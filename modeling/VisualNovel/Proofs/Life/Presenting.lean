import VisualNovel.Proofs.Life.Answering
import VisualNovel.Proofs.Life.Typing
import VisualNovel.Proofs.Life.Unspoken

/-!
# Lines, their transcript and their completion

A session adds each line that it presents to its transcript, and it tells that the text of the line
is complete when it is. Between two moments of a session one of three things has happened: no line
has been presented, a line has been put on screen, or the text on screen has been revealed further.
What has been told stays in accordance with the transcript and with the text on screen throughout.

A line comes into the transcript before the time is known that its text takes. Where the settings
give no pace, so that this is no number, the line is in the transcript without having been
presented.

## Main definitions

* `Entry.Once`: between two lines a text is completed once at most;
* `Entry.Transcribed`: the transcript holds the lines that have been presented, and has done so
  whenever something was told;
* `Voiced`: what has been told is in accordance with a session;
* `Stage.Dwells`, `Stage.Presents`: no line has been presented, or one has.

## Main results

* `Voiced.silent`, `Voiced.puts`, `Voiced.reveals`, `Voiced.mutters`: this stays so;
* `Voiced.transcribed_iff`: where the settings give no pace, nothing in the transcript has been
  presented;
* `Act.step_presents`: a step presents a line of the innermost node, or none;
* `Request.prepare_dwells`: what is done at once for a request presents none.
-/

namespace VisualNovel

namespace Entry

/-- The line of which it is told that it is presented, if this is told. -/
def presented? : Entry → Option Spoken
  | told (.linePresented _ _ speaker text) _ => some ⟨speaker, text⟩
  | _ => none

/-- It is told that a text is complete. -/
def isCompletion : Entry → Bool
  | told .textCompleted _ => true
  | _ => false

/-- The lines of which it has been told that they are presented. -/
def spoken (log : List Entry) : List Spoken := log.filterMap presented?

/-- How often a text has been completed since a line was presented, when something further has been
noted. -/
def tally (k : Nat) (x : Entry) : Nat :=
  if x.presented?.isSome then 0 else if x.isCompletion then k + 1 else k

/-- How often a text has been completed since a line was presented last. -/
def completions (log : List Entry) : Nat := log.foldl tally 0

/-- Wherever no line is presented, a text is completed once at most. -/
def Once (log : List Entry) : Prop :=
  ∀ front middle back, log = front ++ middle ++ back → (∀ x ∈ middle, x.presented? = none) →
    middle.countP isCompletion ≤ 1

/-- A transcript holds the lines that have been presented so far, and so did the one of the session
whenever something was told. -/
def Transcribed (log : List Entry) (transcript : List Spoken) : Prop :=
  transcript = spoken log ∧ ∀ front e s back, log = front ++ told e s :: back →
    s.traversal.transcript = spoken (front ++ [told e s])

variable {log later : List Entry} {lines : List Spoken} {x : Entry}

theorem spoken_concat (log : List Entry) (x : Entry) :
    spoken (log ++ [x]) = spoken log ++ x.presented?.toList := by
  cases hx : x.presented? <;> simp [spoken, hx]

theorem completions_concat (log : List Entry) (x : Entry) :
    completions (log ++ [x]) = tally (completions log) x := by
  simp [completions]

namespace IsAside

variable (h : x.IsAside lines)

include h

/-- What is told aside is not that a line is presented. -/
theorem presented? : x.presented? = none := by
  cases x with
  | begins => cases h
  | told e s => cases e <;> first | rfl | cases h.1

/-- Nor is it that a text is complete. -/
theorem isCompletion : x.isCompletion = false := by
  cases x with
  | begins => cases h
  | told e s => cases e <;> first | rfl | cases h.1

end IsAside

/-- Where no line is presented, the completions add up. -/
theorem foldl_tally (k : Nat) (h : ∀ x ∈ log, x.presented? = none) :
    log.foldl tally k = k + log.countP Entry.isCompletion := by
  induction log generalizing k with
  | nil => rfl
  | cons x log ih =>
    rw [List.foldl_cons, ih _ fun y hy => h y (List.mem_cons_of_mem _ hy), List.countP_cons, tally,
      h x List.mem_cons_self]
    cases x.isCompletion with
    | true => simp only [Option.isSome_none, Bool.false_eq_true, if_false, if_true]; omega
    | false => simp

/-- What is told aside is not counted. -/
theorem completions_append_asides (h : ∀ x ∈ later, x.IsAside lines) :
    completions (log ++ later) = completions log := by
  have hnone : later.countP Entry.isCompletion = 0 :=
    List.countP_eq_zero.mpr fun x hx => by simp [(h x hx).isCompletion]
  rw [completions, List.foldl_append, foldl_tally _ fun x hx => (h x hx).presented?, hnone]
  rfl

theorem spoken_append_asides (h : ∀ x ∈ later, x.IsAside lines) :
    spoken (log ++ later) = spoken log := by
  have hnone : later.filterMap Entry.presented? = [] :=
    List.filterMap_eq_nil_iff.mpr fun x hx => (h x hx).presented?
  rw [spoken, List.filterMap_append, hnone, List.append_nil, spoken]

/-- A text is completed once at most if this is so up to each moment, counted from the line that has
been presented last. -/
theorem once_of_completions_le (h : ∀ front, front <+: log → completions front ≤ 1) : Once log := by
  rintro front middle back rfl hmiddle
  have hle := h (front ++ middle) (List.prefix_append _ _)
  rw [completions, List.foldl_append, foldl_tally _ hmiddle] at hle
  omega

namespace Transcribed

theorem concat (h : Transcribed log lines) {lines' : List Spoken}
    (hlines : lines' = spoken (log ++ [x]))
    (hx : ∀ e s, x = told e s → s.traversal.transcript = lines') :
    Transcribed (log ++ [x]) lines' := by
  refine ⟨hlines, forall_told_concat h.2 ?_⟩
  rintro e s rfl
  rw [hx e s rfl, hlines]

theorem append_asides (h : Transcribed log lines) (hlater : ∀ x ∈ later, x.IsAside lines) :
    Transcribed (log ++ later) lines := by
  induction later generalizing log with
  | nil => rwa [List.append_nil]
  | cons x later ih =>
    have hx := hlater x List.mem_cons_self
    rw [← List.singleton_append, ← List.append_assoc]
    refine ih (h.concat ?_ ?_) fun y hy => hlater y (List.mem_cons_of_mem _ hy)
    · rw [spoken_concat, hx.presented?, Option.toList_none, List.append_nil]
      exact h.1
    · rintro e s rfl
      exact hx.2

end Transcribed

end Entry

open Entry

/-- The settings give a pace at which texts are revealed. -/
def Settings.Paced (settings : Settings) : Prop :=
  ∃ pace, settings.secondsPerCharacter = .ok pace

/-- A session that presents a line is tidy. -/
theorem Session.tidy_of_presenting {s : Session} (h : s.phase = .presenting) : s.Tidy := by
  intro hawaits
  simp [Awaits, h] at hawaits

namespace Stage

/-- A line of a node has been put on screen at the cursor, where it is not yet complete, and this
has been told. -/
structure Puts (name : String) (st st' : Stage (List Entry)) : Prop where
  paced : st.session.settings.Paced
  settings : st'.session.settings = st.session.settings
  unrecorded : st'.session.unrecorded = none
  revealed? : st'.session.revealed? = some false
  tidy : st'.session.Tidy
  told : ∃ speaker text, st'.host = st.host ++ [told
      (.linePresented name st'.session.traversal.cursor.line speaker text) st'.session] ∧
    st'.session.traversal.transcript = st.session.traversal.transcript ++ [⟨speaker, text⟩]

/-- At most the text on screen has been revealed further, and it has been told if it is complete
since then. -/
structure Reveals (st st' : Stage (List Entry)) : Prop where
  traversal : st'.session.traversal = st.session.traversal
  settings : st'.session.settings = st.session.settings
  unrecorded : st'.session.unrecorded = st.session.unrecorded
  tidy : st.session.Tidy → st'.session.Tidy
  told : st'.host = st.host ∧ st'.session.revealed? = st.session.revealed? ∨
    st.session.revealed? = some false ∧ st'.session.revealed? = some true ∧
      ∃ s, st'.host = st.host ++ [told .textCompleted s] ∧ s.traversal = st.session.traversal

/-- A line has been added to the transcript, but its text would take a time that is no number, so
that nothing has been told. -/
structure Mutters (st st' : Stage (List Entry)) : Prop where
  unpaced : ¬st.session.settings.Paced
  settings : st'.session.settings = st.session.settings
  unrecorded : st'.session.unrecorded = none
  typewriter : st.session.typewriter = none → st'.session.typewriter = none
  tidy : st'.session.Tidy
  host : st'.host = st.host
  transcript : st.session.traversal.transcript <+: st'.session.traversal.transcript

end Stage

/-- What has been told is in accordance with the transcript of a session and its text on screen. -/
structure Voiced (settings : Settings) (log : List Entry) (s : Session) : Prop where
  kept : s.settings = settings
  unrecorded : s.unrecorded = none
  tidy : s.Tidy
  transcribed : settings.Paced → Transcribed log s.traversal.transcript
  /-- Without a pace nothing is ever presented. -/
  wordless : ¬settings.Paced → spoken log = [] ∧ s.typewriter = none
  grows : ∀ e s', told e s' ∈ log → s'.traversal.transcript <+: s.traversal.transcript
  once : ∀ front, front <+: log → completions front ≤ 1
  counted : ∀ b, s.revealed? = some b → completions log = b.toNat

namespace Voiced

variable {settings : Settings} {st st' : Stage (List Entry)}

/-- A session that begins has told nothing. -/
theorem fresh (settings : Settings) (vars : Variables) : Voiced settings [] { settings, vars } where
  kept := rfl
  unrecorded := rfl
  tidy _ := rfl
  transcribed _ := ⟨rfl, by simp⟩
  wordless _ := ⟨rfl, rfl⟩
  grows := by simp
  once front h := by
    obtain rfl := List.prefix_nil.mp h
    exact Nat.zero_le 1
  counted b h := by cases h

/-- What is done silently is in accordance with what has been told. -/
theorem silent (h : Voiced settings st.host st.session) (h' : st.Silent st') :
    Voiced settings st'.host st'.session := by
  obtain ⟨⟨htranscript, hsettings, hunrecorded, htypewriter, htidy⟩, log, hhost, hlog⟩ := h'
  -- what is told aside adds neither a line nor a completion
  have hcompletions : completions st'.host = completions st.host := by
    rw [hhost, completions_append_asides hlog]
  refine ⟨hsettings.trans h.kept, hunrecorded.trans h.unrecorded, htidy h.tidy, ?_, ?_, ?_, ?_,
    ?_⟩
  · rw [htranscript, hhost]
    exact fun hpaced => (h.transcribed hpaced).append_asides hlog
  · rw [hhost, spoken_append_asides hlog]
    intro hunpaced
    obtain ⟨hspoken, hnone⟩ := h.wordless hunpaced
    refine ⟨hspoken, ?_⟩
    rcases htypewriter with hsame | hoff
    · rw [hsame, hnone]
    · exact hoff
  · intro e s he
    rw [htranscript]
    rw [hhost] at he
    rcases List.mem_append.mp he with he | he
    · exact h.grows e s he
    · exact (hlog _ he).2 ▸ List.prefix_refl _
  · intro front hfront
    obtain ⟨back, hback⟩ := hfront
    rcases List.append_eq_append_iff.mp (hback.trans hhost) with ⟨as, hfront, -⟩ | ⟨as, rfl, has⟩
    · exact h.once front ⟨as, hfront.symm⟩
    · rw [completions_append_asides fun x hx => hlog x (has ▸ List.mem_append_left _ hx)]
      exact h.once _ (List.prefix_refl _)
  · -- a text that is still on screen has been there before
    intro b hb
    rw [hcompletions]
    refine h.counted b ?_
    rcases htypewriter with hsame | hoff
    · rw [← hb, Session.revealed?, Session.revealed?, hsame]
    · simp [Session.revealed?, hoff] at hb

/-- Where there is a pace, it may be told of a line that comes into the transcript, or that a text
is complete, provided that the completions still agree with the text on screen. -/
theorem tells {s : Session} {e : Event} (h : Voiced settings st.host st.session)
    (hpaced : settings.Paced) (hsettings : st'.session.settings = st.session.settings)
    (hunrecorded : st'.session.unrecorded = none) (htidy : st'.session.Tidy)
    (hhost : st'.host = st.host ++ [told e s])
    (hs : s.traversal = st'.session.traversal)
    (htranscript : st'.session.traversal.transcript =
      st.session.traversal.transcript ++ (told e s).presented?.toList)
    (hcounted : ∃ b, st'.session.revealed? = some b ∧ completions st'.host = b.toNat) :
    Voiced settings st'.host st'.session := by
  obtain ⟨b, hb, hcompletions⟩ := hcounted
  have htold := h.transcribed hpaced
  refine ⟨hsettings.trans h.kept, hunrecorded, htidy, fun _ => ?_,
    fun hunpaced => absurd hpaced hunpaced, ?_, ?_, ?_⟩
  · rw [hhost]
    refine htold.concat ?_ ?_
    · rw [htranscript, htold.1, spoken_concat]
    · rintro e' s' heq
      obtain ⟨-, rfl⟩ := Entry.told.inj heq
      rw [hs]
  · intro e' s' he
    rw [hhost] at he
    rcases List.mem_append.mp he with he | he
    · rw [htranscript]
      exact (h.grows e' s' he).trans (List.prefix_append _ _)
    · obtain ⟨-, rfl⟩ := Entry.told.inj (List.mem_singleton.mp he)
      exact hs ▸ List.prefix_refl _
  · -- one more entry leaves the number of completions small, if it does so in the end
    intro front hfront
    rw [hhost] at hfront
    rcases List.prefix_concat_iff.mp hfront with rfl | hfront
    · rw [← hhost, hcompletions]
      exact b.toNat_le
    · exact h.once front hfront
  · intro b' hb'
    obtain rfl := Option.some.inj (hb.symm.trans hb')
    exact hcompletions

/-- A line that is put on screen is in accordance with what has been told, since it begins without
a completion. -/
theorem puts {name : String} (h : Voiced settings st.host st.session) (h' : st.Puts name st') :
    Voiced settings st'.host st'.session := by
  obtain ⟨speaker, text, hhost, htranscript⟩ := h'.told
  refine h.tells (h.kept ▸ h'.paced) h'.settings h'.unrecorded h'.tidy hhost rfl htranscript
    ⟨false, h'.revealed?, ?_⟩
  rw [hhost, completions_concat]
  rfl

/-- So is a text that is revealed further. -/
theorem reveals (h : Voiced settings st.host st.session) (h' : st.Reveals st') :
    Voiced settings st'.host st'.session := by
  have hunrecorded := h'.unrecorded.trans h.unrecorded
  rcases h'.told with ⟨hhost, hrevealed⟩ | ⟨hbefore, hafter, s, hhost, hs⟩
  · refine ⟨h'.settings.trans h.kept, hunrecorded, h'.tidy h.tidy, ?_, ?_, ?_, ?_, ?_⟩
    · rw [h'.traversal, hhost]
      exact h.transcribed
    · rw [hhost]
      intro hunpaced
      obtain ⟨hspoken, hnone⟩ := h.wordless hunpaced
      refine ⟨hspoken, ?_⟩
      simpa [Session.revealed?, hnone] using hrevealed
    · rw [h'.traversal, hhost]
      exact h.grows
    · rw [hhost]
      exact h.once
    · rw [hrevealed, hhost]
      exact h.counted
  · -- a text has been on screen, so there is a pace
    have hpaced : settings.Paced := by
      by_contra hunpaced
      simp [Session.revealed?, (h.wordless hunpaced).2] at hbefore
    refine h.tells hpaced h'.settings hunrecorded (h'.tidy h.tidy) hhost
      (hs.trans h'.traversal.symm) ?_ ⟨true, hafter, ?_⟩
    · rw [h'.traversal]
      exact (List.append_nil _).symm
    · -- the text has not been complete, so that it has not been told before that it is
      rw [hhost, completions_concat, h.counted false hbefore]
      rfl

/-- So is a line that is only added to the transcript, since nothing is ever presented then. -/
theorem mutters (h : Voiced settings st.host st.session) (h' : st.Mutters st') :
    Voiced settings st'.host st'.session := by
  have hunpaced := h.kept ▸ h'.unpaced
  obtain ⟨hspoken, hnone⟩ := h.wordless hunpaced
  refine ⟨h'.settings.trans h.kept, h'.unrecorded, h'.tidy,
    fun hpaced => absurd hpaced hunpaced, fun _ => ?_, ?_, ?_, ?_⟩
  · exact ⟨by rw [h'.host, hspoken], h'.typewriter hnone⟩
  · rw [h'.host]
    exact fun e s he => (h.grows e s he).trans h'.transcript
  · rw [h'.host]
    exact h.once
  · intro b hb
    simp [Session.revealed?, h'.typewriter hnone] at hb

/-- The transcript holds what has been presented exactly if the settings give a pace, or if nothing
is in it. -/
theorem transcribed_iff {log : List Entry} {s : Session} (h : Voiced settings log s) :
    Transcribed log s.traversal.transcript ↔ settings.Paced ∨ s.traversal.transcript = [] := by
  by_cases hpaced : settings.Paced
  · exact iff_of_true (h.transcribed hpaced) (.inl hpaced)
  obtain ⟨hspoken, -⟩ := h.wordless hpaced
  constructor
  · intro htold
    exact .inr (htold.1.trans hspoken)
  · rintro (hpaced' | hempty)
    · exact absurd hpaced' hpaced
    · -- the transcript has only grown, so it has been empty all the time
      refine ⟨hempty.trans hspoken.symm, fun front e s' back heq => ?_⟩
      have hgrows := h.grows e s' (by simp [heq])
      rw [hempty, List.prefix_nil] at hgrows
      have hfront : spoken (front ++ [told e s']) <+: spoken log :=
        List.IsPrefix.filterMap _ ⟨back, by simp [heq]⟩
      rw [hspoken, List.prefix_nil] at hfront
      rw [hgrows, hfront]

end Voiced

namespace Stage

namespace Reveals

variable {st st₁ st₂ : Stage (List Entry)}

theorem refl (st : Stage (List Entry)) : st.Reveals st := ⟨rfl, rfl, rfl, id, .inl ⟨rfl, rfl⟩⟩

/-- What follows may leave the session alone and tell nothing. -/
theorem trans_same (h : st.Reveals st₁) (hsession : st₂.session = st₁.session)
    (hhost : st₂.host = st₁.host) : st.Reveals st₂ := by
  obtain ⟨htraversal, hsettings, hunrecorded, htidy, htold⟩ := h
  rw [← hsession] at htraversal hsettings hunrecorded htidy htold
  rw [← hhost] at htold
  exact ⟨htraversal, hsettings, hunrecorded, htidy, htold⟩

end Reveals

/-- No line has been presented: what has been done has been silent, and then at most the text on
screen has been revealed further. -/
def Dwells (st st' : Stage (List Entry)) : Prop := ∃ st₁, st.Silent st₁ ∧ st₁.Reveals st'

/-- A line of a node has been presented, and nothing else behind it than that its text is
complete. -/
def Presents (name : String) (st st' : Stage (List Entry)) : Prop :=
  ∃ st₁ st₂, st.Silent st₁ ∧ st₁.Puts name st₂ ∧ st₂.Reveals st'

variable {st st₁ st₂ : Stage (List Entry)}

theorem Silent.dwells (h : st.Silent st₁) : st.Dwells st₁ := ⟨st₁, h, .refl st₁⟩

theorem Reveals.dwells (h : st.Reveals st₁) : st.Dwells st₁ := ⟨st, .refl st, h⟩

/-- Something silent may come first. -/
theorem Presents.of_silent {name : String} (h : st.Silent st₁) (h' : st₁.Presents name st₂) :
    st.Presents name st₂ := by
  obtain ⟨st₃, st₄, hsilent, hputs, hreveals⟩ := h'
  exact ⟨st₃, st₄, h.trans hsilent, hputs, hreveals⟩

end Stage

namespace Act

variable {st : Stage (List Entry)} {E : Failure → Stage (List Entry) → Prop}

/-- Showing a text tells nothing. -/
theorem refresh_same :
    Ends refresh st (fun _ st' => st'.session = st.session ∧ st'.host = st.host) E := by
  unfold refresh
  cases hw : st.session.typewriter with
  | none => simp [hw]
  | some w => simp [hw]

/-- A text that has not been complete is typed, and it is told if it is complete by then. -/
theorem reveals_of_typed {w : Typewriter} (hw : st.session.typewriter = some w)
    (hc : w.complete = false) (w' : Typewriter) :
    st.Reveals (if w'.complete then scribe.react .textCompleted { st with
        session := { st.session with typewriter := some w', autoTimer := 0 } }
      else { st with session := { st.session with typewriter := some w' } }) := by
  have htidy : st.session.Tidy → Session.Tidy { st.session with typewriter := some w' } := by
    intro htidy hawaits
    cases hw.symm.trans (htidy hawaits)
  have hbefore : st.session.revealed? = some false := by simp [Session.revealed?, hw, hc]
  split
  · next hc' =>
    refine ⟨rfl, rfl, rfl, htidy, .inr ⟨hbefore, ?_, _, rfl, rfl⟩⟩
    simp [Session.revealed?, hc']
  · next hc' =>
    refine ⟨rfl, rfl, rfl, htidy, .inl ⟨rfl, ?_⟩⟩
    rw [hbefore]
    simpa [Session.revealed?] using hc'

/-- What reveals a text may be followed by showing it. -/
theorem refresh_reveals {st₁ : Stage (List Entry)} (h : st.Reveals st₁) :
    Ends refresh st₁ (fun _ st' => st.Reveals st') E :=
  refresh_same.imp (fun _ _ ⟨hsession, hhost⟩ => h.trans_same hsession hhost) fun _ _ hf => hf

theorem completeText_reveals :
    Ends (completeText scribe.hear) st (fun _ st' => st.Reveals st') E := by
  unfold completeText
  cases hw : st.session.typewriter with
  | none => simpa [hw] using Stage.Reveals.refl st
  | some w =>
    cases hc : w.complete with
    | true => simpa [hw, hc] using Stage.Reveals.refl st
    | false =>
      simpa [hw, hc, tellCompletion, Typewriter.complete_writeAll] using
        reveals_of_typed hw hc w.writeAll

theorem showWhole_reveals :
    Ends (showWhole scribe.hear) st (fun _ st' => st.Reveals st') E := by
  unfold showWhole
  rw [ends_bind, ends_session]
  split
  · exact .refl st
  · split
    · rw [ends_bind]
      exact completeText_reveals.imp (fun _ _ h => refresh_reveals h) fun _ _ hf => hf
    · exact .refl st

theorem type_reveals {w : Typewriter} (hw : st.session.typewriter = some w)
    (hc : w.complete = false) (dt : Float) :
    Ends (type scribe.hear w dt) st (fun _ st' => st.Reveals st') E := by
  have htyped := reveals_of_typed hw hc (w.tick dt)
  unfold type
  rw [ends_bind, ends_edit]
  split
  · next hc' =>
    rw [if_pos hc'] at htyped
    exact refresh_reveals htyped
  · next hc' =>
    rw [if_neg hc'] at htyped
    exact refresh_reveals htyped

/-- A line that is not in the transcript already is added to it. -/
theorem record_new {line : Spoken} (hnew : st.session.unrecorded = none)
    {Q : Unit → Stage (List Entry) → Prop} :
    Ends (record line) st Q E ↔ Q () { st with session := { st.session with
      traversal := { st.session.traversal with
        transcript := st.session.traversal.transcript ++ [line] }
      unrecorded := none } } := by
  simp [record, hnew]

/-- A line that is put on screen is presented, or it is only added to the transcript. -/
theorem present_presents (n : Node) (line : Spoken) (hnew : st.session.unrecorded = none) :
    Ends (present scribe.hear n line) st (fun _ st' => st.Presents n.name st')
      fun _ st' => ∃ st₁, st.Silent st₁ ∧ st₁.Mutters st' := by
  unfold present
  simp only [ends_bind, ends_session]
  have hturn : Ends (turnTo line.speaker) st (fun _ st' => st.Follows st' st.session)
      fun _ _ => False := turnTo_ends fun _ h => h
  refine (hturn.and (silent_turnTo line.speaker st)).imp ?_ fun _ _ h => h.1.elim
  rintro _ st₁ ⟨hfollows, hsilent⟩
  -- whoever speaks, the session is still at its line
  have hcursor : st.session.traversal.cursor = st₁.session.traversal.cursor := by
    obtain ⟨_, _, _, _, _, hs⟩ := hfollows.session
    rw [hs]
  rw [record_new (hsilent.session.unrecorded.trans hnew), hcursor]
  simp only [ends_edit, ends_ofExcept, Session.modifyNode]
  cases hp : st₁.session.settings.secondsPerCharacter with
  | error f =>
    refine ⟨st₁, hsilent, ?_, rfl, rfl, id, Session.tidy_of_presenting rfl, rfl,
      List.prefix_append _ _⟩
    simp [Settings.Paced, hp]
  | ok pace =>
    simp only [ends_ask, ends_hear]
    generalize hst₂ : scribe.react (.linePresented n.name _ _ _) _ = st₂
    have hputs : st₁.Puts n.name st₂ := by
      rw [← hst₂]
      refine ⟨⟨pace, hp⟩, ?_, ?_, ?_, Session.tidy_of_presenting ?_, line.speaker,
        st.session.wording line.text, ?_, ?_⟩
      all_goals simp [scribe, Session.revealed?, Typewriter.start]
    have hpresents {st' : Stage (List Entry)} (h : st₂.Reveals st') : st.Presents n.name st' :=
      ⟨st₁, st₂, hsilent, hputs, h⟩
    split
    · rw [ends_bind]
      refine completeText_reveals.imp (fun _ st₃ h₃ => ?_) fun _ _ hf => hf
      exact (refresh_reveals h₃).imp (fun _ _ h => hpresents h) fun _ _ hf => hf
    · exact (refresh_reveals (.refl st₂)).imp (fun _ _ h => hpresents h) fun _ _ hf => hf

/-- A step that is not silent comes to a rest with a line of the innermost node, which it presents
or at least adds to the transcript. -/
theorem step_presents (hnew : st.session.unrecorded = none) (era : Nat) :
    Ends (step scribe.hear era) st
      (fun goesOn st' => st.Silent st' ∨
        goesOn = false ∧ ∃ n, st.session.node = some n ∧ st.Presents n.name st')
      fun _ st' => st.Silent st' ∨ ∃ st₁, st.Silent st₁ ∧ st₁.Mutters st' := by
  refine step_rule (fun _ => .inl (.refl st)) (fun _ _ _ _ => ?_) fun n _ hn _ => ?_
  · exact (silent_finishNode st).imp (fun _ _ h => .inl h) fun _ _ h => .inl h
  refine (silent_passConditionals n st).imp (fun _ st₁ h₁ => ?_) fun _ _ h => .inl h
  refine (silent_passDecisions n st₁).imp (fun asked st₂ h₂ => ?_) fun _ _ h => .inl (h₁.trans h)
  have h₂ := h₁.trans h₂
  cases asked with
  | true => exact .inl h₂
  | false =>
  refine ⟨fun _ => .inl h₂, fun _ _ => .inl h₂, fun text _ _ => ?_⟩
  unfold takeLine
  -- what is no command and not blank is put on screen
  split
  · have hcommand : Leaves Stage.Silent (do
        edit fun s => s.modifyTraversalOf era fun t => { t with history := t.history ++ [text] }
        nextLine era
        let _ ← dispatch scribe.hear (goTo scribe.hear) text false
        return true : Act (List Entry) Bool) :=
      silent_bind (silent_modifyTraversalOf era fun _ => rfl) fun _ =>
        silent_bind (silent_nextLine era) fun _ => silent_bind (silent_dispatch text) fun _ =>
        silent_pure true
    exact (hcommand st₂).imp (fun _ _ h => .inl (h₂.trans h)) fun _ _ h => .inl (h₂.trans h)
  dsimp only
  split
  · rw [ends_bind]
    exact (silent_nextLine era st₂).imp (fun _ _ h => .inl (h₂.trans h)) fun _ _ h =>
      .inl (h₂.trans h)
  · rw [ends_bind]
    refine (present_presents n _ (h₂.session.unrecorded.trans hnew)).imp (fun _ st₃ h₃ => ?_) ?_
    · exact .inr ⟨rfl, n, hn, h₃.of_silent h₂⟩
    · rintro _ st₃ ⟨st₄, hsilent, hmutters⟩
      exact .inr ⟨st₄, h₂.trans hsilent, hmutters⟩

end Act

namespace Request

open Act

variable {st : Stage (List Entry)}

/-- What is done at once presents no line. -/
theorem prepare_dwells (r : Request) : LeavesFrom Stage.Dwells st (r.prepare scribe.hear) := by
  have hsilent {α : Type} {x : Act (List Entry) α} (hx : Leaves Stage.Silent x) :
      LeavesFrom Stage.Dwells st x :=
    (hx st).imp (fun _ _ h => h.dwells) fun _ _ h => h.dwells
  -- only going on, time and fast forward bring a text to its end; the others are silent
  cases r with
  | findNode node context =>
    refine hsilent (silent_bind (silent_openNode _ _) fun opened => ?_)
    split <;> exact silent_pure _
  | input i =>
    cases i with
    | start node context =>
      refine hsilent (silent_bind (silent_edit fun _ => ⟨rfl, rfl, rfl, .inr rfl, fun _ _ => rfl⟩)
        fun _ => silent_bind (silent_openNode _ _) fun opened => ?_)
      split
      · exact silent_pure _
      · exact silent_bind silent_endSession fun _ => silent_pure _
    | advance =>
      simp only [prepare, Input.prepare, LeavesFrom, ends_bind, ends_session]
      split
      · next w hphase hw =>
        split
        · exact hsilent (silent_bind (silent_setMode _) fun _ => silent_pure _)
        · split
          · exact hsilent silent_leaveLine
          · rw [ends_bind]
            exact showWhole_reveals.imp (fun _ _ h => h.dwells) fun _ _ h => h
      · exact (Stage.Silent.refl st).dwells
    | update dt =>
      simp only [prepare, Input.prepare, LeavesFrom, ends_bind, ends_session]
      split
      · next w hphase hw =>
        split
        · exact hsilent (silent_waitOut dt)
        · next hc =>
          rw [ends_bind]
          exact (type_reveals hw (by simpa using hc) dt).imp (fun _ _ h => h.dwells) fun _ _ h => h
      · exact (Stage.Silent.refl st).dwells
    | decide index => exact hsilent (silent_takeOption index)
    | toggleAuto =>
      exact hsilent (silent_bind (silent_bind silent_session fun _ => silent_setMode _) fun _ =>
        silent_pure _)
    | toggleFastForward =>
      simp only [prepare, Input.prepare, toggleFastForward, LeavesFrom, ends_bind, ends_session,
        ends_ite]
      split
      · exact (silent_setMode _ st).imp (fun _ _ h => h.dwells) fun _ _ h => h.dwells
      · -- the mode is set first, so the text is revealed on a stage that is one silent act away
        refine (silent_setMode _ st).imp (fun _ st₁ h₁ => ?_) fun _ _ h => h.dwells
        exact showWhole_reveals.imp (fun _ _ h => ⟨st₁, h₁, h⟩) fun _ _ h => h
    | pause => exact hsilent (silent_bind silent_pause fun _ => silent_pure _)
    | resume => exact hsilent (silent_bind silent_resume fun _ => silent_pure _)

end Request

end VisualNovel
