import VisualNovel.Proofs.Typewriter.Rendering

/-!
# What takes time while a text is typed

A text consists of tags and of characters outside them. The characters are hidden one by one until
they are revealed, and so each of them should take the time of a character when it is its turn. The
rounds of a typewriter keep to this but for the opening bracket of a tag that is never closed: it is
hidden like any other character, and it is revealed in no time.

## Main definitions

* `Typewriter.Piece`, `Typewriter.pieces`: the tags of a text and the characters outside them;
* `Typewriter.unclosed`: the number of opening brackets that start no tag;
* `Typewriter.Clocked`, `Typewriter.clocked`: a typewriter that counts the rounds that take time.

## Main results

* `Typewriter.visible_pieces`: which characters are hidden before anything is revealed;
* `Typewriter.clocked_writer`: to count the rounds makes no difference to the typewriter;
* `Typewriter.clocked_timed`: what takes time is what is no longer left to reveal;
* `Typewriter.timed_add_unclosed`: how many rounds take time until a text is complete.
-/

namespace VisualNovel.Typewriter

open Text

variable {w : Typewriter} {c : Char} {s v : List Char} {n : Nat}

/-! ### Tags and characters -/

/-- A part of a text as it is scanned. -/
inductive Piece where
  /-- A tag, with what stands between its brackets. -/
  | tag (inner : List Char)
  /-- A character outside tags. -/
  | char (c : Char)
  deriving DecidableEq, Repr

namespace Piece

/-- The text of a piece. -/
def text : Piece → List Char
  | tag inner => '<' :: (inner ++ ['>'])
  | char c => [c]

/-- A piece as it is shown before it is revealed. -/
def shown : Piece → List Char
  | tag inner => '<' :: (inner ++ ['>'])
  | char c => hide c

/-- The piece is hidden before it is revealed. -/
def isHidden : Piece → Bool
  | tag _ => false
  | char _ => true

/-- The piece takes time when it is revealed. -/
def isTimed : Piece → Bool
  | tag _ => false
  | char c => c ≠ '<'

end Piece

/-- The pieces of a text. The first argument counts the characters of a tag that are still to be
passed. -/
def piecesFrom : Nat → List Char → List Piece
  | _, [] => []
  | k + 1, _ :: s => piecesFrom k s
  | 0, c :: s =>
    if c = '<' then match tagLength? s with
      | some n => .tag (s.take (n - 1)) :: piecesFrom n s
      | none => .char c :: piecesFrom 0 s
    else .char c :: piecesFrom 0 s

/-- The tags of a text and the characters outside them. -/
def pieces (s : List Char) : List Piece := piecesFrom 0 s

theorem piecesFrom_eq (k : Nat) (s : List Char) : piecesFrom k s = pieces (s.drop k) := by
  induction k generalizing s with
  | zero => rfl
  | succ k ih =>
    cases s with
    | nil => rfl
    | cons c s => exact ih s

theorem pieces_tag (hv : '>' ∉ v) (s : List Char) :
    pieces ('<' :: (v ++ '>' :: s)) = .tag v :: pieces s := by
  rw [pieces, piecesFrom, if_pos rfl, tagLength?_eq, breakAt_append hv]
  simp only [Option.map_some]
  rw [piecesFrom_eq, List.drop_length_add_append, Nat.add_sub_cancel, List.take_left]
  rfl

theorem pieces_char (hc : c = '<' → '>' ∉ s) : pieces (c :: s) = .char c :: pieces s := by
  rw [pieces, piecesFrom]
  split
  · next h => rw [tagLength?_eq, breakAt_eq_none_iff.mpr (hc h)]; rfl
  · rfl

/-- A text is what its pieces are put together to. -/
theorem flatMap_text_pieces (s : List Char) : (pieces s).flatMap Piece.text = s := by
  induction s using scan_induction with
  | nil => rfl
  | tag v s hv ih => simp [pieces_tag hv, Piece.text, ih]
  | char c s hc ih => simp [pieces_char hc, Piece.text, ih]

/-- Before anything is revealed, every character outside tags is hidden. -/
theorem visible_pieces (s : List Char) : visible s 0 = (pieces s).flatMap Piece.shown := by
  suffices h : hidden 0 s = (pieces s).flatMap Piece.shown from h
  induction s using scan_induction with
  | nil => rfl
  | tag v s hv ih => simp [hidden_tag hv, pieces_tag hv, Piece.shown, ih]
  | char c s hc ih => simp [hidden_char hc, pieces_char hc, Piece.shown, ih]

/-! ### Brackets that start no tag -/

/-- The number of opening brackets behind which none is closed. -/
def unclosed : List Char → Nat
  | [] => 0
  | c :: s => unclosed s + if c = '<' ∧ '>' ∉ s then 1 else 0

/-- Nothing in front of a closing bracket counts. -/
theorem unclosed_append (s t : List Char) : unclosed (s ++ '>' :: t) = unclosed t := by
  induction s with
  | nil => simp [unclosed]
  | cons c s ih => simp [unclosed, ih]

/-- What takes no time although it is hidden are the opening brackets that start no tag. -/
theorem countP_pieces (s : List Char) :
    (pieces s).countP Piece.isTimed + unclosed s = (pieces s).countP Piece.isHidden := by
  induction s using scan_induction with
  | nil => rfl
  | tag v s hv ih =>
    have hcons : '<' :: (v ++ '>' :: s) = ('<' :: v) ++ '>' :: s := rfl
    rw [pieces_tag hv, hcons, unclosed_append]
    simpa [Piece.isTimed, Piece.isHidden] using ih
  | char c s hc ih =>
    rw [pieces_char hc, unclosed, List.countP_cons_of_pos (show Piece.isHidden (.char c) from rfl),
      List.countP_cons]
    by_cases h : c = '<'
    · have htimed : ¬(Piece.char c).isTimed = true := by simp [Piece.isTimed, h]
      have hopen : c = '<' ∧ '>' ∉ s := ⟨h, hc h⟩
      rw [if_neg htimed, if_pos hopen]
      omega
    · have htimed : (Piece.char c).isTimed = true := decide_eq_true h
      have hopen : ¬(c = '<' ∧ '>' ∉ s) := fun hopen => h hopen.1
      rw [if_pos htimed, if_neg hopen]
      omega

/-! ### Rounds that take time -/

/-- The next round takes time: it is at a character that is no opening bracket. -/
def takesTime (w : Typewriter) : Bool := (w.text.toList.drop w.revealed).head?.any (· ≠ '<')

/-- A round that takes time adds the time of a character to the timer, and no other one does. -/
theorem timer_round (w : Typewriter) :
    w.round.timer = if w.takesTime then w.timer + w.pace else w.timer := by
  rw [round, takesTime]
  cases w.text.toList.drop w.revealed with
  | nil => rfl
  | cons c s => by_cases hc : c = '<' <;> simp [hc]

/-- How many rounds will take time until all is revealed. -/
def left (w : Typewriter) : Nat := (pieces (w.text.toList.drop w.revealed)).countP Piece.isTimed

/-- A round reveals a piece, which is not left any more. -/
theorem left_round (w : Typewriter) : w.round.left + w.takesTime.toNat = w.left := by
  cases hs : w.text.toList.drop w.revealed with
  | nil =>
    have hround : w.round = { w with complete := true } := by rw [round, hs]
    simp [left, takesTime, hround, hs, pieces, piecesFrom]
  | cons c s =>
    have hrest : w.round.text.toList.drop w.round.revealed = (c :: s).drop (stride (c :: s)) := by
      rw [round_eq hs, ← hs, List.drop_drop]
    rw [left, left, takesTime, hrest, hs]
    rcases tag_or_char c s with ⟨v, rest, rfl, rfl, hv⟩ | hc
    · have hdrop := Arrives.drop_tag v rest 0
      rw [stride_tag hv, pieces_tag hv, ← Nat.add_zero (v.length + 2), hdrop]
      simp [Piece.isTimed]
    · rw [stride_char hc, pieces_char hc]
      by_cases h : c = '<' <;> simp [Piece.isTimed, h]

/-- A typewriter, and how many of its rounds have taken time. -/
structure Clocked where
  /-- The typewriter. -/
  writer : Typewriter
  /-- The number of rounds that have taken time. -/
  timed : Nat
  deriving DecidableEq, Repr

instance (w : Typewriter) : Decidable w.Runs := inferInstanceAs (Decidable (_ ∧ _))

/-- The rounds of a typewriter while there is time, of which there is a greatest number. -/
def work : Nat → Typewriter → Clocked
  | 0, w => ⟨w, 0⟩
  | k + 1, w =>
    if w.Runs then
      let x := work k w.round
      ⟨x.writer, x.timed + w.takesTime.toNat⟩
    else ⟨w, 0⟩

/-- Rounds that come to an end are all there are. -/
theorem work_writer {k : Nat} {w' : Typewriter} (hk : k ≤ n) (hrounds : round^[k] w = w')
    (hruns : ∀ i < k, (round^[i] w).Runs) (hrests : ¬w'.Runs) : (work n w).writer = w' := by
  induction n generalizing k w with
  | zero =>
    obtain rfl : k = 0 := Nat.le_zero.mp hk
    exact hrounds
  | succ n ih =>
    cases k with
    | zero =>
      obtain rfl : w = w' := hrounds
      rw [work, if_neg hrests]
    | succ k =>
      have hfirst : w.Runs := hruns 0 k.succ_pos
      rw [work, if_pos hfirst]
      exact ih (Nat.le_of_succ_le_succ hk) hrounds fun i hi => hruns (i + 1) (Nat.succ_lt_succ hi)

/-- The rounds that have taken time and those that will are all there are. -/
theorem work_timed (n : Nat) (w : Typewriter) :
    (work n w).timed + (work n w).writer.left = w.left := by
  induction n generalizing w with
  | zero => simp [work]
  | succ n ih =>
    rw [work]
    split
    · have := ih w.round
      have := w.left_round
      dsimp only
      omega
    · simp

/-- The typewriter when a time has passed, before it works. -/
def elapsed (w : Typewriter) (t : Float) : Typewriter := { w with timer := w.timer - t }

/-- A time passes at a typewriter whose rounds are counted. A complete typewriter makes no rounds
any more, and a time of no real number's size is refused. -/
def Clocked.tick (x : Clocked) (dt : Quantity) : Clocked :=
  if x.writer.complete then x
  else match dt.toReal? with
    | none => x
    | some t =>
      let y := work (x.writer.text.length - x.writer.revealed + 1) (x.writer.elapsed t)
      ⟨y.writer, x.timed + y.timed⟩

/-- The typewriter after some times have passed, with the number of rounds that have taken time. -/
def clocked (text : String) (secondsPerCharacter : Float) (dts : List Quantity) : Clocked :=
  dts.foldl Clocked.tick ⟨start text secondsPerCharacter, 0⟩

/-- To count the rounds makes no difference to the typewriter. -/
theorem Clocked.tick_writer {text : String} {x : Clocked} (h : Stopped text x.writer)
    (dt : Quantity) : (x.tick dt).writer = x.writer.after (.tick dt) := by
  rw [Clocked.tick, after, tickBy]
  cases hcomplete : x.writer.complete with
  | true => rfl
  | false =>
    cases hx : dt.toReal? with
    | none => rfl
    | some t =>
      have hwithin : x.writer.revealed ≤ x.writer.text.length := h.text_eq.symm ▸ h.within
      obtain ⟨k, hk, hrounds, hruns, hrests⟩ := tick_comesTo hcomplete hwithin t
      exact work_writer hk hrounds hruns hrests

theorem Clocked.tick_timed (x : Clocked) (dt : Quantity) :
    (x.tick dt).timed + (x.tick dt).writer.left = x.timed + x.writer.left := by
  rw [Clocked.tick]
  split
  · rfl
  · split
    · rfl
    · next t _ =>
      have hwork := work_timed (x.writer.text.length - x.writer.revealed + 1) (x.writer.elapsed t)
      have hleft : (x.writer.elapsed t).left = x.writer.left := rfl
      dsimp only
      omega

/-- What is counted along the way is the typewriter that the ticks lead to. -/
theorem clocked_writer (text : String) (secondsPerCharacter : Float) (dts : List Quantity) :
    (clocked text secondsPerCharacter dts).writer =
      (typed text secondsPerCharacter (dts.map .tick)).1 := by
  induction dts using List.reverseRecOn with
  | nil => rfl
  | append_singleton dts dt ih =>
    have hstopped := (stopped_typed text secondsPerCharacter (dts.map .tick)).1
    have hcount : clocked text secondsPerCharacter (dts ++ [dt]) =
        (clocked text secondsPerCharacter dts).tick dt := by
      rw [clocked, List.foldl_append]
      rfl
    have htyped : (typed text secondsPerCharacter ((dts ++ [dt]).map .tick)).1 =
        (typed text secondsPerCharacter (dts.map .tick)).1.after (.tick dt) := by
      rw [typed, List.map_append, List.foldl_append]
      rfl
    rw [hcount, htyped, Clocked.tick_writer (ih ▸ hstopped), ih]

/-- The rounds that have taken time and those that will are as many at any time. -/
theorem clocked_timed (text : String) (secondsPerCharacter : Float) (dts : List Quantity) :
    (clocked text secondsPerCharacter dts).timed +
      (clocked text secondsPerCharacter dts).writer.left =
        (pieces text.toList).countP Piece.isTimed := by
  induction dts using List.reverseRecOn with
  | nil => simp [clocked, left, start]
  | append_singleton dts dt ih =>
    have hcount : clocked text secondsPerCharacter (dts ++ [dt]) =
        (clocked text secondsPerCharacter dts).tick dt := by
      rw [clocked, List.foldl_append]
      rfl
    rw [hcount, Clocked.tick_timed, ih]

/-- Nothing is left when the text is complete. -/
theorem Stopped.left_eq_zero {text : String} (h : Stopped text w) (hcomplete : w.complete = true) :
    w.left = 0 := by
  have hnil : w.text.toList.drop w.revealed = [] := by
    rw [h.text_eq]
    by_cases hempty : text = ""
    · simp [hempty]
    · rw [(h.complete_iff hempty).mp hcomplete, ← String.length_toList, List.drop_length]
  rw [left, hnil]
  rfl

/-- From the start of a text until it is complete, whatever times pass, as many rounds take time as
characters are hidden before anything is revealed, less the opening brackets that are never closed.
Those brackets are hidden like any other character, but they are revealed in no time. -/
theorem timed_add_unclosed (text : String) (secondsPerCharacter : Float) (dts : List Quantity)
    (h : (typed text secondsPerCharacter (dts.map .tick)).1.complete = true) :
    visible text.toList 0 = (pieces text.toList).flatMap Piece.shown ∧
      (pieces text.toList).flatMap Piece.text = text.toList ∧
      (clocked text secondsPerCharacter dts).writer =
        (typed text secondsPerCharacter (dts.map .tick)).1 ∧
      (clocked text secondsPerCharacter dts).timed + unclosed text.toList =
        (pieces text.toList).countP Piece.isHidden ∧
      ((clocked text secondsPerCharacter dts).timed = (pieces text.toList).countP Piece.isHidden ↔
        unclosed text.toList = 0) := by
  have hwriter := clocked_writer text secondsPerCharacter dts
  have htimed := clocked_timed text secondsPerCharacter dts
  have hleft := (stopped_typed text secondsPerCharacter (dts.map .tick)).1.left_eq_zero h
  have hcount := countP_pieces text.toList
  rw [hwriter, hleft] at htimed
  refine ⟨visible_pieces _, flatMap_text_pieces _, hwriter, ?_, ?_⟩ <;> omega

/-- A text with a tag, a bracket that closes nothing, and one that is never closed. -/
theorem timed_add_unclosed_greeting :
    let text := "<b>Hi</b> > you <3"
    let dts : List Quantity := [.whole 0, .real 0.5, .whole 30]
    (typed text 0.5 (dts.map .tick)).1.complete = true ∧
      (clocked text 0.5 dts).timed = 10 ∧ unclosed text.toList = 1 ∧
      (pieces text.toList).countP Piece.isHidden = 11 := by
  intro text dts
  have hcomplete : (typed text 0.5 (dts.map .tick)).1.complete = true := by decide +kernel
  have hunclosed : unclosed text.toList = 1 := by decide +kernel
  have hhidden : (pieces text.toList).countP Piece.isHidden = 11 := by decide +kernel
  obtain ⟨-, -, -, htimed, -⟩ := timed_add_unclosed text 0.5 dts hcomplete
  exact ⟨hcomplete, by omega, hunclosed, hhidden⟩

/-- A bracket that is never closed is hidden but takes no time. -/
theorem not_timed_eq_hidden : ¬∀ (text : String) (secondsPerCharacter : Float)
    (dts : List Quantity), (typed text secondsPerCharacter (dts.map .tick)).1.complete = true →
      (clocked text secondsPerCharacter dts).timed =
        (pieces text.toList).countP Piece.isHidden := by
  intro h
  have htimed := h "<b" 1 [.real 0] (by decide +kernel)
  exact absurd htimed (by decide +kernel)

end VisualNovel.Typewriter
