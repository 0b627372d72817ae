import VisualNovel.Proofs.Life.Invariant
import VisualNovel.Proofs.Life.Play
import VisualNovel.Proofs.Layout.Nesting
import VisualNovel.Proofs.Tour.Asking
import VisualNovel.Proofs.Tour.Choices

/-!
# Decisions in the life of a session

What holds of the decisions of a node on its tour holds throughout the life of a session: whether
the lines that are played are those of the options that were chosen, and how often the reader is
asked.

## Main results

* `Life.played_guided_iff`: a line that is played in a decision is one of the chosen option exactly
  if conditionals have not carried the cursor past the point where the reader would have chosen;
* `Life.asked_once_iff`: the decisions of a stay are asked once at most exactly if no choice leaves
  the cursor where an earlier decision starts, and then there are no more questions than decisions.
-/

namespace VisualNovel

variable {σ : Type} {o : Observer σ} {w : Shelf} {running : Bool} {s : Session} {ys : List Stay}
  {y : Stay}

/-- Whenever a line of a decision is presented or a command in it is carried out, the decision is
open and the line belongs to its chosen option and to no other one, exactly if conditionals have
not carried the cursor past the line at which the reader would have been asked. -/
theorem Life.played_guided_iff (h : Life o w running s ys) (hy : y ∈ ys) :
    AtEach (fun before x => ∀ cursor, x = .played cursor → ∀ d ∈ y.node.decisions,
      d.Covers cursor.line → (d.Guides cursor ↔ ¬d.Bypassed before)) y.deeds := by
  obtain ⟨f, n, depth, seen, c, st, hbelongs, htour⟩ := h.exists_tour hy
  exact htour.guides_iff_not_bypassed hbelongs.laid

/-- A script in which the reader may choose. -/
private def tearoom : List String :=
  ["#Node: main", "#StartDecision", "-Tea", "-Coffee", "Hot.", "#EndDecision", "#EndNode"]

/-- Its decision, of which one option has no lines. -/
private def drinks : Decision := ⟨0, 0, 1, [⟨"Tea", 0, 0⟩, ⟨"Coffee", 0, 1⟩]⟩

/-- The reader chooses the second option. -/
private theorem exists_life_tearoom : ∃ s y,
    Life (.noting : Observer Unit) (Stage.ofScript tearoom).shelf false s [y] ∧
      y.node.decisions = [drinks] ∧ y.deeds = [.asked 0 ⟨0, [0], [], [], []⟩ drinks,
        .chose drinks ⟨"Coffee", 0, 1⟩, .played ⟨0, [0], [1], [], []⟩] := by
  obtain ⟨s, ys, hlife, hys⟩ := Stage.exists_life_of_play tearoom [.start "main" "", .decide 1]
    (fun _ ys => ys.map (fun y => (y.node.decisions, y.deeds)) =
      [([drinks], [.asked 0 ⟨0, [0], [], [], []⟩ drinks, .chose drinks ⟨"Coffee", 0, 1⟩,
        .played ⟨0, [0], [1], [], []⟩])]) (by decide +kernel)
  obtain ⟨y, rfl, hy⟩ := List.map_eq_singleton_iff.mp hys
  obtain ⟨hdecisions, hdeeds⟩ := Prod.mk.inj hy
  exact ⟨s, y, hlife, hdecisions, hdeeds⟩

/-- A line is presented in the option that the reader has chosen. -/
theorem played_guided_tearoom : ∃ s y,
    Life (.noting : Observer Unit) (Stage.ofScript tearoom).shelf false s [y] ∧
      drinks ∈ y.node.decisions ∧
      ∃ cursor, .played cursor ∈ y.deeds ∧ drinks.Covers cursor.line ∧ drinks.Guides cursor := by
  obtain ⟨s, y, hlife, hdecisions, hdeeds⟩ := exists_life_tearoom
  have hmem : drinks ∈ y.node.decisions := by simp [hdecisions]
  refine ⟨s, y, hlife, hmem, ⟨0, [0], [1], [], []⟩, by simp [hdeeds], by decide, ?_⟩
  refine (hlife.played_guided_iff (List.mem_singleton_self y) [_, _] _ [] hdeeds _ rfl drinks hmem
    (by decide)).mpr ?_
  simp [Decision.Bypassed]

/-- A decision whose first option begins with a conditional. -/
private def guarded : Decision := ⟨0, 0, 3, [⟨"One", 0, 2⟩, ⟨"Two", 2, 3⟩]⟩

/-- It is not so that every line of a decision is played in the option that has been chosen, even if
the markers are nested: at the start of a decision a conditional can lead past the question. -/
theorem not_played_guided : ¬∀ lines s ys y,
    Life (.noting : Observer Unit) (Stage.ofScript lines).shelf false s ys → y ∈ ys →
    Script.isWellNested (String.intercalate "\n" lines) y.node.name →
    ∀ cursor, .played cursor ∈ y.deeds → ∀ d ∈ y.node.decisions, d.Covers cursor.line →
      d.Guides cursor := by
  intro hall
  obtain ⟨s, ys, hlife, hys⟩ := Stage.exists_life_of_play
    ["#Node: main", "#StartDecision", "-One", "if (false)", "Hidden.", "endif", "First.", "-Two",
      "Second.", "#EndDecision", "After.", "#EndNode"] [.start "main" ""]
    (fun _ ys => ys.map (fun y => (y.node.name, y.node.decisions, y.deeds)) =
      [("main", [guarded], [.led {} 1, .played { line := 1 }])]) (by decide +kernel)
  obtain ⟨y, rfl, hy⟩ := List.map_eq_singleton_iff.mp hys
  obtain ⟨hname, hy⟩ := Prod.mk.inj hy
  obtain ⟨hdecisions, hdeeds⟩ := Prod.mk.inj hy
  have hguides := hall _ s [y] y hlife (by simp) (by rw [hname]; decide +kernel) { line := 1 }
    (by simp [hdeeds]) guarded (by simp [hdecisions]) (by decide)
  simp [Decision.Guides] at hguides

/-- No decision is asked twice while its node is on the stack, exactly if no choice leaves the
cursor at a line where an earlier decision starts; the last deed does not count, because a choice
comes to bear only when the session goes on. Then the reader is asked no more often than there are
decisions. -/
theorem Life.asked_once_iff (h : Life o w running s ys) (hy : y ∈ ys) :
    ((y.deeds.filterMap Deed.asks?).Nodup ↔
      ∀ d c, .chose d c ∈ y.deeds.dropLast → ¬y.node.Returns d c) ∧
    ((y.deeds.filterMap Deed.asks?).Nodup →
      (y.deeds.filterMap Deed.asks?).length ≤ y.node.decisions.length) := by
  obtain ⟨f, n, depth, seen, c, st, hbelongs, htour⟩ := h.exists_tour hy
  exact ⟨htour.asks_nodup_iff_dropLast hbelongs.laid, htour.length_asks_le hbelongs.laid⟩

/-- The reader has been asked once. -/
theorem asked_once_tearoom : ∃ s y,
    Life (.noting : Observer Unit) (Stage.ofScript tearoom).shelf false s [y] ∧
      y.deeds.filterMap Deed.asks? = [drinks] ∧ (y.deeds.filterMap Deed.asks?).Nodup := by
  obtain ⟨s, y, hlife, hdecisions, hdeeds⟩ := exists_life_tearoom
  refine ⟨s, y, hlife, by rw [hdeeds]; rfl, ?_⟩
  refine (hlife.asked_once_iff (List.mem_singleton_self y)).1.mpr fun d c hchose => ?_
  rw [hdeeds] at hchose
  obtain ⟨rfl, rfl⟩ : d = drinks ∧ c = ⟨"Coffee", 0, 1⟩ := by simpa using hchose
  rintro ⟨e, he, hlt, -⟩
  obtain rfl : e = drinks := by simpa [hdecisions] using he
  exact absurd hlt (lt_irrefl _)

/-- It is not so that every decision is asked once at most: of two decisions without lines the first
one is asked again. -/
theorem not_asked_once : ¬∀ lines s ys y,
    Life (.noting : Observer Unit) (Stage.ofScript lines).shelf false s ys → y ∈ ys →
    (y.deeds.filterMap Deed.asks?).Nodup := by
  intro hall
  obtain ⟨s, ys, hlife, hys⟩ := Stage.exists_life_of_play
    ["#Node: main", "#StartDecision", "-A", "#EndDecision", "#StartDecision", "-B",
      "#EndDecision", "After.", "#EndNode"] [.start "main" "", .decide 0, .decide 0]
    (fun _ ys => ys.map (fun y => y.deeds.filterMap Deed.asks?) =
      [[⟨0, 0, 0, [⟨"A", 0, 0⟩]⟩, ⟨1, 0, 0, [⟨"B", 0, 0⟩]⟩, ⟨0, 0, 0, [⟨"A", 0, 0⟩]⟩]])
    (by decide +kernel)
  obtain ⟨y, rfl, hy⟩ := List.map_eq_singleton_iff.mp hys
  have hnodup := hall _ s [y] y hlife (by simp)
  rw [hy] at hnodup
  exact absurd hnodup (by decide)

end VisualNovel
