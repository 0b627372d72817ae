import VisualNovel.Proofs.Life.Invariant
import VisualNovel.Proofs.Life.Play
import VisualNovel.Proofs.Tour.Conditions

/-!
# Conditionals in the life of a session

What holds of the conditionals of a node on its tour holds throughout the life of a session.

## Main definitions

* `Shelf.WellNested`: the markers of every script are nested.

## Main results

* `Life.nested`: over such scripts, the blocks of every node on the stack are nested;
* `Life.sheltered_iff`: whatever is played or asked in a node is in the branches that have been
  taken, exactly if the conditionals had come to the branches around each decision when it was
  asked.
-/

namespace VisualNovel

/-- The markers of every script are nested. -/
def Shelf.WellNested (w : Shelf) : Prop :=
  ∀ scripts remarks, Script.files w.files w.scripts = .ok (scripts, remarks) → ∀ x ∈ scripts,
    ∀ source, Script.readSource x.1 x.2 = .ok source → ∀ name, Script.isWellNested source name

variable {σ : Type} {o : Observer σ} {w : Shelf} {running : Bool} {s : Session} {ys : List Stay}
  {y : Stay}

/-- A node that is found among scripts that are well nested is nested. -/
theorem Shelf.WellNested.nested (hw : w.WellNested) {vs : Variables} {name context : String}
    {n : Node} (hn : (w.find vs name context).result = .ok n) : n.Nested := by
  obtain ⟨scripts, remarks, hfiles, x, hx, source, ws, hread, hcompile⟩ := Script.search_ok hn
  exact Script.compile_nested (hw scripts remarks hfiles x hx source hread name) hcompile

/-- Over scripts that are well nested, the blocks of every node on the stack are nested. -/
theorem Life.nested (h : Life o w running s ys) (hw : w.WellNested) (hy : y ∈ ys) :
    y.node.Nested := by
  obtain ⟨f, n, depth, seen, c, st, hbelongs, -⟩ := h.exists_tour hy
  obtain ⟨vs, hfound⟩ := hbelongs.found
  exact hw.nested hfound

/-- Whenever a line is presented, a command is carried out or a decision with lines is asked, every
conditional around it is open, in the branch that has it, exactly if, whenever a decision with lines
has been asked, the conditionals had come to the branches around it before. -/
theorem Life.sheltered_iff (h : Life o w running s ys) (hy : y ∈ ys) (hnested : y.node.Nested) :
    (∀ x ∈ y.deeds, y.node.Sheltered x) ↔
      ∀ line c d, .asked line c d ∈ y.deeds → d.start < d.stop → y.node.Foresees line d := by
  obtain ⟨f, n, depth, seen, c, st, hbelongs, htour⟩ := h.exists_tour hy
  exact htour.sheltered_iff_foreseen hbelongs.laid hnested

/-- A script with a decision in the first branch of a conditional. -/
private def fork : List String :=
  ["#Node: main", "if (true)", "#StartDecision", "-Yes", "Good.", "-No", "Bad.", "#EndDecision",
    "else", "Never.", "endif", "#EndNode"]

/-- Its decision. -/
private def yesOrNo : Decision := ⟨0, 0, 2, [⟨"Yes", 0, 1⟩, ⟨"No", 1, 2⟩]⟩

/-- The reader has been asked, and the line of the chosen option is presented, in the branch that
was taken. -/
theorem sheltered_fork : ∃ s y,
    Life (.noting : Observer Unit) (Stage.ofScript fork).shelf false s [y] ∧ y.node.Nested ∧
      y.deeds = [.asked 0 ⟨0, [0], [], [0], [0]⟩ yesOrNo, .chose yesOrNo ⟨"No", 1, 2⟩,
        .played ⟨1, [0], [1], [0], [0]⟩] ∧ ∀ x ∈ y.deeds, y.node.Sheltered x := by
  obtain ⟨s, ys, hlife, hys⟩ := Stage.exists_life_of_play fork [.start "main" "", .decide 1]
    (fun _ ys => ys.map (fun y => (y.node.conditionals, y.node.decisions, y.deeds)) =
      [([⟨0, ⟨"true", 0, 2⟩, [], some ⟨"", 2, 3⟩, 0, 3⟩], [yesOrNo],
        [.asked 0 ⟨0, [0], [], [0], [0]⟩ yesOrNo, .chose yesOrNo ⟨"No", 1, 2⟩,
          .played ⟨1, [0], [1], [0], [0]⟩])]) (by decide +kernel)
  obtain ⟨y, rfl, hy⟩ := List.map_eq_singleton_iff.mp hys
  obtain ⟨hconditionals, hy⟩ := Prod.mk.inj hy
  obtain ⟨hdecisions, hdeeds⟩ := Prod.mk.inj hy
  have hnested : y.node.Nested := by
    unfold Node.Nested
    rw [hconditionals, hdecisions]
    decide
  refine ⟨s, y, hlife, hnested, hdeeds, ?_⟩
  refine (hlife.sheltered_iff (List.mem_singleton_self y) hnested).mpr fun line c d hasked _ => ?_
  obtain ⟨rfl, -, rfl⟩ : line = 0 ∧ c = ⟨0, [0], [], [0], [0]⟩ ∧ d = yesOrNo := by
    simpa [hdeeds] using hasked
  intro x hx _ _
  rw [hconditionals] at hx
  obtain rfl := List.mem_singleton.mp hx
  exact ⟨⟨"true", 0, 2⟩, by decide, by decide, by decide, by decide⟩

/-- It is not so that whatever is played or asked is in the branches that have been taken, even if
the markers are nested: the end of a decision in one branch leads to a decision in the next. -/
theorem not_sheltered : ¬∀ lines s ys y,
    Life (.noting : Observer Unit) (Stage.ofScript lines).shelf false s ys → y ∈ ys →
    Script.isWellNested (String.intercalate "\n" lines) y.node.name →
    ∀ x ∈ y.deeds, y.node.Sheltered x := by
  intro hall
  obtain ⟨s, ys, hlife, hys⟩ := Stage.exists_life_of_play
    ["#Node: main", "if (true)", "#StartDecision", "-Yes", "Y", "-No", "N", "#EndDecision", "else",
      "#StartDecision", "-Left", "L", "-Right", "R", "#EndDecision", "endif", "After.", "#EndNode"]
    [.start "main" "", .decide 0, .advance, .advance]
    (fun _ ys => ys.map (fun y => (y.node.name, y.node.conditionals, y.deeds.getLast?)) =
      [("main", [⟨0, ⟨"true", 0, 2⟩, [], some ⟨"", 2, 4⟩, 0, 4⟩],
        some (.asked 1 ⟨2, [1], [], [0], [0]⟩ ⟨1, 2, 4, [⟨"Left", 2, 3⟩, ⟨"Right", 3, 4⟩]⟩))])
    (by decide +kernel)
  obtain ⟨y, rfl, hy⟩ := List.map_eq_singleton_iff.mp hys
  obtain ⟨hname, hy⟩ := Prod.mk.inj hy
  obtain ⟨hconditionals, hlast⟩ := Prod.mk.inj hy
  have hsheltered := hall _ s [y] y hlife (by simp) (by rw [hname]; decide +kernel) _
    (List.mem_of_getLast? hlast) (by decide)
  obtain ⟨way, b, hmem, hb, hstart, hstop⟩ := hsheltered ⟨0, ⟨"true", 0, 2⟩, [], some ⟨"", 2, 4⟩, 0, 4⟩
    (by rw [hconditionals]; exact List.mem_singleton_self _) (by decide) (by decide)
  obtain rfl : way = 0 := by simpa using hmem
  obtain rfl : b = ⟨"true", 0, 2⟩ := (Option.some.inj hb).symm
  exact absurd hstop (by decide)

end VisualNovel
