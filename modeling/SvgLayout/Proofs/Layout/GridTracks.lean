import SvgLayout.Proofs.Layout.GridWeights

/-!
# The tracks of a grid

The columns of a grid fill its width and the rows its height, each up to the gaps between them, and
keep the weights that are given for them. Rows that are shorter than others count as if they were
filled up with cells that have no ratio.

## Main definitions

* `FillsAxis` — tracks that lie end to end over a whole axis and keep given weights.
* `Padded` — rows that are filled up with blank cells.

## Main statements

* `fillsAxis_tracks` — tracks that share out the whole room fill the axis.
* `solveGrid_padded`, `Grid.layout_padded` — blank cells change nothing.
* `Grid.layout_fills_axes` — both axes of a grid that has a layout.
-/

namespace SvgLayout

/-! ## Axes -/

/-- The tracks of an axis with `gap` between them: there are `count` of them, none is empty, they
keep the weights that are given for them, and they lie end to end from one end of the axis to the
other. Gaps that would leave no room are dropped. -/
structure FillsAxis (given : Option (List ℝ)) (gap : ℝ) (count : ℕ) (ranges : List (Limit ℝ)) :
    Prop where
  tiles : Tiles (if gap * (count - 1 : ℕ) < 1 then gap else 0) 1 ranges
  weighting : IsWeighting given count (ranges.map Limit.length)

/-- Tracks that share out the whole room fill the axis. -/
theorem fillsAxis_tracks {given : Option (List ℝ)} {count : ℕ} {shares : List ℝ}
    (nonzero : count ≠ 0) (weighting : IsWeighting given count shares) (whole : shares.sum = 1)
    (gap : ℝ) :
    let spacing := Spacing.resolve gap count
    FillsAxis given gap count (tracks (shares.map (· * spacing.room)) spacing.gap) := by
  intro spacing
  have nonempty : shares ≠ [] := by
    rintro rfl
    exact nonzero weighting.length.symm
  have kept : spacing.gap = if gap * (count - 1 : ℕ) < 1 then gap else 0 := by
    simp only [spacing, Spacing.resolve_eq]
  constructor
  -- shares of the whole claim all the room, so the last track ends at one
  · have tiles := tiles_tracks_resolve nonempty (fun w hw => (weighting.pos w hw).le) gap
    simp only [weighting.length, whole, sub_self, mul_zero, sub_zero] at tiles
    simpa only [mul_comm, ← kept] using tiles
  · rw [map_length_tracks]
    exact weighting.scale (Spacing.room_pos gap count)

/-! ## Blank cells -/

section

variable {β : Type} {blank : β → Prop} {rows longer : List (List β)} {columns : ℕ}

/-- The rows of `longer` are those of `rows`, some of them filled up with blank cells to no more
than `columns` cells. -/
def Padded (blank : β → Prop) (columns : ℕ) : List (List β) → List (List β) → Prop :=
  List.Forall₂ fun row long =>
    ∃ blanks, long = row ++ blanks ∧ (∀ cell ∈ blanks, blank cell) ∧ long.length ≤ columns

namespace Padded

theorem length_le (h : Padded blank columns rows longer) :
    ∀ long ∈ longer, long.length ≤ columns := by
  induction h with
  | nil => simp
  | cons row _ ih =>
    obtain ⟨-, -, -, bound⟩ := row
    exact List.forall_mem_cons.mpr ⟨bound, ih⟩

/-- What bounds the rows that are filled up bounds the others. -/
theorem length_le_of_forall (h : Padded blank columns rows longer) {n : ℕ}
    (bound : ∀ long ∈ longer, long.length ≤ n) : ∀ row ∈ rows, row.length ≤ n := by
  induction h with
  | nil => simp
  | cons row _ ih =>
    obtain ⟨first, rest⟩ := List.forall_mem_cons.mp bound
    obtain ⟨blanks, rfl, -⟩ := row
    rw [List.length_append] at first
    exact List.forall_mem_cons.mpr ⟨Nat.le_of_add_right_le first, ih rest⟩

/-- Rows that are filled up to the longest of them need no more columns. -/
theorem columnCount_eq (h : Padded blank (columnCount rows) rows longer) :
    columnCount longer = columnCount rows := by
  refine Nat.le_antisymm (columnCount_le h.length_le) (columnCount_le ?_)
  exact h.length_le_of_forall fun _ => length_le_columnCount

end Padded

end

section

variable {α : Type} [Scalar α]

/-- A cell counts as square whether it is blank or missing. -/
theorem logAspect_append (row : List (Option α)) {blanks : List (Option α)}
    (blank : ∀ cell ∈ blanks, cell = none) (j : ℕ) :
    logAspect (row ++ blanks)[j]? = logAspect row[j]? := by
  rcases lt_or_ge j row.length with inside | outside
  · rw [List.getElem?_append_left inside]
  · rw [List.getElem?_append_right outside, List.getElem?_eq_none outside]
    cases cell : blanks[j - row.length]? with
    | none => rfl
    | some entry =>
      rw [blank entry (List.mem_of_getElem? cell)]
      rfl

variable {aspects longer : List (List (Option α))} {columns : ℕ}

theorem logAspects_padded (h : Padded (· = none) columns aspects longer) (n : ℕ) :
    logAspects n longer = logAspects n aspects := by
  induction h with
  | nil => rfl
  | cons row _ ih =>
    obtain ⟨blanks, rfl, blank, -⟩ := row
    simp only [logAspects, List.map_cons, logAspect_append _ blank] at ih ⊢
    rw [ih]

/-- Blank cells change nothing of the tracks. -/
theorem solveGrid_padded (h : Padded (· = none) (columnCount aspects) aspects longer)
    (widths heights : Option (List α)) (spacing : GridSpacing α) :
    solveGrid longer widths heights spacing = solveGrid aspects widths heights spacing := by
  have length : longer.length = aspects.length := h.length_eq.symm
  have isEmpty : longer.isEmpty = aspects.isEmpty := by
    rw [Bool.eq_iff_iff, List.isEmpty_iff_length_eq_zero, List.isEmpty_iff_length_eq_zero, length]
  have weights : gridWeights (columnCount aspects) longer widths heights =
      gridWeights (columnCount aspects) aspects widths heights := by
    simp only [gridWeights, logAspects_padded h]
  simp only [solveGrid, h.columnCount_eq, weights, length]
  rw [isEmpty]

/-- The ratios of rows that are filled up with children without a ratio. -/
theorem mapM_padded {rows longer : List (List (Measured α))}
    (h : Padded (fun m => m.layoutAspect = .ok none) columns rows longer)
    (measured : rows.mapM (List.mapM Measured.layoutAspect) = .ok aspects) :
    ∃ filled, longer.mapM (List.mapM Measured.layoutAspect) = .ok filled ∧
      Padded (· = none) columns aspects filled := by
  simp only [Except.mapM_eq_ok] at measured ⊢
  induction h generalizing aspects with
  | nil => exact ⟨[], .nil, by cases measured; exact .nil⟩
  | @cons row long _ _ first _ ih =>
    obtain _ | @⟨_, ratios, _, others, hrow, hrows⟩ := measured
    obtain ⟨blanks, rfl, blank, bound⟩ := first
    obtain ⟨filled, hfilled, padded⟩ := ih hrows
    have empty : List.Forall₂ (fun m ratio => m.layoutAspect = .ok ratio) blanks
        (blanks.map fun _ => none) := by
      rw [List.forall₂_map_right_iff, List.forall₂_same]
      exact blank
    have all := List.rel_append hrow empty
    refine ⟨(ratios ++ blanks.map fun _ => none) :: filled, .cons all hfilled, .cons ?_ padded⟩
    refine ⟨_, rfl, by simp, ?_⟩
    rw [← all.length_eq]
    exact bound

/-- Children without a ratio at the ends of rows change nothing of the tracks. -/
theorem Grid.layout_padded {grid : Grid α (Measured α)} {layout : GridLayout α}
    (h : grid.layout = .ok layout) {rows : List (List (Measured α))}
    (padded : Padded (fun m => m.layoutAspect = .ok none) (columnCount grid.rows) grid.rows rows) :
    Grid.layout { grid with rows := rows } = .ok layout := by
  obtain ⟨aspects, ha, count, -, hw, hh, rfl⟩ := Grid.layout_eq_ok h
  obtain ⟨filled, hfilled, blank⟩ := mapM_padded padded ha
  rw [← count] at blank
  simp only [Grid.layout, Except.bind_eq_ok, Except.pure_eq_ok]
  rw [padded.columnCount_eq, ← padded.length_eq]
  exact ⟨_, hw, _, hh, filled, hfilled, solveGrid_padded blank _ _ _⟩

end

/-! ## Grids -/

/-- Weights that a grid accepts are weights that may be given. -/
theorem areWeights_of_checkWeights {axis : String} {given : Option (List ℝ)} {count : ℕ} {u : Unit}
    (h : Grid.checkWeights axis given count = .ok u) : AreWeights given count := by
  intro ws hws
  obtain ⟨length, positive⟩ := checkWeights_eq_ok h ws hws
  exact ⟨length, by simpa using positive⟩

/-- The columns of a grid that has a layout fill its width and the rows its height, one for each
entry of its longest row and one for each row, and they keep the weights that are given for them.
Children without a ratio that fill up shorter rows change nothing of the layout. -/
theorem Grid.layout_fills_axes {grid : Grid ℝ (Measured ℝ)} {layout : GridLayout ℝ}
    (h : grid.layout = .ok layout) (nonempty : columnCount grid.rows ≠ 0) :
    FillsAxis grid.widths grid.spacing.column (columnCount grid.rows) layout.columns ∧
      FillsAxis grid.heights grid.spacing.row grid.rows.length layout.rows ∧
      ∀ rows, Padded (fun m => m.layoutAspect = .ok none) (columnCount grid.rows) grid.rows rows →
        Grid.layout { grid with rows := rows } = .ok layout := by
  refine ⟨?_, ?_, fun _ => layout_padded h⟩
  · obtain ⟨aspects, -, count, -, hw, -, rfl⟩ := Grid.layout_eq_ok h
    rw [← count] at nonempty hw ⊢
    obtain ⟨across, whole⟩ :=
      isWeighting_widths nonempty (areWeights_of_checkWeights hw) grid.heights
    rw [solveGrid_eq nonempty]
    exact fillsAxis_tracks nonempty across whole _
  · obtain ⟨aspects, -, count, length, -, hh, rfl⟩ := Grid.layout_eq_ok h
    rw [← count] at nonempty
    rw [← length] at hh ⊢
    have rows := ne_nil_of_columnCount nonempty
    obtain ⟨down, whole⟩ := isWeighting_heights rows (columnCount aspects) grid.widths
      (areWeights_of_checkWeights hh)
    rw [solveGrid_eq nonempty]
    exact fillsAxis_tracks (by simpa using rows) down whole _

/-! ## A shop window -/

/-- A child of a given ratio, or of none. -/
noncomputable def pane (aspect : Option ℝ) : Measured ℝ :=
  ⟨.plain, .ofAspect (pure aspect)⟩

/-- Two rows of panes of which the second is shorter, with gaps that would leave no room between the
rows. The first column has the weight one. -/
noncomputable def shopWindow (first second weight gap : ℝ) : Grid ℝ (Measured ℝ) :=
  ⟨[[pane (some first), pane none], [pane (some second)]], some [1, weight], none, ⟨gap, 1⟩, false⟩

theorem layoutAspect_pane (aspect : Option ℝ) : (pane aspect).layoutAspect = .ok aspect := by
  have upright : (pane aspect).spec.isRotated = false := by
    simp [pane, Spec.isRotated, Spec.isTurned, Spec.plain]
  rw [Measured.layoutAspect]
  simp only [upright]
  cases aspect <;> rfl

theorem layout_shopWindow (first second gap : ℝ) {weight : ℝ} (positive : 0 < weight) :
    (shopWindow first second weight gap).layout =
      .ok (solveGrid [[some first, none], [some second]] (some [1, weight]) none ⟨gap, 1⟩) := by
  have columns : columnCount [[pane (some first), pane none], [pane (some second)]] = 2 := rfl
  simp [Grid.layout, columns, shopWindow, Grid.checkWeights, layoutAspect_pane, positive, pure,
    Except.pure, bind, Except.bind]

/-- The columns of the shop window are one gap apart and its rows touch, and the second row may be
filled up with a pane without a ratio. -/
theorem layout_fills_axes_shopWindow :
    let window := shopWindow 2 3 2 (1 / 10)
    ∃ layout, window.layout = .ok layout ∧ columnCount window.rows ≠ 0 ∧
      Tiles (1 / 10) 1 layout.columns ∧ Tiles 0 1 layout.rows ∧
      (∃ k, layout.columns.map Limit.length = [1 * k, 2 * k]) ∧
      Grid.layout { window with
        rows := [[pane (some 2), pane none], [pane (some 3), pane none]] } = .ok layout := by
  intro window
  have nonempty : columnCount window.rows ≠ 0 := two_ne_zero
  have solved := layout_shopWindow 2 3 (1 / 10) two_pos
  obtain ⟨columns, rows, blanks⟩ := Grid.layout_fills_axes solved nonempty
  refine ⟨_, solved, nonempty, ?_, ?_, ?_, blanks _ ?_⟩
  · have tiles : Tiles (if (1 / 10 : ℝ) * (2 - 1 : ℕ) < 1 then 1 / 10 else 0) 1 _ := columns.tiles
    rwa [if_pos (by norm_num)] at tiles
  · have tiles : Tiles (if (1 : ℝ) * (2 - 1 : ℕ) < 1 then 1 else 0) 1 _ := rows.tiles
    rwa [if_neg (by norm_num)] at tiles
  · exact columns.weighting.proportional _ rfl
  · refine .cons ⟨[], rfl, by simp, le_rfl⟩ (.cons ⟨[pane none], rfl, ?_, le_rfl⟩ .nil)
    simpa using layoutAspect_pane none

end SvgLayout
