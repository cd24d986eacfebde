import Mathlib.Algebra.BigOperators.Expect
import Mathlib.Algebra.BigOperators.Field
import SvgLayout.Proofs.Layout.Tiling
import SvgLayout.Proofs.Layout.Tracks

/-!
# The weights of a grid

The logarithms of the ratios that the cells of a grid ask for fill a rectangle, whatever the lengths
of its rows. The weights of its tracks depend on this rectangle only by the averages of its rows and
columns and of the whole.

## Main definitions

* `cellAspect`, `askedLog` — the ratio that a cell asks for, and its logarithm.
* `AreWeights` — weights that may be given for an axis.
* `IsWeighting` — lengths of tracks that keep given weights.

## Main statements

* `gridWeights_eq` — the weights by averages of logarithms.
* `solveGrid_eq` — the tracks and the ratio of a grid by its weights.
* `isWeighting_tracks` — tracks have positive lengths and keep given weights.
-/

namespace SvgLayout

open Finset

open scoped BigOperators

/-! ## Ratios -/

/-- The ratio that a cell asks for. A cell that is missing, has no ratio or none above zero is
square. -/
noncomputable def cellAspect (cell : Option (Option ℝ)) : ℝ :=
  (cell.join.filter fun aspect => 0 < aspect).getD 1

theorem cellAspect_pos (cell : Option (Option ℝ)) : 0 < cellAspect cell := by
  rw [cellAspect]
  cases ratio : cell.join.filter fun aspect => 0 < aspect with
  | none => exact one_pos
  | some aspect => simpa using (Option.filter_eq_some_iff.mp ratio).2

theorem logAspect_eq (cell : Option (Option ℝ)) : logAspect cell = Real.log (cellAspect cell) := by
  rw [logAspect, cellAspect]
  cases cell.join with
  | none => simp
  | some aspect =>
    by_cases positive : 0 < aspect
    · simp [positive, Option.filter]
      rfl
    · simp [positive, Option.filter]

/-- The ratio that the cell in row `i` and column `j` asks for. -/
noncomputable def askedAspect (aspects : List (List (Option ℝ))) (i j : ℕ) : ℝ :=
  cellAspect (aspects.getD i [])[j]?

/-- The logarithm of the ratio that the cell in row `i` and column `j` asks for. -/
noncomputable def askedLog (aspects : List (List (Option ℝ))) (i j : ℕ) : ℝ :=
  Real.log (askedAspect aspects i j)

/-- The logarithms fill a rectangle. -/
theorem logAspects_eq (columns : ℕ) (aspects : List (List (Option ℝ))) :
    logAspects columns aspects = (List.range aspects.length).map fun i =>
      (List.range columns).map (askedLog aspects i) := by
  refine List.ext_getElem (by simp [logAspects]) ?_
  intro i hi _
  have row : i < aspects.length := by simpa [logAspects] using hi
  simp [logAspects, logAspect_eq, askedLog, askedAspect, row]

/-! ## Averages -/

theorem sum_map_range (f : ℕ → ℝ) (n : ℕ) : ((List.range n).map f).sum = ∑ j ∈ range n, f j :=
  rfl

/-- The mean of the entries of a list is their average. -/
theorem mean_map_range (f : ℕ → ℝ) (n : ℕ) :
    Scalar.mean ((List.range n).map f) = 𝔼 j ∈ range n, f j := by
  rw [Scalar.mean, Scalar.sum_eq, sum_map_range, List.length_map, List.length_range,
    expect_eq_sum_div_card, card_range]

/-- The mean of a rectangle is the average of the averages of its rows. -/
theorem mean_flatten (f : ℕ → ℕ → ℝ) (m n : ℕ) :
    Scalar.mean ((List.range m).map fun i => (List.range n).map (f i)).flatten =
      𝔼 i ∈ range m, 𝔼 j ∈ range n, f i j := by
  have count : (((List.range m).map fun i => (List.range n).map (f i)).flatten.length : ℝ) =
      m * n := by
    simp [List.length_flatten, Function.comp_def]
  rw [Scalar.mean, Scalar.sum_eq, count, List.sum_flatten, List.map_map]
  simp only [Function.comp_def, sum_map_range, expect_eq_sum_div_card, card_range]
  rw [← sum_div, div_div, mul_comm]

/-- A column of a rectangle. -/
theorem column_map_range (f : ℕ → ℕ → ℝ) (m : ℕ) {n j : ℕ} (hj : j < n) :
    column ((List.range m).map fun i => (List.range n).map (f i)) j =
      (List.range m).map fun i => f i j := by
  simp [column, hj]

/-- The weights of the tracks by averages of logarithms. -/
theorem gridWeights_eq (columns : ℕ) (aspects : List (List (Option ℝ)))
    (widths heights : Option (List ℝ)) :
    let log := askedLog aspects
    let rows := range aspects.length
    let mean := 𝔼 i ∈ rows, 𝔼 j ∈ range columns, log i j
    gridWeights columns aspects widths heights =
      { widths := normalize (widths.getD ((List.range columns).map fun j =>
          Real.exp ((𝔼 i ∈ rows, log i j) - mean)))
        heights := normalize (heights.getD ((List.range aspects.length).map fun i =>
          Real.exp (mean - 𝔼 j ∈ range columns, log i j)))
        meanLog := mean } := by
  intro log rows mean
  have average : Scalar.mean (logAspects columns aspects).flatten = mean := by
    rw [logAspects_eq, mean_flatten]
  have across : (List.range columns).map (fun j =>
        Scalar.mean (column (logAspects columns aspects) j) - mean) =
      (List.range columns).map fun j => (𝔼 i ∈ rows, log i j) - mean := by
    refine List.map_congr_left fun j hj => ?_
    rw [logAspects_eq, column_map_range _ _ (List.mem_range.mp hj), mean_map_range]
  have down : (logAspects columns aspects).map (fun row => mean - Scalar.mean row) =
      (List.range aspects.length).map fun i => mean - 𝔼 j ∈ range columns, log i j := by
    rw [logAspects_eq, List.map_map]
    refine List.map_congr_left fun i _ => ?_
    rw [Function.comp_apply, mean_map_range]
  simp only [gridWeights, average, across, down, List.map_map]
  rfl

/-! ## Weightings -/

/-- Weights that may be given for the tracks of an axis: one for each of them, all positive. -/
def AreWeights (given : Option (List ℝ)) (count : ℕ) : Prop :=
  ∀ ws ∈ given, ws.length = count ∧ ∀ w ∈ ws, 0 < w

/-- Lengths of `count` tracks that keep the weights given for them. -/
structure IsWeighting (given : Option (List ℝ)) (count : ℕ) (lengths : List ℝ) : Prop where
  length : lengths.length = count
  pos : ∀ l ∈ lengths, 0 < l
  proportional : ∀ ws ∈ given, ∃ k, lengths = ws.map (· * k)

variable {given : Option (List ℝ)} {count : ℕ} {lengths : List ℝ}

/-- Tracks of another size keep the weights as well. -/
theorem IsWeighting.scale (h : IsWeighting given count lengths) {k : ℝ} (hk : 0 < k) :
    IsWeighting given count (lengths.map (· * k)) where
  length := by rw [List.length_map, h.length]
  pos := List.forall_mem_map.mpr fun l hl => mul_pos (h.pos l hl) hk
  proportional ws hws := by
    obtain ⟨a, rfl⟩ := h.proportional ws hws
    refine ⟨a * k, ?_⟩
    rw [List.map_map]
    exact List.map_congr_left fun w _ => mul_assoc w a k

theorem normalize_eq (ws : List ℝ) : normalize ws = ws.map (· / ws.sum) := by
  simp [normalize]

/-- Weights that are scaled to the sum one have it. -/
theorem sum_normalize {ws : List ℝ} (nonempty : ws ≠ []) (pos : ∀ w ∈ ws, 0 < w) :
    (normalize ws).sum = 1 := by
  have total : 0 < ws.sum := List.sum_pos ws pos nonempty
  simp only [normalize_eq, div_eq_mul_inv, List.sum_map_mul_right, List.map_id']
  exact mul_inv_cancel₀ total.ne'

/-- The weights that are taken for an axis, those given or others, are positive and one for each
track. -/
theorem areWeights_getD (valid : AreWeights given count) {fitted : List ℝ}
    (length : fitted.length = count) (pos : ∀ w ∈ fitted, 0 < w) :
    (given.getD fitted).length = count ∧ ∀ w ∈ given.getD fitted, 0 < w := by
  cases given with
  | none => exact ⟨length, pos⟩
  | some ws => exact valid ws rfl

/-- Normalized weights keep those that are given, and share out the whole. -/
theorem isWeighting_normalize (nonzero : count ≠ 0) (valid : AreWeights given count)
    {fitted : List ℝ} (length : fitted.length = count) (pos : ∀ w ∈ fitted, 0 < w) :
    IsWeighting given count (normalize (given.getD fitted)) ∧
      (normalize (given.getD fitted)).sum = 1 := by
  obtain ⟨taken, positive⟩ := areWeights_getD valid length pos
  have nonempty : given.getD fitted ≠ [] := by
    rw [ne_eq, ← List.length_eq_zero_iff, taken]
    exact nonzero
  have total : 0 < (given.getD fitted).sum := List.sum_pos _ positive nonempty
  refine ⟨⟨?_, ?_, ?_⟩, sum_normalize nonempty positive⟩
  · rw [normalize_eq, List.length_map, taken]
  · rw [normalize_eq, List.forall_mem_map]
    exact fun w hw => div_pos (positive w hw) total
  · rintro ws rfl
    refine ⟨ws.sum⁻¹, ?_⟩
    rw [normalize_eq]
    exact List.map_congr_left fun w _ => div_eq_mul_inv w ws.sum

/-! ## Tracks -/

section

variable {aspects : List (List (Option ℝ))} {widths heights : Option (List ℝ)}

theorem isWeighting_widths (nonempty : columnCount aspects ≠ 0)
    (valid : AreWeights widths (columnCount aspects)) (heights : Option (List ℝ)) :
    let weights := gridWeights (columnCount aspects) aspects widths heights
    IsWeighting widths (columnCount aspects) weights.widths ∧ weights.widths.sum = 1 := by
  rw [gridWeights_eq]
  refine isWeighting_normalize nonempty valid (by simp) ?_
  rw [List.forall_mem_map]
  exact fun j _ => Real.exp_pos _

theorem isWeighting_heights (nonempty : aspects ≠ []) (columns : ℕ) (widths : Option (List ℝ))
    (valid : AreWeights heights aspects.length) :
    let weights := gridWeights columns aspects widths heights
    IsWeighting heights aspects.length weights.heights ∧ weights.heights.sum = 1 := by
  rw [gridWeights_eq]
  refine isWeighting_normalize (by simpa using nonempty) valid (by simp) ?_
  rw [List.forall_mem_map]
  exact fun j _ => Real.exp_pos _

theorem GridWeights.contentAspect_pos (weights : GridWeights ℝ) : 0 < weights.contentAspect :=
  Real.exp_pos _

/-- The tracks and the ratio of a grid with a column by its weights. -/
theorem solveGrid_eq (nonempty : columnCount aspects ≠ 0) (widths heights : Option (List ℝ))
    (spacing : GridSpacing ℝ) :
    let weights := gridWeights (columnCount aspects) aspects widths heights
    let across := Spacing.resolve spacing.column (columnCount aspects)
    let down := Spacing.resolve spacing.row aspects.length
    solveGrid aspects widths heights spacing =
      { columns := tracks (weights.widths.map (· * across.room)) across.gap
        rows := tracks (weights.heights.map (· * down.room)) down.gap
        aspect := some (weights.contentAspect * down.room / across.room) } := by
  simp only [solveGrid, isEmpty_or_eq_false nonempty, Scalar.isFinite_eq]
  rfl

variable (nonempty : columnCount aspects ≠ 0) (widths heights : Option (List ℝ))
  (spacing : GridSpacing ℝ)

include nonempty

/-- Columns share out the room for them by their weights. -/
theorem map_length_columns :
    (solveGrid aspects widths heights spacing).columns.map Limit.length =
      (gridWeights (columnCount aspects) aspects widths heights).widths.map
        (· * (Spacing.resolve spacing.column (columnCount aspects)).room) := by
  rw [solveGrid_eq nonempty]
  exact map_length_tracks _ _

/-- Rows share out the room for them by their weights. -/
theorem map_length_rows :
    (solveGrid aspects widths heights spacing).rows.map Limit.length =
      (gridWeights (columnCount aspects) aspects widths heights).heights.map
        (· * (Spacing.resolve spacing.row aspects.length).room) := by
  rw [solveGrid_eq nonempty]
  exact map_length_tracks _ _

/-- The ratio of a grid is that of its cells together, corrected by the gaps between them. -/
theorem aspect_solveGrid :
    (solveGrid aspects widths heights spacing).aspect = some
      ((gridWeights (columnCount aspects) aspects widths heights).contentAspect *
        (Spacing.resolve spacing.row aspects.length).room /
          (Spacing.resolve spacing.column (columnCount aspects)).room) := by
  rw [solveGrid_eq nonempty]

/-- The tracks of a grid keep the weights that are given for them. -/
theorem isWeighting_tracks (hw : AreWeights widths (columnCount aspects))
    (hh : AreWeights heights aspects.length) :
    let layout := solveGrid aspects widths heights spacing
    IsWeighting widths (columnCount aspects) (layout.columns.map Limit.length) ∧
      IsWeighting heights aspects.length (layout.rows.map Limit.length) := by
  intro layout
  obtain ⟨across, -⟩ := isWeighting_widths nonempty hw heights
  obtain ⟨down, -⟩ :=
    isWeighting_heights (ne_nil_of_columnCount nonempty) (columnCount aspects) widths hh
  rw [map_length_columns nonempty, map_length_rows nonempty]
  exact ⟨across.scale (Spacing.room_pos _ _), down.scale (Spacing.room_pos _ _)⟩

end

end SvgLayout
