import Mathlib.LinearAlgebra.Matrix.Defs
import SvgLayout.Proofs.Layout.GridWeights

/-!
# Exchanging the axes of a grid

A grid whose rows and columns are exchanged, and whose cells ask for the inverse ratios, has the
same tracks with rows and columns exchanged, and the inverse ratio: the logarithms of its ratios are
those of the other grid, reflected and negated, so the averages that determine the weights of one
axis are those of the other one.

## Main definitions

* `tableRows` — the rows of a full table of cells.
* `dualTable` — the table with rows and columns exchanged and inverse ratios.
* `GridWeights.swap` — the weights with the axes exchanged.

## Main statements

* `gridWeights_dualTable` — the weights of the two grids.
* `solveGrid_dual` — their tracks and ratios.
-/

namespace SvgLayout

open Finset Matrix

open scoped BigOperators

variable {r c : ℕ}

/-! ## Cells -/

def tableRows {β : Type} (table : Matrix (Fin r) (Fin c) β) : List (List β) :=
  List.ofFn fun i => List.ofFn (table i)

@[simp] theorem length_tableRows {β : Type} (table : Matrix (Fin r) (Fin c) β) :
    (tableRows table).length = r := by
  simp [tableRows]

theorem columnCount_tableRows {β : Type} (table : Matrix (Fin r) (Fin c) β) (rows : r ≠ 0) :
    columnCount (tableRows table) = c := by
  have row : ∀ row ∈ tableRows table, row.length = c := by
    rw [tableRows, List.forall_mem_ofFn_iff]
    exact fun i => List.length_ofFn
  have first : List.ofFn (table ⟨0, Nat.pos_of_ne_zero rows⟩) ∈ tableRows table :=
    List.mem_ofFn.mpr ⟨_, rfl⟩
  refine Nat.le_antisymm (columnCount_le fun long h => (row long h).le) ?_
  exact (row _ first).ge.trans (length_le_columnCount first)

theorem columnCount_tableRows_eq_zero {β : Type} (table : Matrix (Fin r) (Fin c) β)
    (degenerate : ¬(r ≠ 0 ∧ c ≠ 0)) : columnCount (tableRows table) = 0 := by
  by_cases rows : r = 0
  · have empty : tableRows table = [] :=
      List.length_eq_zero_iff.mp ((length_tableRows table).trans rows)
    rw [empty]
    rfl
  · rw [columnCount_tableRows table rows]
    exact not_not.mp fun columns => degenerate ⟨rows, columns⟩

theorem getElem?_tableRows {β : Type} (table : Matrix (Fin r) (Fin c) β) (i j : ℕ) :
    ((tableRows table).getD i [])[j]? =
      if h : i < r ∧ j < c then some (table ⟨i, h.1⟩ ⟨j, h.2⟩) else none := by
  by_cases row : i < r
  · simp [tableRows, List.getD, row]
  · simp [tableRows, List.getD, row]

/-- The table with rows and columns exchanged, whose cells ask for the inverse ratios. -/
noncomputable def dualTable (table : Matrix (Fin r) (Fin c) (Option ℝ)) :
    Matrix (Fin c) (Fin r) (Option ℝ) :=
  tableᵀ.map (Option.map (·⁻¹))

theorem cellAspect_inv (ratio : Option ℝ) :
    cellAspect (some (ratio.map (·⁻¹))) = (cellAspect (some ratio))⁻¹ := by
  cases ratio with
  | none => simp [cellAspect]
  | some a =>
    by_cases positive : 0 < a
    · simp [cellAspect, Option.filter, positive]
    · simp [cellAspect, Option.filter, positive]

/-- The logarithms that the cells ask for are reflected and negated. -/
theorem askedLog_dualTable (table : Matrix (Fin r) (Fin c) (Option ℝ)) (i j : ℕ) :
    askedLog (tableRows (dualTable table)) j i = -askedLog (tableRows table) i j := by
  rw [askedLog, askedLog, ← Real.log_inv, askedAspect, askedAspect, getElem?_tableRows,
    getElem?_tableRows]
  by_cases inside : i < r ∧ j < c
  · rw [dif_pos inside, dif_pos inside.symm, ← cellAspect_inv]
    rfl
  · rw [dif_neg inside, dif_neg (mt And.symm inside)]
    simp [cellAspect]

/-! ## Weights -/

def GridWeights.swap (weights : GridWeights ℝ) : GridWeights ℝ :=
  ⟨weights.heights, weights.widths, -weights.meanLog⟩

theorem GridWeights.contentAspect_swap (weights : GridWeights ℝ) :
    weights.swap.contentAspect = weights.contentAspect⁻¹ := by
  have negated : -weights.meanLog - Scalar.mean (weights.heights.map Scalar.log) +
        Scalar.mean (weights.widths.map Scalar.log) =
      -(weights.meanLog - Scalar.mean (weights.widths.map Scalar.log) +
        Scalar.mean (weights.heights.map Scalar.log)) := by
    ring
  calc weights.swap.contentAspect = Real.exp (-weights.meanLog -
          Scalar.mean (weights.heights.map Scalar.log) +
          Scalar.mean (weights.widths.map Scalar.log)) := rfl
    _ = weights.contentAspect⁻¹ := by
      rw [negated, Real.exp_neg]
      rfl

/-- The averages of the columns are those of the rows of the dual table, negated. -/
theorem gridWeights_dualTable (table : Matrix (Fin r) (Fin c) (Option ℝ))
    (widths heights : Option (List ℝ)) :
    gridWeights r (tableRows (dualTable table)) heights widths =
      (gridWeights c (tableRows table) widths heights).swap := by
  have mean : 𝔼 j ∈ range c, 𝔼 i ∈ range r, askedLog (tableRows (dualTable table)) j i =
      -𝔼 i ∈ range r, 𝔼 j ∈ range c, askedLog (tableRows table) i j := by
    simp only [askedLog_dualTable, expect_neg_distrib]
    rw [expect_comm]
  simp only [gridWeights_eq, length_tableRows, mean, GridWeights.swap]
  simp only [askedLog_dualTable, expect_neg_distrib, sub_neg_eq_add, neg_add_eq_sub]

/-! ## Tracks -/

theorem solveGrid_of_columnCount_eq_zero {aspects : List (List (Option ℝ))}
    (empty : columnCount aspects = 0) (widths heights : Option (List ℝ))
    (spacing : GridSpacing ℝ) : solveGrid aspects widths heights spacing = ⟨[], [], .none⟩ := by
  simp [solveGrid, empty]

/-- Solving a table of cells with rows and columns exchanged and inverse ratios, the weights and
gaps of the axes exchanged as well, gives the same tracks for the other axis each, and the inverse
ratio. There is a ratio exactly if there is a cell. -/
theorem solveGrid_dual (table : Matrix (Fin r) (Fin c) (Option ℝ))
    (widths heights : Option (List ℝ)) (spacing : GridSpacing ℝ) :
    let layout := solveGrid (tableRows table) widths heights spacing
    let other :=
      solveGrid (tableRows (dualTable table)) heights widths ⟨spacing.row, spacing.column⟩
    other.columns = layout.rows ∧ other.rows = layout.columns ∧
      other.aspect = layout.aspect.map (·⁻¹) ∧ (layout.aspect.isSome ↔ r ≠ 0 ∧ c ≠ 0) := by
  intro layout other
  by_cases proper : r ≠ 0 ∧ c ≠ 0
  · have columns := columnCount_tableRows table proper.1
    have rows := columnCount_tableRows (dualTable table) proper.2
    have hlayout : layout = _ := solveGrid_eq (columns.trans_ne proper.2) widths heights spacing
    have hother : other = _ :=
      solveGrid_eq (rows.trans_ne proper.1) heights widths ⟨spacing.row, spacing.column⟩
    rw [rows, length_tableRows, gridWeights_dualTable] at hother
    rw [columns, length_tableRows] at hlayout
    rw [hlayout, hother]
    refine ⟨rfl, rfl, ?_, by simp [proper]⟩
    rw [Option.map_some, GridWeights.contentAspect_swap, inv_div, div_mul_eq_div_div,
      inv_mul_eq_div]
  -- without a cell neither grid has tracks, even if it has rows
  · have hlayout : layout = _ := solveGrid_of_columnCount_eq_zero
      (columnCount_tableRows_eq_zero table proper) widths heights spacing
    have hother : other = _ := solveGrid_of_columnCount_eq_zero
      (columnCount_tableRows_eq_zero (dualTable table) (mt And.symm proper)) heights widths _
    rw [hlayout, hother]
    exact ⟨rfl, rfl, rfl, by simp [proper]⟩

end SvgLayout
