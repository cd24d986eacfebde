import SvgLayout.Element.Basic
import SvgLayout.Element.Measured

/-!
# Grids

A grid measures its children and places each of them in the cell of its row and column.

## Main definitions

* `Grid.checkWeights` — the conditions on given weights.
* `Grid.layout`, `Grid.sizing`.
* `Grid.seated` — the children in their cells.
-/

namespace SvgLayout

variable {α ε : Type} [Scalar α]

namespace Grid

/-- Given weights must be finite and positive, one for each track. -/
def checkWeights (axis : String) (weights : Option (List α)) (count : Nat) :
    Except (LayoutError α) Unit :=
  match weights with
  | none => pure ()
  | some ws =>
    if ws.length = count ∧ ws.all Scalar.isPositive then pure ()
    else throw (.weightCount "Grid" axis count ws.length)

/-- The tracks and the ratio of the whole. -/
def layout (grid : Grid α (Measured α)) : Except (LayoutError α) (GridLayout α) := do
  checkWeights "column" grid.widths (columnCount grid.rows)
  checkWeights "row" grid.heights grid.rows.length
  let aspects ← grid.rows.mapM (List.mapM Measured.layoutAspect)
  pure (solveGrid aspects grid.widths grid.heights grid.spacing)

/-- What a grid measures. A given ratio needs no children. -/
def sizing (spec : Spec α) (grid : Grid α (Measured α)) : Sizing α :=
  .ofAspect <|
    match spec.fixedAspect with
    | some aspect => pure (some aspect)
    | none => GridLayout.aspect <$> grid.layout

/-- The children row by row, each changed by `place` to take its cell. -/
def seated (place : (Spec α → Spec α) → ε → ε) (grid : Grid α ε) (layout : GridLayout α) : List ε :=
  (grid.rows.zip layout.rows).flatMap fun (row, y) =>
    row.zipWith (fun child x => place (·.withRect (.ofLimits x y)) child) layout.columns

end Grid

end SvgLayout
