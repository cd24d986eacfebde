import SvgLayout.Layout.Tracks

/-!
# Choosing the tracks of a grid

Column widths and row heights are chosen so that the cells come as close as they can to the ratios
they ask for. In logarithms the condition `width / height = ratio` of a cell is a difference, and
the least-squares solution is given by the means of the rows and columns. It is exact when the
ratios factor into one number for each column and one for each row.

## Main definitions

* `logAspects` — the logarithms of the ratios, filled up to a rectangle.
* `GridWeights`, `gridWeights` — the widths and heights, each summing to one.
* `solveGrid` — the tracks and the ratio of the whole.
-/

namespace SvgLayout

variable {α : Type}

/-- The tracks of a grid on the unit axes, and the ratio of the whole, gaps included. -/
structure GridLayout (α : Type) where
  columns : List (Limit α)
  rows : List (Limit α)
  aspect : Option α

/-- The gap between columns as a fraction of the width, and the gap between rows as a fraction of
the height. -/
structure GridSpacing (α : Type) where
  column : α
  row : α

/-- The widths of the columns and the heights of the rows, both with the sum one, and the mean of
the logarithms of all ratios. -/
structure GridWeights (α : Type) where
  widths : List α
  heights : List α
  meanLog : α

variable [Scalar α]

/-- The number of columns that a ragged list of rows needs. -/
def columnCount {β : Type} (rows : List (List β)) : Nat :=
  (rows.map List.length).foldl Nat.max 0

/-- The logarithm of the ratio of a cell. A cell that is missing, has no ratio or none above zero
counts as square. -/
def logAspect (cell : Option (Option α)) : α :=
  match cell.join with
  | some aspect => if 0.0 < aspect then Scalar.log aspect else 0.0
  | none => 0.0

/-- The logarithms of the ratios, every row filled up to `columns` cells. -/
def logAspects (columns : Nat) (aspects : List (List (Option α))) : List (List α) :=
  aspects.map fun row => (List.range columns).map fun j => logAspect row[j]?

/-- Weights scaled to the sum one. -/
def normalize (weights : List α) : List α :=
  let total := Scalar.sum weights
  weights.map (· / total)

def column (rows : List (List α)) (j : Nat) : List α :=
  rows.map fun row => row.getD j 0.0

/-- The weights of the tracks: those given on an axis, or else those that fit the ratios best. -/
def gridWeights (columns : Nat) (aspects : List (List (Option α)))
    (widths heights : Option (List α)) : GridWeights α :=
  let logs := logAspects columns aspects
  let meanLog := Scalar.mean logs.flatten
  let columnLogs := (List.range columns).map fun j => Scalar.mean (column logs j) - meanLog
  let rowLogs := logs.map fun row => meanLog - Scalar.mean row
  { widths := normalize (widths.getD (columnLogs.map Scalar.exp))
    heights := normalize (heights.getD (rowLogs.map Scalar.exp))
    meanLog := meanLog }

/-- The ratio of the cells together, without gaps: with it the mean of the logarithms of their
ratios is the one that is asked for. -/
def GridWeights.contentAspect (weights : GridWeights α) : α :=
  Scalar.exp (weights.meanLog - Scalar.mean (weights.widths.map Scalar.log) +
    Scalar.mean (weights.heights.map Scalar.log))

/-- The tracks of a ragged matrix of ratios. Given weights replace those of an axis. -/
def solveGrid (aspects : List (List (Option α))) (widths heights : Option (List α))
    (spacing : GridSpacing α) : GridLayout α :=
  let columns := columnCount aspects
  if aspects.isEmpty || columns == 0 then
    ⟨[], [], none⟩
  else
    let weights := gridWeights columns aspects widths heights
    let across := Spacing.resolve spacing.column columns
    let down := Spacing.resolve spacing.row aspects.length
    let aspect := weights.contentAspect * down.room / across.room
    { columns := tracks (weights.widths.map (· * across.room)) across.gap
      rows := tracks (weights.heights.map (· * down.room)) down.gap
      aspect := if Scalar.isFinite aspect then some aspect else none }

end SvgLayout
