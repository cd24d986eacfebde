import SvgLayout.Path.Basic
import SvgLayout.Style.Defaults

/-!
# Splines

A smooth cubic curve through a sequence of points. At each point the curve runs along the difference
of the point's neighbours, scaled by a tension; at the ends of an open curve, along the difference
to the only neighbour, or in a direction that is asked for.

## Main definitions

* `SplineOptions` — tension, closing, and the directions at the ends.
* `splineTangents` — the direction of the curve at each point.
* `spline` — the curve.
-/

namespace SvgLayout

/-- How a spline runs through its points. -/
structure SplineOptions (α : Type) where
  /-- The tension: zero makes straight segments, one the full difference of the neighbours. -/
  curve : α
  closed : Bool
  startDir : Option (Point α)
  endDir : Option (Point α)

variable {α : Type} [Scalar α]

/-- An open curve of the default tension. -/
def SplineOptions.plain : SplineOptions α where
  curve := Defaults.splineCurve
  closed := false
  startDir := none
  endDir := none

/-- A tangent of the same length in another direction; one without a direction changes nothing. -/
def redirect (tangent : Point α) (direction : Option (Point α)) : Point α :=
  match direction.bind Point.normalize? with
  | some unit => unit * tangent.length
  | none => tangent

/-- The neighbours of each point, where the point before the first is `before` and the one after the
last is `after`. -/
def neighbours (before after : Point α) (points : List (Point α)) : List (Point α × Point α) :=
  (before :: points).zip (points.drop 1 ++ [after])

/-- The tangents of a curve through points whose ends have the given neighbours. -/
def tangentsBetween (curve : α) (before after : Point α) (points : List (Point α)) :
    List (Point α) :=
  (neighbours before after points).map fun (before, after) => (after - before) * curve

/-- A list with its last element changed. -/
def modifyLast {β : Type} (f : β → β) (xs : List β) : List β :=
  xs.modify (xs.length - 1) f

/-- The direction of the curve at each point. -/
def splineTangents (points : List (Point α)) (options : SplineOptions α) : List (Point α) :=
  match points.head?, points.getLast? with
  | some first, some last =>
    if options.closed then
      tangentsBetween options.curve last first points
    else
      let tangents := tangentsBetween options.curve first last points
      modifyLast (redirect · options.endDir) (tangents.modifyHead (redirect · options.startDir))
  | _, _ => []

/-- The cubic between two points with their tangents. -/
def splineSegment (start stop : Point α × Point α) : PathCommand α :=
  .cubic (start.1 + start.2 / (3.0 : α)) (stop.1 - stop.2 / (3.0 : α)) stop.1

/-- The cubics between neighbouring points with their tangents. -/
def splineSegments (knots : List (Point α × Point α)) : Path α :=
  knots.zipWith splineSegment (knots.drop 1)

/-- The curve through a sequence of points: of no points it is empty, of one a lone move. -/
def spline (points : List (Point α)) (options : SplineOptions α) : Path α :=
  match points with
  | [] => []
  | [point] => [.move point]
  | first :: _ =>
    let knots := points.zip (splineTangents points options)
    if options.closed then
      .move first :: splineSegments (knots ++ knots.take 1) ++ [.close]
    else
      .move first :: splineSegments knots

end SvgLayout
