import SvgLayout.Geometry.Rect
import SvgLayout.Path.Basic
import SvgLayout.Style.Basic

/-!
# Rounded rectangles

The outline of a rectangle with a radius for each corner, clockwise from the top edge. Every radius
is brought between zero and half of the shorter side, so radii that are too large make a pill or a
circle. An edge or an arc that has no extent is left out.

## Main definitions

* `clampRadii` — the radii that are drawn.
* `roundedRect` — the outline.
-/

namespace SvgLayout

variable {α : Type} [Scalar α]

/-- The radii that fit into an upright rectangle. -/
def clampRadii (r : Rect α) (radii : Corners α) : Corners α :=
  let limit := Scalar.max (Scalar.min r.width r.height / 2.0) 0.0
  radii.map fun radius => Scalar.clamp radius 0.0 limit

/-- A straight edge, unless it would not lead forward. -/
def edge (forward : Bool) (target : Point α) : Path α :=
  if forward then [.line target] else []

/-- The quarter of a circle of radius `r`, unless the corner is sharp. -/
def corner (r : α) (target : Point α) : Path α :=
  if 0.0 < r then [.arc r r 0.0 false true target] else []

/-- The outline of a rectangle with rounded corners, clockwise. -/
def roundedRect (rect : Rect α) (radii : Corners α) : Path α :=
  let r := rect.upright
  let c := clampRadii r radii
  let topStart := r.x1 + c.topLeft
  let topEnd := r.x2 - c.topRight
  let rightStart := r.y1 + c.topRight
  let rightEnd := r.y2 - c.bottomRight
  let bottomStart := r.x2 - c.bottomRight
  let bottomEnd := r.x1 + c.bottomLeft
  let leftStart := r.y2 - c.bottomLeft
  let leftEnd := r.y1 + c.topLeft
  [.move ⟨topStart, r.y1⟩] ++
  edge (decide (topStart < topEnd)) ⟨topEnd, r.y1⟩ ++
  corner c.topRight ⟨r.x2, rightStart⟩ ++
  edge (decide (rightStart < rightEnd)) ⟨r.x2, rightEnd⟩ ++
  corner c.bottomRight ⟨bottomStart, r.y2⟩ ++
  edge (decide (bottomEnd < bottomStart)) ⟨bottomEnd, r.y2⟩ ++
  corner c.bottomLeft ⟨r.x1, leftStart⟩ ++
  edge (decide (leftEnd < leftStart)) ⟨r.x1, leftEnd⟩ ++
  corner c.topLeft ⟨topStart, r.y1⟩ ++
  [.close]

end SvgLayout
