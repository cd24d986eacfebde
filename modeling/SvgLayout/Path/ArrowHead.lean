import SvgLayout.Geometry.Point

/-!
# Arrow heads

The three corners of an arrow head on the unit circle. The tip lies in the direction of the arrow
and the other two symmetrically behind it, so that the angle at the tip is twice the given one.

## Main definitions

* `HeadCorners`, `headCorners`.
-/

namespace SvgLayout

structure HeadCorners (α : Type) where
  left : Point α
  tip : Point α
  right : Point α

def HeadCorners.map {α : Type} (f : Point α → Point α) (c : HeadCorners α) : HeadCorners α :=
  ⟨f c.left, f c.tip, f c.right⟩

/-- The corners on the unit circle of a head in a direction, with half of the angle at its tip; all
angles are in degrees. -/
def headCorners {α : Type} [Scalar α] (direction halfAngle : α) : HeadCorners α :=
  let back := direction + 180.0
  ⟨.atAngle (back - 2.0 * halfAngle), .atAngle direction, .atAngle (back + 2.0 * halfAngle)⟩

end SvgLayout
