import SvgLayout.Geometry.Rect

/-!
# Other descriptions of a rectangle

A rectangle is also a corner and a size, a centre and a size, or a centre and half extents. All of
them are signed, so a flipped rectangle stays flipped.

## Main definitions

* `CornerBox`, `CenterBox`, `RadialBox`, each with `toRect` and a reading of a `Rect`.
-/

namespace SvgLayout

variable {α : Type} [Scalar α]

/-- A first corner and a signed size. -/
@[ext]
structure CornerBox (α : Type) where
  x : α
  y : α
  w : α
  h : α

/-- A centre and a signed size. -/
@[ext]
structure CenterBox (α : Type) where
  center : Point α
  size : Size α

/-- A centre and signed half extents. -/
@[ext]
structure RadialBox (α : Type) where
  center : Point α
  rx : α
  ry : α

/-- The rectangle that starts at the corner. -/
def CornerBox.toRect (b : CornerBox α) : Rect α :=
  ⟨b.x, b.y, b.x + b.w, b.y + b.h⟩

/-- The rectangle of a size around a centre. -/
def CenterBox.toRect (b : CenterBox α) : Rect α :=
  let hw := b.size.w / 2.0
  let hh := b.size.h / 2.0
  ⟨b.center.x - hw, b.center.y - hh, b.center.x + hw, b.center.y + hh⟩

/-- The rectangle that reaches the half extents to both sides of the centre. -/
def RadialBox.toRect (b : RadialBox α) : Rect α :=
  ⟨b.center.x - b.rx, b.center.y - b.ry, b.center.x + b.rx, b.center.y + b.ry⟩

namespace Rect

def toCornerBox (r : Rect α) : CornerBox α :=
  ⟨r.x1, r.y1, r.width, r.height⟩

def toCenterBox (r : Rect α) : CenterBox α :=
  ⟨r.center, r.size⟩

def toRadialBox (r : Rect α) : RadialBox α :=
  ⟨r.center, r.width / 2.0, r.height / 2.0⟩

end Rect

end SvgLayout
