import SvgLayout.Geometry.Point
import SvgLayout.Number.Check

/-!
# Rectangles, sizes and limits

A rectangle is a pair of corners and need not be upright: `x1 > x2` is a horizontally flipped axis.
Sizes and limits are signed for the same reason.

## Main definitions

* `Size` — a signed width and height; `Size.checked` accepts only positive ones.
* `Limit` — an interval of one axis.
* `Rect` — a pair of corners; `Rect.upright`, `Rect.union` and `Rect.bounding` forget flips.
-/

namespace SvgLayout

variable {α : Type} [Scalar α]

/-! ## Sizes -/

/-- A signed width and height; a negative component is a flipped axis. -/
@[ext]
structure Size (α : Type) where
  w : α
  h : α

namespace Size

/-- A size whose width and height are both finite and positive. The width is checked first. -/
def checked (w h : α) : Except (NumericError α) (Size α) := do
  let w ← checkPositive w
  let h ← checkPositive h
  pure ⟨w, h⟩

/-- The unsigned ratio of width to height, unless the height is zero. -/
def aspect (s : Size α) : Option α :=
  if s.h == 0.0 then none else some (Scalar.abs (s.w / s.h))

def abs (s : Size α) : Size α :=
  ⟨Scalar.abs s.w, Scalar.abs s.h⟩

def isFinite (s : Size α) : Bool :=
  Scalar.isFinite s.w && Scalar.isFinite s.h

end Size

/-! ## Limits -/

/-- An interval of one axis, from `lo` to `hi` in the axis's own direction. -/
@[ext]
structure Limit (α : Type) where
  lo : α
  hi : α

namespace Limit

def unit : Limit α :=
  ⟨0.0, 1.0⟩

/-- A list of exactly two numbers as a limit. -/
def ofList? : List α → Option (Limit α)
  | [lo, hi] => some ⟨lo, hi⟩
  | _ => none

/-- The signed length. -/
def length (l : Limit α) : α :=
  l.hi - l.lo

def isEmpty (l : Limit α) : Bool :=
  l.hi == l.lo

def middle (l : Limit α) : α :=
  (l.lo + l.hi) / 2.0

def reverse (l : Limit α) : Limit α :=
  ⟨l.hi, l.lo⟩

end Limit

/-! ## Rectangles -/

/-- A rectangle given by two opposite corners. -/
@[ext]
structure Rect (α : Type) where
  x1 : α
  y1 : α
  x2 : α
  y2 : α

namespace Rect

/-- The unit square, the space of a node that asks for no other. -/
def unit : Rect α :=
  ⟨0.0, 0.0, 1.0, 1.0⟩

/-- A list of exactly four numbers as a rectangle. -/
def ofList? : List α → Option (Rect α)
  | [x1, y1, x2, y2] => some ⟨x1, y1, x2, y2⟩
  | _ => none

def ofPoints (p q : Point α) : Rect α :=
  ⟨p.x, p.y, q.x, q.y⟩

def ofLimits (x y : Limit α) : Rect α :=
  ⟨x.lo, y.lo, x.hi, y.hi⟩

/-- The signed width. -/
def width (r : Rect α) : α :=
  r.x2 - r.x1

/-- The signed height. -/
def height (r : Rect α) : α :=
  r.y2 - r.y1

def size (r : Rect α) : Size α :=
  ⟨r.width, r.height⟩

def center (r : Rect α) : Point α :=
  ⟨(r.x1 + r.x2) / 2.0, (r.y1 + r.y2) / 2.0⟩

def p1 (r : Rect α) : Point α :=
  ⟨r.x1, r.y1⟩

def p2 (r : Rect α) : Point α :=
  ⟨r.x2, r.y2⟩

/-- The unsigned ratio of width to height, unless the height is zero. -/
def aspect (r : Rect α) : Option α :=
  r.size.aspect

/-- The same region with both axes in their own direction. -/
def upright (r : Rect α) : Rect α :=
  ⟨Scalar.min r.x1 r.x2, Scalar.min r.y1 r.y2, Scalar.max r.x1 r.x2, Scalar.max r.y1 r.y2⟩

def isFlippedX (r : Rect α) : Bool :=
  decide (r.x2 < r.x1)

def isFlippedY (r : Rect α) : Bool :=
  decide (r.y2 < r.y1)

def xLimit (r : Rect α) : Limit α :=
  ⟨r.x1, r.x2⟩

def yLimit (r : Rect α) : Limit α :=
  ⟨r.y1, r.y2⟩

/-- The smallest upright rectangle that contains both. -/
def union (r s : Rect α) : Rect α :=
  let a := r.upright
  let b := s.upright
  ⟨Scalar.min a.x1 b.x1, Scalar.min a.y1 b.y1, Scalar.max a.x2 b.x2, Scalar.max a.y2 b.y2⟩

/-- The smallest upright rectangle that contains all of a list; there is none for no rectangles. -/
def bounding : List (Rect α) → Option (Rect α)
  | [] => none
  | r :: rs => some (rs.foldl union r.upright)

def isFinite (r : Rect α) : Bool :=
  Scalar.isFinite r.x1 && Scalar.isFinite r.y1 && Scalar.isFinite r.x2 && Scalar.isFinite r.y2

end Rect

end SvgLayout
