import SvgLayout.Scalar

/-!
# Points

A point of the plane, in a logical space or in pixels. The same type holds displacements and
directions. The y axis points down, so positive angles turn clockwise.

## Main definitions

* `Point` with its sums, multiples and `Point.midpoint`.
* `Point.length`, `Point.normalize?` — the length of a displacement and its unit vector.
* `Point.atAngle` — the point of the unit circle in a direction.
-/

namespace SvgLayout

/-- A point, or the displacement between two points. -/
@[ext]
structure Point (α : Type) where
  x : α
  y : α

namespace Point

variable {α : Type} [Scalar α]

instance : Add (Point α) where
  add p q := ⟨p.x + q.x, p.y + q.y⟩

instance : Sub (Point α) where
  sub p q := ⟨p.x - q.x, p.y - q.y⟩

instance : HMul (Point α) α (Point α) where
  hMul p k := ⟨p.x * k, p.y * k⟩

instance : HDiv (Point α) α (Point α) where
  hDiv p k := ⟨p.x / k, p.y / k⟩

@[simp] theorem add_x (p q : Point α) : (p + q).x = p.x + q.x := rfl
@[simp] theorem add_y (p q : Point α) : (p + q).y = p.y + q.y := rfl
@[simp] theorem sub_x (p q : Point α) : (p - q).x = p.x - q.x := rfl
@[simp] theorem sub_y (p q : Point α) : (p - q).y = p.y - q.y := rfl
@[simp] theorem mul_x (p : Point α) (k : α) : (p * k).x = p.x * k := rfl
@[simp] theorem mul_y (p : Point α) (k : α) : (p * k).y = p.y * k := rfl
@[simp] theorem div_x (p : Point α) (k : α) : (p / k).x = p.x / k := rfl
@[simp] theorem div_y (p : Point α) (k : α) : (p / k).y = p.y / k := rfl

def origin : Point α :=
  ⟨0.0, 0.0⟩

def midpoint (p q : Point α) : Point α :=
  ⟨(p.x + q.x) / 2.0, (p.y + q.y) / 2.0⟩

/-- A displacement stretched by a factor for each axis. -/
def stretch (p factors : Point α) : Point α :=
  ⟨p.x * factors.x, p.y * factors.y⟩

def length (p : Point α) : α :=
  Scalar.sqrt (p.x * p.x + p.y * p.y)

/-- The displacement of length one in the same direction, unless the reciprocal of the length is
not a positive finite number. -/
def normalize? (p : Point α) : Option (Point α) :=
  let reciprocal := 1.0 / p.length
  if Scalar.isPositive reciprocal then some (p * reciprocal) else none

/-- The displacement of length one in the same direction; the origin where there is none. -/
def normalizeOrOrigin (p : Point α) : Point α :=
  p.normalize?.getD origin

/-- The point of the unit circle at an angle in degrees, clockwise from the x axis. -/
def atAngle (degrees : α) : Point α :=
  let angle := Scalar.radians degrees
  ⟨Scalar.cos angle, Scalar.sin angle⟩

end Point

end SvgLayout
