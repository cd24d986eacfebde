import SvgLayout.Geometry.Point

/-!
# Nudged coordinates

A coordinate of a logical space together with a distance in pixels. The value goes through the
mapping to pixels and the nudge is added afterwards, so it is the same distance at any scale.

## Main definitions

* `Nudged`, `NudgedPoint` with their componentwise arithmetic.
* `Nudged.toNumber?`, `NudgedPoint.toPoint?` — the plain value when nothing is nudged.
-/

namespace SvgLayout

variable {α : Type} [Scalar α]

/-- A logical value and a nudge in pixels. -/
@[ext]
structure Nudged (α : Type) where
  value : α
  offset : α

namespace Nudged

def ofNumber (value : α) : Nudged α :=
  ⟨value, 0.0⟩

/-- The value, if it is not nudged. -/
def toNumber? (n : Nudged α) : Option α :=
  if n.offset == 0.0 then some n.value else none

instance : Add (Nudged α) where
  add m n := ⟨m.value + n.value, m.offset + n.offset⟩

instance : Sub (Nudged α) where
  sub m n := ⟨m.value - n.value, m.offset - n.offset⟩

instance : Neg (Nudged α) where
  neg n := ⟨-n.value, -n.offset⟩

instance : HAdd (Nudged α) α (Nudged α) where
  hAdd n k := ⟨n.value + k, n.offset⟩

instance : HMul (Nudged α) α (Nudged α) where
  hMul n k := ⟨n.value * k, n.offset * k⟩

end Nudged

/-- A point with a nudge for each axis. -/
@[ext]
structure NudgedPoint (α : Type) where
  x : Nudged α
  y : Nudged α

namespace NudgedPoint

def ofPoint (p : Point α) : NudgedPoint α :=
  ⟨.ofNumber p.x, .ofNumber p.y⟩

/-- A logical point nudged by a displacement in pixels. -/
def nudge (p offset : Point α) : NudgedPoint α :=
  ⟨⟨p.x, offset.x⟩, ⟨p.y, offset.y⟩⟩

/-- The point, if it is nudged on neither axis. -/
def toPoint? (p : NudgedPoint α) : Option (Point α) := do
  let x ← p.x.toNumber?
  let y ← p.y.toNumber?
  pure ⟨x, y⟩

instance : Add (NudgedPoint α) where
  add p q := ⟨p.x + q.x, p.y + q.y⟩

end NudgedPoint

end SvgLayout
