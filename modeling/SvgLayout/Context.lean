import SvgLayout.Geometry.Box
import SvgLayout.Geometry.Fit
import SvgLayout.Geometry.Nudged
import SvgLayout.Number.Text
import SvgLayout.Spec.Basic
import SvgLayout.Style.Defaults

/-!
# Contexts

A context is a region of pixels with a logical space laid over it. A node is drawn in the context
that its spec and its parent's context determine.

## Main definitions

* `AxisMap` — the affine map of one axis to pixels, and back.
* `Context` with its maps between logical coordinates and pixels.
* `standIn` — a box aligned in a slot.
* `Context.child` — the context of a child with a given spec.
-/

namespace SvgLayout

variable {α : Type}

/-! ## One axis -/

/-- An affine map of one axis of a logical space to pixels, `scale` pixels per unit. It takes
`coordStart` to `pixelStart`. -/
@[ext]
structure AxisMap (α : Type) where
  coordStart : α
  pixelStart : α
  scale : α

namespace AxisMap

variable [Scalar α]

/-- The map of a logical interval onto an interval of pixels. An empty logical interval is mapped to
the middle of the pixels. -/
def between (coord pixels : Limit α) : AxisMap α :=
  let span := coord.length
  if span == 0.0 then ⟨coord.lo, pixels.middle, 0.0⟩
  else ⟨coord.lo, pixels.lo, pixels.length / span⟩

/-- The pixel of a coordinate. -/
def apply (m : AxisMap α) (c : α) : α :=
  m.pixelStart + (c - m.coordStart) * m.scale

/-- The coordinate of a pixel; where all coordinates share a pixel it is the first of them. -/
def invert (m : AxisMap α) (p : α) : α :=
  if m.scale == 0.0 then m.coordStart else m.coordStart + (p - m.pixelStart) / m.scale

def applyNudged (m : AxisMap α) (c : Nudged α) : α :=
  m.apply c.value + c.offset

end AxisMap

/-! ## Contexts -/

/-- A rotation of what is drawn, clockwise in pixels, about a pixel that stays in place. -/
@[ext]
structure Turn (α : Type) where
  degrees : α
  about : Point α

def Turn.text [NumberText α] (turn : Turn α) (precision : Nat) : String :=
  "rotate(" ++ formatNumber turn.degrees precision ++ " " ++
    formatNumber turn.about.x precision ++ " " ++ formatNumber turn.about.y precision ++ ")"

/-- A region of pixels, possibly flipped, with a logical space laid over it, and the rotation of the
node that is drawn there. -/
@[ext]
structure Context (α : Type) where
  pixels : Rect α
  coord : Rect α
  turn : Option (Turn α)
  precision : Nat
  /-- The determinant below which the equations of a turned box count as singular. -/
  tolerance : α

/-- A box of a signed size in a slot: the free space is divided by `align`, and a flipped size keeps
the box flipped. -/
def standIn [Scalar α] (slot : Rect α) (size : Size α) (align : Align α) : CenterBox α :=
  let room := slot.upright
  let w := Scalar.abs size.w
  let h := Scalar.abs size.h
  let left := room.x1 + align.x * (room.width - w)
  let top := room.y1 + align.y * (room.height - h)
  ⟨⟨left + w / 2.0, top + h / 2.0⟩, size⟩

namespace Context

variable [Scalar α]

/-- A logical rectangle laid over a region of pixels. -/
def new (pixels coord : Rect α) : Context α where
  pixels := pixels
  coord := coord
  turn := none
  precision := Defaults.precision
  tolerance := Defaults.tolerance

/-- The unit square laid over a canvas. -/
def root (size : Size α) : Context α :=
  new ⟨0.0, 0.0, size.w, size.h⟩ .unit

def xMap (ctx : Context α) : AxisMap α :=
  .between ctx.coord.xLimit ctx.pixels.xLimit

def yMap (ctx : Context α) : AxisMap α :=
  .between ctx.coord.yLimit ctx.pixels.yLimit

def mapPoint (ctx : Context α) (p : NudgedPoint α) : Point α :=
  ⟨ctx.xMap.applyNudged p.x, ctx.yMap.applyNudged p.y⟩

/-- The pixels of a logical rectangle, flips kept. -/
def mapRect (ctx : Context α) (r : Rect α) : Rect α :=
  ⟨ctx.xMap.apply r.x1, ctx.yMap.apply r.y1, ctx.xMap.apply r.x2, ctx.yMap.apply r.y2⟩

/-- The signed pixel extent of a logical extent. -/
def mapSize (ctx : Context α) (s : Size α) : Size α :=
  ⟨s.w * ctx.xMap.scale, s.h * ctx.yMap.scale⟩

def unmapPoint (ctx : Context α) (p : Point α) : Point α :=
  ⟨ctx.xMap.invert p.x, ctx.yMap.invert p.y⟩

def unmapRect (ctx : Context α) (r : Rect α) : Rect α :=
  .ofPoints (ctx.unmapPoint r.p1) (ctx.unmapPoint r.p2)

/-- The pixels that a spec reserves: its rectangle, or the whole space. -/
def slot (ctx : Context α) (spec : Spec α) : Rect α :=
  ctx.mapRect (spec.rect.getD ctx.coord)

/-- The box of a node in its slot, fitted to its ratio and aligned. -/
def box (ctx : Context α) (spec : Spec α) : CenterBox α :=
  let slot := ctx.slot spec
  let size := rotateFit slot.size spec.rotate spec.fixedAspect spec.expand spec.invar ctx.tolerance
  standIn slot size spec.align

/-- The context of a child with a given spec. -/
def child (ctx : Context α) (spec : Spec α) : Context α :=
  let box := ctx.box spec
  { pixels := box.toRect
    coord := spec.coordRect.getD .unit
    turn := if spec.isTurned then some ⟨spec.rotate, box.center⟩ else none
    precision := ctx.precision
    tolerance := ctx.tolerance }

omit [Scalar α] in
def format [NumberText α] (ctx : Context α) (value : α) : String :=
  formatNumber value ctx.precision

omit [Scalar α] in
/-- The transformation of the node that is drawn here, as it is written. -/
def transform? [NumberText α] (ctx : Context α) : Option String :=
  ctx.turn.map (·.text ctx.precision)

end Context

end SvgLayout
