import SvgLayout.Element.Basic
import SvgLayout.Element.Measured

/-!
# Frames

A frame lays a space over itself in which its child is the unit square. Its insets are given in
widths of the child; the vertical ones are scaled by the child's ratio, so that a gap is equally
wide on every side.

## Main definitions

* `inset` — the unit square grown by an inset.
* `Frame.borderRect`, `Frame.outerRect`, `Frame.outerAspect`, `Frame.sizing`.
-/

namespace SvgLayout

variable {α ε : Type} [Scalar α]

/-- A number of child widths as an extent of the child's unit square; a child without a ratio counts
as square. -/
def insetSize (amount : α) (childAspect : Option α) : Size α :=
  ⟨amount, amount * childAspect.getD 1.0⟩

/-- The child's unit square grown on every side. -/
def inset (amount : α) (childAspect : Option α) : Rect α :=
  let s := insetSize amount childAspect
  ⟨-s.w, -s.h, 1.0 + s.w, 1.0 + s.h⟩

namespace Frame

/-- The rectangle of the outline, around the padding. -/
def borderRect (frame : Frame α ε) (childAspect : Option α) : Rect α :=
  inset frame.padding childAspect

/-- The rectangle of the whole frame, around the margin, which is the frame's space. -/
def outerRect (frame : Frame α ε) (childAspect : Option α) : Rect α :=
  inset (frame.padding + frame.margin) childAspect

/-- The ratio of the whole frame: a given one, or that of the child with its insets. -/
def outerAspect (spec : Spec α) (frame : Frame α ε) (childAspect : Option α) : Option α :=
  spec.fixedAspect.or <| childAspect.map fun aspect =>
    let s := insetSize (frame.padding + frame.margin) childAspect
    aspect * (1.0 + 2.0 * s.w) / (1.0 + 2.0 * s.h)

/-- What a frame measures. A given ratio needs no child. -/
def sizing (spec : Spec α) (frame : Frame α (Measured α)) : Sizing α where
  aspect :=
    match spec.fixedAspect with
    | some aspect => pure (some aspect)
    | none => frame.outerAspect spec <$> frame.child.layoutAspect
  autoCoord := (fun childAspect => some (frame.outerRect childAspect)) <$> frame.child.layoutAspect
  autoLayout :=
    (fun childAspect =>
      ⟨frame.outerAspect spec childAspect, some (frame.outerRect childAspect)⟩) <$>
        frame.child.layoutAspect

end Frame

end SvgLayout
