import SvgLayout.Context
import SvgLayout.Error

/-!
# Measured nodes

A parent lays out its children by what they measure: the ratio each of them wants, and the space
each derives from its own content. Measuring fails where a tree cannot be laid out.

## Main definitions

* `AutoLayout`, `Sizing` — what a node measures.
* `Measured` — a node's spec with its sizing; `layoutAspect`, `resolvedSpec`, `uprightSpec`.
* `Spec.resolve` — a spec with everything derived filled in.
-/

namespace SvgLayout

variable {α : Type}

/-- The ratio that a node wants, and the space derived from its content if its spec asks for it. -/
@[ext]
structure AutoLayout (α : Type) where
  aspect : Option α
  coord : Option (Rect α)

/-- What a node measures. The space is derived from its content in `autoCoord` whether it is asked
for or not, in `autoLayout` only if it is. -/
structure Sizing (α : Type) where
  aspect : Except (LayoutError α) (Option α)
  autoCoord : Except (LayoutError α) (Option (Rect α))
  autoLayout : Except (LayoutError α) (AutoLayout α)

/-- A node as its parent measures it. -/
structure Measured (α : Type) where
  spec : Spec α
  sizing : Sizing α

/-- The sizing of a node that wants a ratio and derives no space. -/
def Sizing.ofAspect (aspect : Except (LayoutError α) (Option α)) : Sizing α where
  aspect := aspect
  autoCoord := pure none
  autoLayout := (⟨·, none⟩) <$> aspect

/-- The spec with the ratio that was measured, and with the derived space if it asks for one. -/
def Spec.resolve (spec : Spec α) (layout : AutoLayout α) : Spec α :=
  { spec with
    aspect := layout.aspect.map .fixed
    coord := if spec.hasAutoCoord then layout.coord.map .rect else spec.coord }

namespace Measured

/-- The spec with everything derived filled in. -/
def resolvedSpec (m : Measured α) : Except (LayoutError α) (Spec α) :=
  m.spec.resolve <$> m.sizing.autoLayout

variable [Scalar α]

/-- The resolved spec of the node when it is not turned. -/
def uprightSpec (m : Measured α) : Except (LayoutError α) (Spec α) :=
  (fun spec => { spec with rotate := 0.0 }) <$> m.resolvedSpec

/-- The ratio a parent plans with: that of the bounding box if the node is rotated. -/
def layoutAspect (m : Measured α) : Except (LayoutError α) (Option α) :=
  let planned := fun aspect =>
    if m.spec.isRotated then rotatedAspect aspect m.spec.rotate else aspect
  Option.map planned <$> m.sizing.aspect

end Measured

end SvgLayout
