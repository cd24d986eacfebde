import SvgLayout.Element.Fold
import SvgLayout.Element.Frame
import SvgLayout.Element.Grid
import SvgLayout.Element.Group
import SvgLayout.Element.Stack

/-!
# Measuring trees

Every node of a tree is measured from the measures of its children.

## Main definitions

* `Shape.sizing` — one step.
* `Element.measured` — a whole tree.
* `Element.aspect`, `Element.layoutAspect`, `Element.autoCoord`, `Element.autoLayout`,
  `Element.resolvedSpec` — what a node measures.
* `Element.rect` — where a node lands in its parent.
* `Element.stackLayout?`, `Element.gridLayout?` — the layout of a container.
-/

namespace SvgLayout

variable {α : Type} [Scalar α]

/-- The ratio of a shape without children: a given one, or for a text of some width that width. -/
def Primitive.aspect (spec : Spec α) : Primitive α → Option α
  | text _ width => spec.fixedAspect.or (if 0.0 < width then some width else none)
  | _ => spec.fixedAspect

/-- What a node measures, from its spec and the measures of its children. -/
def Shape.sizing (spec : Spec α) : Shape α (Measured α) → Sizing α
  | primitive p => .ofAspect (pure (p.aspect spec))
  | arrow _ => .ofAspect (pure spec.fixedAspect)
  | group g => g.sizing spec
  | frame f => f.sizing spec
  | stack s => s.sizing spec
  | grid g => g.sizing spec

namespace Element

def measured : Element α → Measured α :=
  fold fun spec _ shape => ⟨spec, (shape.map Prod.snd).sizing spec⟩

/-- The shape of a node with its children measured. -/
def measuredShape (e : Element α) : Shape α (Measured α) :=
  e.shape.map measured

/-- A node is measured from the measures of its children. -/
theorem measured_eq (e : Element α) :
    e.measured = ⟨e.spec, e.measuredShape.sizing e.spec⟩ := by
  rw [measured, fold_eq, Shape.map_map]
  rfl

def aspect (e : Element α) : Except (LayoutError α) (Option α) :=
  e.measured.sizing.aspect

/-- The ratio a parent plans with. -/
def layoutAspect (e : Element α) : Except (LayoutError α) (Option α) :=
  e.measured.layoutAspect

/-- The space derived from the content of the node. -/
def autoCoord (e : Element α) : Except (LayoutError α) (Option (Rect α)) :=
  e.measured.sizing.autoCoord

/-- The ratio and, as far as it is asked for, the derived space. -/
def autoLayout (e : Element α) : Except (LayoutError α) (AutoLayout α) :=
  e.measured.sizing.autoLayout

/-- The spec with everything derived filled in. -/
def resolvedSpec (e : Element α) : Except (LayoutError α) (Spec α) :=
  e.measured.resolvedSpec

/-- Where the node lands in a context, in its coordinates. -/
def rect (e : Element α) (ctx : Context α) : Except (LayoutError α) (Rect α) :=
  (fun spec => ctx.unmapRect (ctx.child spec).pixels) <$> e.resolvedSpec

/-- The layout of a stack; other nodes have none. -/
def stackLayout? (e : Element α) : Option (Except (LayoutError α) (StackLayout α)) :=
  match e.measuredShape with
  | .stack s => some (s.layout e.spec)
  | _ => none

/-- The layout of a grid; other nodes have none. -/
def gridLayout? (e : Element α) : Option (Except (LayoutError α) (GridLayout α)) :=
  match e.measuredShape with
  | .grid g => some g.layout
  | _ => none

end Element

end SvgLayout
