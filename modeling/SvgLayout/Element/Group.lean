import SvgLayout.Element.Basic
import SvgLayout.Element.Measured

/-!
# Groups

A group may take the ratio of its only child, and a space that just holds its children. Children
count as if they were not turned.

## Main definitions

* `placedRect` — where a spec lands in the space around it.
* `specBounds` — the bounding box of several specs in the unit square.
* `Group.autoLayout`, `Group.sizing`.
-/

namespace SvgLayout

variable {α : Type} [Scalar α]

/-- Where a resolved spec lands in the space `coord`, in its coordinates. -/
def placedRect (spec : Spec α) (coord : Rect α) : Rect α :=
  let ctx := Context.new coord coord
  ctx.unmapRect (ctx.child spec).pixels

/-- The bounding box of where resolved specs land in the unit square. -/
def specBounds (specs : List (Spec α)) : Option (Rect α) :=
  Rect.bounding (specs.map (placedRect · .unit))

namespace Group

/-- The specs of the children when they are not turned. -/
def uprightSpecs (group : Group (Measured α)) : Except (LayoutError α) (List (Spec α)) :=
  group.children.mapM Measured.uprightSpec

/-- The ratio of a group whose children are placed by `specs`. A derived ratio is that of the only
child in the group's space, which is the unit square if nothing else is known. -/
def aspectOf (spec : Spec α) (specs : List (Spec α)) (bounds : Option (Rect α)) : Option α :=
  match specs, spec.hasAutoAspect with
  | [child], true => (placedRect child ((spec.coordRect.or bounds).getD .unit)).aspect
  | _, _ => spec.fixedAspect

/-- The ratio and the derived space of a group. The space is derived if it is asked for and
`withCoord` is set, or if the ratio depends on it. A derived ratio takes exactly one child. -/
def autoLayout (spec : Spec α) (group : Group (Measured α)) (withCoord : Bool) :
    Except (LayoutError α) (AutoLayout α) :=
  let autoAspect := spec.hasAutoAspect
  let autoCoord := spec.hasAutoCoord && (withCoord || autoAspect)
  if autoAspect && group.children.length != 1 then
    throw (.childCount "Group" 1 group.children.length)
  else if !autoAspect && !autoCoord then
    pure ⟨spec.fixedAspect, none⟩
  else do
    let specs ← group.uprightSpecs
    let bounds := if autoCoord then specBounds specs else none
    pure ⟨aspectOf spec specs bounds, bounds⟩

def sizing (spec : Spec α) (group : Group (Measured α)) : Sizing α where
  aspect := AutoLayout.aspect <$> autoLayout spec group false
  autoCoord := specBounds <$> group.uprightSpecs
  autoLayout := autoLayout spec group true

end Group

end SvgLayout
