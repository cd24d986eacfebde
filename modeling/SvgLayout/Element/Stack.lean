import SvgLayout.Element.Basic
import SvgLayout.Element.Measured
import SvgLayout.Layout.StackSolver

/-!
# Stacks

A stack measures its children along its main axis and seats each of them in a range of it.

## Main definitions

* `Direction.mainRatio` — ratios of width to height as ratios of main to cross length, and back.
* `Stack.layout`, `Stack.sizing`.
* `Stack.seat` — the spec of a child in its range.
* `Stack.seated` — the children in their ranges.
-/

namespace SvgLayout

variable {α ε : Type} [Scalar α]

/-- A ratio of width to height as one of main to cross length, or the other way round. -/
def Direction.mainRatio : Direction → α → α
  | horizontal, aspect => aspect
  | vertical, aspect => 1.0 / aspect

/-- The part of the unit square over a range of the main axis. -/
def Direction.slot (range : Limit α) : Direction → Rect α
  | vertical => ⟨0.0, range.lo, 1.0, range.hi⟩
  | horizontal => ⟨range.lo, 0.0, range.hi, 1.0⟩

omit [Scalar α] in
/-- An alignment with another anchor on the cross axis. -/
def Direction.alignCross (anchor : α) (align : Align α) : Direction → Align α
  | vertical => { align with x := anchor }
  | horizontal => { align with y := anchor }

namespace Stack

/-- What a child asks for; its ratio counts if it is positive and the child expands. -/
def item (stack : Stack α ε) (child : StackChild α (Measured α)) :
    Except (LayoutError α) (StackItem α) := do
  let aspect ← if child.expand then child.element.layoutAspect else pure none
  let positive := aspect.filter fun a => decide (0.0 < a)
  pure ⟨child.size, positive.map stack.direction.mainRatio⟩

/-- The ranges of the children and the ratio of the whole. -/
def layout (spec : Spec α) (stack : Stack α (Measured α)) :
    Except (LayoutError α) (StackLayout α) := do
  let items ← stack.children.mapM stack.item
  pure (solveStack items stack.spacing (spec.fixedAspect.map stack.direction.mainRatio))

/-- The ratio of width to height of a stack with the given layout. -/
def aspectOf (stack : Stack α ε) (layout : StackLayout α) : Option α :=
  (layout.length.filter fun l => decide (0.0 < l)).map stack.direction.mainRatio

/-- What a stack measures. A given ratio needs no children. -/
def sizing (spec : Spec α) (stack : Stack α (Measured α)) : Sizing α :=
  .ofAspect <|
    match spec.fixedAspect with
    | some aspect => pure (some aspect)
    | none => stack.aspectOf <$> stack.layout spec

/-- The spec of a child in its range: it takes the range, and the stack's alignment on the cross
axis if there is one. -/
def seat (stack : Stack α ε) (range : Limit α) (spec : Spec α) : Spec α :=
  { spec with
    rect := some (stack.direction.slot range)
    align :=
      match stack.align with
      | some anchor => stack.direction.alignCross anchor spec.align
      | none => spec.align }

/-- The children, each changed by `place` to take its range. -/
def seated (place : (Spec α → Spec α) → ε → ε) (stack : Stack α ε) (layout : StackLayout α) :
    List ε :=
  stack.children.zipWith (fun child range => place (stack.seat range) child.element) layout.ranges

end Stack

end SvgLayout
