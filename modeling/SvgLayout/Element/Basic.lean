import SvgLayout.Geometry.Nudged
import SvgLayout.Layout.GridSolver
import SvgLayout.Path.Spline
import SvgLayout.Spec.Basic
import SvgLayout.Style.Basic

/-!
# Elements

A tree of things to draw. Every node has a spec, which places it in its parent, a style, and a
shape. Shapes without children are drawn by a single tag, an arrow by a shaft and a head, and
containers by their children.

A shape is given over the type of its children, so that what is computed from a tree has the form of
one step: from a shape whose children carry their results to the result of the node.

## Main definitions

* `Primitive` — the shapes of a single tag.
* `Group`, `Frame`, `Stack`, `Grid` — the containers.
* `Shape`, `Element` — any shape, and a node of a tree.
* `Element.mapSpec`, `Element.withRect` — a node placed differently.
* `Element.fold` — a value computed from the leaves up.
-/

namespace SvgLayout

/-! ## Shapes without children -/

/-- A shape that is drawn by a single tag. Radii are fractions of the shorter side, an arrow head
points in degrees clockwise, and a text is as high as its node, with its width in ems. -/
inductive Primitive (α : Type)
  | rectangle (rounded : Option (Corners α))
  | ellipse
  | line (start stop : NudgedPoint α)
  | polyline (points : List (NudgedPoint α)) (closed : Bool)
  | spline (points : List (NudgedPoint α)) (options : SplineOptions α)
  | arrowHead (direction : α) (head : HeadStyle α)
  | text (content : String) (width : α)

/-- A straight arrow across its node, in degrees clockwise. -/
structure Arrow (α : Type) where
  direction : α
  head : HeadStyle α

/-! ## Containers -/

/-- Children that are placed by their own specs. They may be cut off at the group's own rectangle,
and masked by another node. -/
structure Group (ε : Type) where
  children : List ε
  clip : Bool
  mask : Option ε
  debug : Bool

/-- A child with padding, an outline, a background and a margin around it. Padding and margin are in
widths of the child. -/
structure Frame (α ε : Type) where
  child : ε
  padding : α
  margin : α
  border : Option (Border α)
  fill : Option (Color α)

inductive Direction
  | vertical
  | horizontal

/-- A child of a stack. It has a share of the main axis of its own, or one that its ratio drives. -/
structure StackChild (α ε : Type) where
  element : ε
  size : Option α
  expand : Bool

/-- Children laid end to end. The gap between neighbours is a fraction of the main axis. -/
structure Stack (α ε : Type) where
  direction : Direction
  children : List (StackChild α ε)
  spacing : α
  align : Option α
  debug : Bool

/-- Children in rows, which need not be equally long, and columns. -/
structure Grid (α ε : Type) where
  rows : List (List ε)
  widths : Option (List α)
  heights : Option (List α)
  spacing : GridSpacing α
  debug : Bool

/-! ## Nodes -/

/-- What a node draws, over the type of its children. -/
inductive Shape (α ε : Type)
  | primitive (primitive : Primitive α)
  | arrow (arrow : Arrow α)
  | group (group : Group ε)
  | frame (frame : Frame α ε)
  | stack (stack : Stack α ε)
  | grid (grid : Grid α ε)

/-- A node of a tree. -/
structure Element (α : Type) where
  spec : Spec α
  style : Style α
  shape : Shape α (Element α)

section Map

variable {α ε β : Type}

def Group.map (f : ε → β) (g : Group ε) : Group β :=
  { g with children := g.children.map f, mask := g.mask.map f }

def Frame.map (f : ε → β) (g : Frame α ε) : Frame α β :=
  { g with child := f g.child }

def StackChild.map (f : ε → β) (c : StackChild α ε) : StackChild α β :=
  { c with element := f c.element }

def Stack.map (f : ε → β) (s : Stack α ε) : Stack α β :=
  { s with children := s.children.map (StackChild.map f) }

def Grid.map (f : ε → β) (g : Grid α ε) : Grid α β :=
  { g with rows := g.rows.map (List.map f) }

end Map

namespace Shape

variable {α ε β : Type}

def map (f : ε → β) : Shape α ε → Shape α β
  | primitive p => primitive p
  | arrow a => arrow a
  | group g => group (g.map f)
  | frame g => frame (g.map f)
  | stack s => stack (s.map f)
  | grid g => grid (g.map f)

/-- Two functions of every child are one. -/
theorem map_map {γ : Type} (f : ε → β) (g : β → γ) (s : Shape α ε) :
    (s.map f).map g = s.map fun e => g (f e) := by
  cases s <;>
    simp [map, Group.map, Frame.map, Stack.map, StackChild.map, Grid.map, Function.comp_def]

/-- All children, a mask before the others. -/
def children : Shape α ε → List ε
  | primitive _ | arrow _ => []
  | group g => g.mask.toList ++ g.children
  | frame g => [g.child]
  | stack s => s.children.map StackChild.element
  | grid g => g.rows.flatten

end Shape

namespace Element

variable {α β : Type}

/-- The node placed by a spec made from its own. -/
def mapSpec (f : Spec α → Spec α) (e : Element α) : Element α :=
  { e with spec := f e.spec }

/-- The node placed in a rectangle of its parent. -/
def withRect (e : Element α) (rect : Rect α) : Element α :=
  e.mapSpec (·.withRect rect)

mutual

/-- A value computed from the leaves up: `step` sees the spec and the style of a node and its shape,
with every child beside the value computed for it. -/
def fold (step : Spec α → Style α → Shape α (Element α × β) → β) : Element α → β
  | ⟨spec, style, shape⟩ => step spec style (foldShape step shape)

def foldShape (step : Spec α → Style α → Shape α (Element α × β) → β) :
    Shape α (Element α) → Shape α (Element α × β)
  | .primitive p => .primitive p
  | .arrow a => .arrow a
  | .group ⟨children, clip, mask, debug⟩ =>
    .group ⟨foldList step children, clip, foldOption step mask, debug⟩
  | .frame ⟨child, padding, margin, border, fill⟩ =>
    .frame ⟨(child, fold step child), padding, margin, border, fill⟩
  | .stack ⟨direction, children, spacing, align, debug⟩ =>
    .stack ⟨direction, foldStack step children, spacing, align, debug⟩
  | .grid ⟨rows, widths, heights, spacing, debug⟩ =>
    .grid ⟨foldRows step rows, widths, heights, spacing, debug⟩

def foldList (step : Spec α → Style α → Shape α (Element α × β) → β) :
    List (Element α) → List (Element α × β)
  | [] => []
  | e :: es => (e, fold step e) :: foldList step es

def foldOption (step : Spec α → Style α → Shape α (Element α × β) → β) :
    Option (Element α) → Option (Element α × β)
  | none => none
  | some e => some (e, fold step e)

def foldStack (step : Spec α → Style α → Shape α (Element α × β) → β) :
    List (StackChild α (Element α)) → List (StackChild α (Element α × β))
  | [] => []
  | ⟨e, size, expand⟩ :: cs => ⟨(e, fold step e), size, expand⟩ :: foldStack step cs

def foldRows (step : Spec α → Style α → Shape α (Element α × β) → β) :
    List (List (Element α)) → List (List (Element α × β))
  | [] => []
  | row :: rows => foldList step row :: foldRows step rows

end

end Element

end SvgLayout
