import SvgLayout.Geometry.Rect

/-!
# Specs

A spec is the contract between a node and its parent: which rectangle of the parent's space the node
takes, which ratio it keeps inside it, how it is aligned and turned there, and which space it lays
over itself for its own content.

## Main definitions

* `Aspect`, `Coord` — a ratio and a space, given or derived.
* `Align` — where a box stands in a larger one.
* `Spec` with its derived readings.
-/

namespace SvgLayout

variable {α : Type}

/-- The ratio that a node asks for. -/
inductive Aspect (α : Type)
  | fixed (ratio : α)
  | auto

/-- The space that a node lays over itself. -/
inductive Coord (α : Type)
  | rect (rect : Rect α)
  | auto

/-- The fraction of the free space that lies before a box, on each axis. -/
@[ext]
structure Align (α : Type) where
  x : α
  y : α

/-- As much space before a box as after it, on both axes. -/
def Align.center [Scalar α] : Align α :=
  ⟨0.5, 0.5⟩

/-- The contract between a node and its parent. By default a node takes all of its parent's space,
and its own is the unit square. -/
@[ext]
structure Spec (α : Type) where
  rect : Option (Rect α)
  coord : Option (Coord α)
  aspect : Option (Aspect α)
  /-- A kept ratio makes the node larger than its rectangle, not smaller. -/
  expand : Bool
  align : Align α
  /-- Degrees, clockwise in pixels. -/
  rotate : α
  /-- The node is turned in place and fitted as if it were not turned. -/
  invar : Bool

namespace Spec

variable [Scalar α]

/-- All of the parent's space, no ratio, centred, not turned. -/
def plain : Spec α where
  rect := none
  coord := none
  aspect := none
  expand := false
  align := .center
  rotate := 0.0
  invar := false

def ofAspect (ratio : α) : Spec α :=
  { plain with aspect := some (.fixed ratio) }

def ofRect (rect : Rect α) : Spec α :=
  { plain with rect := some rect }

omit [Scalar α] in
def withRect (spec : Spec α) (rect : Rect α) : Spec α :=
  { spec with rect := some rect }

omit [Scalar α] in
/-- The spec with a space derived from the content. -/
def withAutoCoord (spec : Spec α) : Spec α :=
  { spec with coord := some .auto }

omit [Scalar α] in
/-- The ratio, if it is given. -/
def fixedAspect (spec : Spec α) : Option α :=
  match spec.aspect with
  | some (.fixed ratio) => some ratio
  | _ => none

omit [Scalar α] in
/-- The space, if it is given. -/
def coordRect (spec : Spec α) : Option (Rect α) :=
  match spec.coord with
  | some (.rect rect) => some rect
  | _ => none

omit [Scalar α] in
def hasAutoAspect (spec : Spec α) : Bool :=
  spec.aspect matches some .auto

omit [Scalar α] in
def hasAutoCoord (spec : Spec α) : Bool :=
  spec.coord matches some .auto

/-- The node is turned at all, in place or not. -/
def isTurned (spec : Spec α) : Bool :=
  !(spec.rotate == 0.0)

/-- The node is turned and fitted as a turned box. -/
def isRotated (spec : Spec α) : Bool :=
  spec.isTurned && !spec.invar

end Spec

end SvgLayout
