import SvgLayout.Geometry.Box
import SvgLayout.Spec.Anchor

/-!
# Spec arguments

The arguments of a node as they are given, and their one validation. A spec that passes holds finite
numbers only.

## Main definitions

* `SpecArgs` — the arguments; `CoordArg`, `AspectArg` — two of them.
* `SpecArgs.rect?`, `SpecArgs.coord?`, `SpecArgs.aspect?`, `SpecArgs.align?` — the parts of a spec.
* `Spec.ofArgs` — the spec that arguments describe, or the first thing wrong with them.
-/

namespace SvgLayout

variable {α : Type}

/-- The space of a node as it is given. -/
inductive CoordArg (α : Type)
  | rect (values : List α)
  | auto

/-- The ratio of a node as it is given. -/
inductive AspectArg (α : Type)
  | number (value : α)
  | auto

/-- The arguments of a node. A rectangle is given by its corners, or by a centre and half extents; a
space is given by a rectangle, or by a limit for each axis, the vertical one upward. -/
structure SpecArgs (α : Type) where
  rect : Option (List α) := none
  pos : Option (List α) := none
  rad : Option (List α) := none
  coord : Option (CoordArg α) := none
  xlim : Option (List α) := none
  ylim : Option (List α) := none
  aspect : Option (AspectArg α) := none
  expand : Option Bool := none
  align : Option (List (AnchorArg α)) := none
  rotate : Option α := none
  invar : Option Bool := none

variable [Scalar α]

/-! ## Lists of numbers -/

def finiteArg (node field : String) (value : α) : Except (SpecError α) α :=
  (checkFinite value).mapError (.invalidNumber node field)

def finiteArgs (node field : String) (values : List α) : Except (SpecError α) (List α) :=
  values.mapM (finiteArg node field)

/-- Finite numbers that `read` accepts; `wrongCount` is the error for the others. -/
def shapedArg {β : Type} (node field : String) (read : List α → Option β)
    (wrongCount : Nat → SpecError α) (values : List α) : Except (SpecError α) β := do
  let values ← finiteArgs node field values
  match read values with
  | some value => pure value
  | none => throw (wrongCount values.length)

/-- A rectangle of four finite numbers. -/
def rectArg (node field : String) : List α → Except (SpecError α) (Rect α) :=
  shapedArg node field Rect.ofList? (.invalidRect node field)

/-- A limit of two finite numbers. -/
def limitArg (node field : String) : List α → Except (SpecError α) (Limit α) :=
  shapedArg node field Limit.ofList? (.invalidLimit node field)

/-- A list of exactly two numbers as a point. -/
def Point.ofList? : List α → Option (Point α)
  | [x, y] => some ⟨x, y⟩
  | _ => none

/-- A point of two finite numbers. -/
def pointArg (node field : String) : List α → Except (SpecError α) (Point α) :=
  shapedArg node field Point.ofList? (.invalidPoint node field)

/-- Half extents: one for both axes or one for each. Their count is checked before their values. -/
def radiusArg (node field : String) : List α → Except (SpecError α) (Point α)
  | [r] => do
    let r ← finiteArg node field r
    pure ⟨r, r⟩
  | [rx, ry] => do
    let rx ← finiteArg node field rx
    let ry ← finiteArg node field ry
    pure ⟨rx, ry⟩
  | values => throw (.invalidPoint node field values.length)

/-- An argument that may be absent. -/
def argOr {β γ : Type} (default : γ) (read : β → Except (SpecError α) γ) :
    Option β → Except (SpecError α) γ
  | none => pure default
  | some arg => read arg

namespace SpecArgs

/-! ## The parts of a spec -/

/-- The rectangle: by its corners, or by a centre and half extents, of which a missing one stands in
the middle or reaches half way. -/
def rect? (args : SpecArgs α) (node : String) : Except (SpecError α) (Option (Rect α)) :=
  match args.rect with
  | some values =>
    if args.pos.isSome then throw (.conflictingKeys node "rect" "pos")
    else if args.rad.isSome then throw (.conflictingKeys node "rect" "rad")
    else some <$> rectArg node "rect" values
  | none =>
    if args.pos.isSome || args.rad.isSome then do
      let pos ← argOr ⟨0.5, 0.5⟩ (pointArg node "pos") args.pos
      let rad ← argOr ⟨0.5, 0.5⟩ (radiusArg node "rad") args.rad
      pure (some (RadialBox.mk pos rad.x rad.y).toRect)
    else pure none

/-- The space: as given, or from a limit for each axis. Greater values of a vertical limit are
drawn higher up; an axis without a limit is the unit interval, downward. -/
def coord? (args : SpecArgs α) (node : String) : Except (SpecError α) (Option (Coord α)) :=
  match args.coord with
  | some coord =>
    if args.xlim.isSome then throw (.conflictingKeys node "coord" "xlim")
    else if args.ylim.isSome then throw (.conflictingKeys node "coord" "ylim")
    else
      match coord with
      | .auto => pure (some .auto)
      | .rect values => (some <| .rect ·) <$> rectArg node "coord" values
  | none =>
    if args.xlim.isSome || args.ylim.isSome then do
      let x ← argOr .unit (limitArg node "xlim") args.xlim
      let y ← argOr .unit (fun values => Limit.reverse <$> limitArg node "ylim" values) args.ylim
      pure (some (.rect (.ofLimits x y)))
    else pure none

/-- The ratio: derived, or a finite positive number. -/
def aspect? (args : SpecArgs α) (node : String) : Except (SpecError α) (Option (Aspect α)) :=
  match args.aspect with
  | none => pure none
  | some .auto => pure (some .auto)
  | some (.number value) =>
    (some <| .fixed ·) <$> (checkPositive value).mapError (.invalidNumber node "aspect")

end SpecArgs

/-- The spec that arguments describe, or the first thing wrong with them, in the order rectangle,
space, ratio, alignment, angle. -/
def Spec.ofArgs (node : String) (args : SpecArgs α) : Except (SpecError α) (Spec α) := do
  let rect ← args.rect? node
  let coord ← args.coord? node
  let aspect ← args.aspect? node
  let align ← argOr .center (Align.ofAnchors node) args.align
  let rotate ← argOr 0.0 (finiteArg node "rotate") args.rotate
  pure
    { rect, coord, aspect, align, rotate
      expand := args.expand.getD false
      invar := args.invar.getD false }

end SvgLayout
