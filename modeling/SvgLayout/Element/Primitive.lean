import SvgLayout.Context
import SvgLayout.Element.Basic
import SvgLayout.Markup.Basic
import SvgLayout.Path.ArrowHead
import SvgLayout.Path.RoundedRect

/-!
# Drawing shapes of a single tag

The geometry of a shape in the pixels of its context, and the tag that draws it.

## Main definitions

* `Context.boxEntries` — the attributes of a rectangle that covers a context.
* `splinePath`, `headPath` — the paths of a spline and of an arrow head in pixels.
* `Primitive.kind`, `Primitive.tag`, `Primitive.attrs`, `Primitive.content`.
-/

namespace SvgLayout

variable {α : Type} [Scalar α]

/-! ## Geometry in pixels -/

def Style.outlineWidth (style : Style α) : α :=
  style.strokeWidth.getD Defaults.strokeWidth

/-- The pixel extent of a direction; it is flipped where the axis is. -/
def Context.mapDirection (ctx : Context α) (d : Point α) : Point α :=
  let s := ctx.mapSize ⟨d.x, d.y⟩
  ⟨s.w, s.h⟩

def splinePath (ctx : Context α) (points : List (NudgedPoint α)) (options : SplineOptions α) :
    Path α :=
  spline (points.map ctx.mapPoint)
    { options with
      startDir := options.startDir.map ctx.mapDirection
      endDir := options.endDir.map ctx.mapDirection }

/-- The corners of an arrow head in an upright rectangle. The head is pulled back by half of its
outline, so that the outer edge of the outline ends at the tip. -/
def headIn (r : Rect α) (direction : α) (head : HeadStyle α) (stroke : α) : HeadCorners α :=
  let radius : Point α := ⟨r.width / 2.0, r.height / 2.0⟩
  let back := ((Point.atAngle direction).stretch radius).normalizeOrOrigin * (stroke / 2.0)
  (headCorners direction head.arc).map fun u => r.center + u.stretch radius - back

def headPath (ctx : Context α) (style : Style α) (direction : α) (head : HeadStyle α) : Path α :=
  let c := headIn ctx.pixels.upright direction head style.outlineWidth
  [.move c.left, .line c.tip, .line c.right] ++ if head.base then [.close] else []

/-! ## Attributes -/

variable [NumberText α]

/-- Position and size of the rectangle that covers a context. -/
def Context.boxEntries (ctx : Context α) : List (String × String) :=
  let r := ctx.pixels.upright
  [("x", ctx.format r.x1), ("y", ctx.format r.y1),
   ("width", ctx.format r.width), ("height", ctx.format r.height)]

/-- The points of a polyline, divided by blanks. -/
def pointsText (ctx : Context α) (points : List (NudgedPoint α)) : String :=
  " ".intercalate (points.map fun p => PathCommand.pointText ctx.precision (ctx.mapPoint p))

/-- A closed head whose style has no fill is filled like its outline. -/
def headFill (style : Style α) (head : HeadStyle α) : List (String × String) :=
  if head.base && style.fill.isNone then
    [("fill", (style.stroke.getD (.ofName Defaults.stroke)).text)]
  else []

omit [NumberText α] in
/-- The radii of a rectangle that is not sharp at every corner. -/
def roundedCorners (rounded : Option (Corners α)) : Option (Corners α) :=
  rounded.filter fun c => !c.isZero

namespace Primitive

omit [Scalar α] [NumberText α] in
/-- The name of the shape in errors. -/
def kind : Primitive α → String
  | rectangle _ => "Rectangle"
  | ellipse => "Ellipse"
  | line .. => "Line"
  | polyline .. => "Polyline"
  | spline .. => "Spline"
  | arrowHead .. => "ArrowHead"
  | text .. => "Text"

omit [NumberText α] in
def tag : Primitive α → String
  | rectangle rounded => if (roundedCorners rounded).isSome then "path" else "rect"
  | ellipse => "ellipse"
  | line .. => "line"
  | polyline _ closed => if closed then "polygon" else "polyline"
  | spline .. => "path"
  | arrowHead .. => "path"
  | text .. => "text"

/-- The attributes that draw the shape in a context, in order. -/
def entries (style : Style α) (ctx : Context α) : Primitive α → List (String × String)
  | rectangle rounded =>
    match roundedCorners rounded with
    | some corners =>
      let r := ctx.pixels.upright
      let radii := corners.scale (Scalar.min r.width r.height)
      [("d", (roundedRect r radii).text ctx.precision)]
    | none => ctx.boxEntries
  | ellipse =>
    let r := ctx.pixels.upright
    [("cx", ctx.format r.center.x), ("cy", ctx.format r.center.y),
     ("rx", ctx.format (r.width / 2.0)), ("ry", ctx.format (r.height / 2.0))]
  | line start stop =>
    let a := ctx.mapPoint start
    let b := ctx.mapPoint stop
    [("x1", ctx.format a.x), ("y1", ctx.format a.y),
     ("x2", ctx.format b.x), ("y2", ctx.format b.y)]
  | polyline points _ => [("points", pointsText ctx points)]
  | spline points options => [("d", (splinePath ctx points options).text ctx.precision)]
  | arrowHead direction head =>
    headFill style head ++
      [("d", (headPath ctx style direction head).text ctx.precision),
       ("stroke-linejoin", "round")]
  | text _ _ =>
    let r := ctx.pixels.upright
    [("x", ctx.format r.center.x), ("y", ctx.format r.center.y),
     ("font-size", ctx.format r.height),
     ("text-anchor", "middle"), ("dominant-baseline", "central")]

/-- The attributes that draw the shape in a context. -/
def attrs (style : Style α) (ctx : Context α) (p : Primitive α) : Attrs :=
  .ofList (p.entries style ctx)

omit [Scalar α] [NumberText α] in
/-- The content of the tag; only a text has any. -/
def content : Primitive α → Option (List Markup)
  | text content _ => some [.text content]
  | _ => none

end Primitive

end SvgLayout
