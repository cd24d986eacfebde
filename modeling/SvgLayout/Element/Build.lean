import SvgLayout.Element.Basic
import SvgLayout.Error
import SvgLayout.Text.Metrics

/-!
# Building trees

Nodes with the spec and the style that their shape starts with, and nodes with another spec or
style.

## Main definitions

* `Element.rectangle`, `Element.text`, `Element.group`, … — a node of each shape.
* `Element.withSpec`, `Element.withStyle` — what a shape keeps when it is given a spec or a style.
* `Frame.onlyChild` — the child of a frame out of a list.
-/

namespace SvgLayout

variable {α : Type} [Scalar α]

/-- Text is filled and not outlined. -/
def textStyle : Style α :=
  { fill := some (.ofName Defaults.textFill), stroke := some .none }

namespace Element

/-- A node of a shape with nothing else asked for. -/
def ofShape (shape : Shape α (Element α)) : Element α :=
  ⟨.plain, .empty, shape⟩

def ofPrimitive (p : Primitive α) : Element α :=
  ofShape (.primitive p)

omit [Scalar α] in
/-- The node with another spec. The space of a frame is always derived. -/
def withSpec (e : Element α) (spec : Spec α) : Element α :=
  match e.shape with
  | .frame _ => { e with spec := spec.withAutoCoord }
  | _ => { e with spec }

/-- The node with another style. What the style of a text leaves open stays that of a text. -/
def withStyle (e : Element α) (style : Style α) : Element α :=
  match e.shape with
  | .primitive (.text ..) => { e with style := style.orElse textStyle }
  | _ => { e with style }

/-- A rectangle, with corner radii as fractions of its shorter side. -/
def rectangle (rounded : Option (Corners α)) : Element α :=
  ofPrimitive (.rectangle rounded)

def square (rounded : Option (Corners α)) : Element α :=
  (rectangle rounded).withSpec (.ofAspect 1.0)

def ellipse : Element α :=
  ofPrimitive .ellipse

def circle : Element α :=
  ellipse.withSpec (.ofAspect 1.0)

def line (start stop : NudgedPoint α) : Element α :=
  ofPrimitive (.line start stop)

def horizontalLine (y : α) : Element α :=
  line (.ofPoint ⟨0.0, y⟩) (.ofPoint ⟨1.0, y⟩)

def verticalLine (x : α) : Element α :=
  line (.ofPoint ⟨x, 0.0⟩) (.ofPoint ⟨x, 1.0⟩)

def polyline (points : List (NudgedPoint α)) : Element α :=
  ofPrimitive (.polyline points false)

def polygon (points : List (NudgedPoint α)) : Element α :=
  ofPrimitive (.polyline points true)

def spline (points : List (NudgedPoint α)) (options : SplineOptions α) : Element α :=
  ofPrimitive (.spline points options)

def arrowHead (direction : α) (head : HeadStyle α) : Element α :=
  ofPrimitive (.arrowHead direction head)

def arrow (direction : α) (head : HeadStyle α) : Element α :=
  ofShape (.arrow ⟨direction, head⟩)

def text (content : String) (metrics : Metrics) : Element α :=
  { ofPrimitive (.text content (metrics.width content)) with style := textStyle }

/-- The width of a text in ems; other nodes have none. -/
def textWidth? (e : Element α) : Option α :=
  match e.shape with
  | .primitive (.text _ width) => some width
  | _ => none

def group (g : Group (Element α)) : Element α :=
  ofShape (.group g)

/-- A frame, whose space is derived. -/
def frame (f : Frame α (Element α)) : Element α :=
  (ofShape (.frame f)).withSpec .plain

def stack (s : Stack α (Element α)) : Element α :=
  ofShape (.stack s)

def grid (g : Grid α (Element α)) : Element α :=
  ofShape (.grid g)

end Element

omit [Scalar α] in
/-- The only element of a list of children, as a frame needs it. -/
def Frame.onlyChild : List (Element α) → Except (LayoutError α) (Element α)
  | [child] => pure child
  | children => throw (.childCount "Frame" 1 children.length)

end SvgLayout
