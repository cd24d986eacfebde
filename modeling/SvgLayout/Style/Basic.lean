import SvgLayout.Markup.Attrs
import SvgLayout.Style.Color
import SvgLayout.Style.Defaults

/-!
# Styles

How a node is painted. Fields that are not set are inherited from the node around it, and in the end
from the document.

## Main definitions

* `Style`, `Style.orElse`, `Style.attrs`.
* `Border` — the outline of a frame.
* `Corners` — the four radii of a rounded rectangle.
* `HeadStyle` — the shape of an arrow head.
-/

namespace SvgLayout

variable {α : Type}

/-! ## Styles -/

/-- How a node is painted. -/
structure Style (α : Type) where
  stroke : Option (Color α) := none
  fill : Option (Color α) := none
  strokeWidth : Option α := none
  opacity : Option α := none
  dash : Option String := none
  /-- Any other attributes, set after the typed ones. -/
  extra : List (String × String) := []

namespace Style

def empty : Style α :=
  {}

/-- The style with the fields it does not set taken from `fallback`, and with the other attributes
of `fallback` before its own. -/
def orElse (style fallback : Style α) : Style α where
  stroke := style.stroke.or fallback.stroke
  fill := style.fill.or fallback.fill
  strokeWidth := style.strokeWidth.or fallback.strokeWidth
  opacity := style.opacity.or fallback.opacity
  dash := style.dash.or fallback.dash
  extra := fallback.extra ++ style.extra

/-- An attribute that is set only if it has a value. -/
def entry (key : String) (value : Option String) : List (String × String) :=
  (value.map (key, ·)).toList

/-- The attributes of a style as they are set, one after another. -/
def entries [NumberText α] (style : Style α) (precision : Nat) : List (String × String) :=
  entry "stroke" (style.stroke.map Color.text) ++
  entry "fill" (style.fill.map Color.text) ++
  entry "stroke-width" (style.strokeWidth.map (formatNumber · precision)) ++
  entry "opacity" (style.opacity.map (formatNumber · precision)) ++
  entry "stroke-dasharray" style.dash ++
  style.extra

def attrs [NumberText α] (style : Style α) (precision : Nat) : Attrs :=
  Attrs.ofList (style.entries precision)

end Style

/-! ## Borders -/

/-- The outline of a frame. Its corner radius is a fraction of the shorter side. -/
structure Border (α : Type) where
  color : Color α
  width : α
  dash : Option String
  rounded : α

namespace Border

/-- A thin solid outline with sharp corners. -/
def plain [Scalar α] : Border α where
  color := .ofName Defaults.stroke
  width := Defaults.strokeWidth
  dash := none
  rounded := 0.0

def style (border : Border α) : Style α where
  stroke := some border.color
  strokeWidth := some border.width
  dash := border.dash

end Border

/-! ## Shape parameters -/

/-- A radius for each corner of a rectangle. -/
structure Corners (α : Type) where
  topLeft : α
  topRight : α
  bottomRight : α
  bottomLeft : α

namespace Corners

def uniform (r : α) : Corners α :=
  ⟨r, r, r, r⟩

def map {β : Type} (f : α → β) (c : Corners α) : Corners β :=
  ⟨f c.topLeft, f c.topRight, f c.bottomRight, f c.bottomLeft⟩

def scale [Scalar α] (c : Corners α) (k : α) : Corners α :=
  c.map (· * k)

def isZero [Scalar α] (c : Corners α) : Bool :=
  c.topLeft == 0.0 && c.topRight == 0.0 && c.bottomRight == 0.0 && c.bottomLeft == 0.0

end Corners

/-- The shape of an arrow head: half of the angle at the tip in degrees, whether it is closed and
filled, and its radius as a fraction of the arrow's length. -/
structure HeadStyle (α : Type) where
  arc : α
  base : Bool
  size : α

/-- An open head. -/
def HeadStyle.plain [Scalar α] : HeadStyle α where
  arc := Defaults.arrowArc
  base := false
  size := Defaults.arrowHead

end SvgLayout
