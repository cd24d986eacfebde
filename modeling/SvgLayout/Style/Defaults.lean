import SvgLayout.Scalar

/-!
# Defaults

The values that hold where a tree asks for nothing else. Lengths are in pixels and angles in
degrees.
-/

namespace SvgLayout.Defaults

variable {α : Type} [Scalar α]

/-- Width and height of a canvas. -/
def canvasSize : α := 500.0

def precision : Nat := 2

/-- The determinant below which the equations of a turned box count as singular. -/
def tolerance : α := 1e-9

def stroke : String := "black"

def fill : String := "none"

/-- The stroke width of markup that sets none. -/
def strokeWidth : α := 1.0

/-- Half of the angle at the tip of an arrow head. -/
def arrowArc : α := 30.0

/-- The size of an arrow head as a fraction of the arrow. -/
def arrowHead : α := 0.15

def splineCurve : α := 0.5

def debugStroke : String := "red"

def debugDash : String := "3,3"

/-- The width in ems of a character whose table entry is one hundred. -/
def characterWidth : α := 0.57

/-- The width in ems of every character of monospaced text. -/
def monospaceWidth : α := 0.6

def textFill : String := "black"

/-- The padding and the margin of a frame, in widths of its child. -/
def frameInset : α := 0.0

end SvgLayout.Defaults
