import SvgLayout.Geometry.Point
import SvgLayout.Number.Text

/-!
# Paths

A path is a list of pen commands in absolute coordinates. Its text is the `d` attribute of a `path`
tag.

## Main definitions

* `PathCommand`, `PathCommand.end?` — a command, and where it leaves the pen.
* `Path`, `Path.end?`, `Path.text`.
-/

namespace SvgLayout

variable {α : Type}

/-- A pen command in absolute coordinates. -/
inductive PathCommand (α : Type)
  | move (target : Point α)
  | line (target : Point α)
  | arc (rx ry rotation : α) (large sweep : Bool) (target : Point α)
  | quad (control target : Point α)
  | cubic (control1 control2 target : Point α)
  | close

/-- Pen commands in the order in which they are drawn. -/
abbrev Path (α : Type) := List (PathCommand α)

namespace PathCommand

/-- Where the pen is after a command, if the command says so. -/
def end? : PathCommand α → Option (Point α)
  | move target | line target | arc _ _ _ _ _ target | quad _ target | cubic _ _ target =>
    some target
  | close => none

/-- The text of a point: its coordinates around a comma. -/
def pointText [NumberText α] (precision : Nat) (p : Point α) : String :=
  formatNumber p.x precision ++ "," ++ formatNumber p.y precision

def flagText (flag : Bool) : String :=
  if flag then "1" else "0"

/-- The text of a command: its letter and its arguments, divided by blanks. -/
def text [NumberText α] (precision : Nat) : PathCommand α → String
  | move target => "M" ++ pointText precision target
  | line target => "L" ++ pointText precision target
  | arc rx ry rotation large sweep target =>
    "A" ++ pointText precision ⟨rx, ry⟩ ++ " " ++ formatNumber rotation precision ++ " " ++
      flagText large ++ " " ++ flagText sweep ++ " " ++ pointText precision target
  | quad control target => "Q" ++ pointText precision control ++ " " ++ pointText precision target
  | cubic control1 control2 target =>
    "C" ++ pointText precision control1 ++ " " ++ pointText precision control2 ++ " " ++
      pointText precision target
  | close => "Z"

end PathCommand

namespace Path

/-- Where the pen is after the last command that says so. -/
def end? (path : Path α) : Option (Point α) :=
  path.reverse.findSome? PathCommand.end?

/-- The text of a path: its commands, divided by blanks. -/
def text [NumberText α] (path : Path α) (precision : Nat) : String :=
  " ".intercalate (path.map (PathCommand.text precision))

end Path

end SvgLayout
