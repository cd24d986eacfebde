import SvgLayout.Number.Check

/-!
# Errors

What can be wrong with the arguments of a node or with a tree. Every error names the type of node it
arose at, has a wording, a stable code, and sometimes a hint.

## Main definitions

* `SpecError` — invalid arguments of one node.
* `LayoutError` — a tree or a canvas that cannot be laid out.
-/

namespace SvgLayout

variable {α : Type}

/-- What is wrong with the arguments of a node. -/
inductive SpecError (α : Type)
  | invalidRect (node field : String) (count : Nat)
  | invalidPoint (node field : String) (count : Nat)
  | invalidLimit (node field : String) (count : Nat)
  | unknownAnchor (node token : String)
  | invalidAlign (node : String) (count : Nat)
  | conflictingKeys (node first second : String)
  | invalidNumber (node field : String) (cause : NumericError α)

/-- Why a tree cannot be laid out. -/
inductive LayoutError (α : Type)
  | childCount (node : String) (expected got : Nat)
  | invalidSize (width height : α)
  /-- Track weights that are too many, too few, or not finite and positive. -/
  | weightCount (node axis : String) (expected got : Nat)
  | nonFinite (node : String)
  | spec (error : SpecError α)

namespace SpecError

def message [NumberText α] : SpecError α → String
  | invalidRect node field count =>
    node ++ ": `" ++ field ++ "` must be a rect of 4 numbers, got " ++ toString count
  | invalidPoint node field count =>
    node ++ ": `" ++ field ++ "` must be a point of 2 numbers, got " ++ toString count
  | invalidLimit node field count =>
    node ++ ": `" ++ field ++ "` must be a limit of 2 numbers, got " ++ toString count
  | unknownAnchor node token => node ++ ": unknown alignment `" ++ token ++ "`"
  | invalidAlign node count =>
    node ++ ": `align` takes 1 or 2 anchors, got " ++ toString count
  | conflictingKeys node first second =>
    node ++ ": `" ++ first ++ "` conflicts with `" ++ second ++ "`"
  | invalidNumber node field cause => node ++ ": invalid `" ++ field ++ "`: " ++ cause.message

def code : SpecError α → String
  | invalidRect .. => "vecta::spec::invalid_rect"
  | invalidPoint .. => "vecta::spec::invalid_point"
  | invalidLimit .. => "vecta::spec::invalid_limit"
  | unknownAnchor .. => "vecta::spec::unknown_anchor"
  | invalidAlign .. => "vecta::spec::invalid_align"
  | conflictingKeys .. => "vecta::spec::conflicting_keys"
  | invalidNumber .. => "vecta::spec::invalid_number"

def help : SpecError α → Option String
  | invalidRect .. => some "rects are written as [x1, y1, x2, y2]"
  | unknownAnchor .. =>
    some "use a number in [0, 1] or one of left, center, right, top, middle, bottom"
  | conflictingKeys .. => some "supply only one way of specifying the same layout field"
  | _ => none

end SpecError

namespace LayoutError

def message [NumberText α] : LayoutError α → String
  | childCount node expected got =>
    node ++ " requires exactly " ++ toString expected ++ " child, got " ++ toString got
  | invalidSize width height =>
    "invalid canvas size " ++ NumberText.shortest width ++ "x" ++ NumberText.shortest height
  | weightCount node axis expected got =>
    node ++ ": " ++ axis ++ " weights need one entry per track (" ++ toString expected ++
      "), got " ++ toString got
  | nonFinite node => node ++ ": geometry resolved to NaN or infinity"
  | spec error => error.message

def code : LayoutError α → String
  | childCount .. => "vecta::tree::child_count"
  | invalidSize .. => "vecta::layout::invalid_size"
  | weightCount .. => "vecta::layout::weight_count"
  | nonFinite .. => "vecta::layout::non_finite"
  | spec error => error.code

def help : LayoutError α → Option String
  | invalidSize .. => some "the root size must be finite and strictly positive"
  | spec error => error.help
  | _ => none

end LayoutError

end SvgLayout
