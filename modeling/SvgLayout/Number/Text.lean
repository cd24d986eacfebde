import SvgLayout.Number.Shortest

/-!
# The text of numbers

Two texts of a number are in use. Markup has a fixed precision, with the zeros at the end of a
fraction left out. Colours and messages have the shortest text that reads back.

## Main definitions

* `NumberText` — the two texts of a number.
* `formatNumber` — a number as markup writes it.
-/

namespace SvgLayout

/-- Numbers that can be written, correctly rounded to a count of decimal places or in the shortest
way that reads back. -/
class NumberText (α : Type) where
  fixed : α → Nat → String
  shortest : α → String

instance : NumberText Float where
  fixed x places := (Binary64.ofFloat x).toFixed places
  shortest x := (Binary64.ofFloat x).toShortest

/-- A text without the run of `c` at its end. -/
def dropTrailing (c : Char) (text : List Char) : List Char :=
  (text.reverse.dropWhile (· == c)).reverse

/-- A decimal without the zeros at the end of its fraction, without a point that nothing follows,
and without a sign before a lone zero. -/
def trimDecimal (text : List Char) : List Char :=
  let trimmed := if '.' ∈ text then dropTrailing '.' (dropTrailing '0' text) else text
  if trimmed = ['-', '0'] then ['0'] else trimmed

/-- A number as markup writes it: at most `precision` decimal places. -/
def formatNumber {α : Type} [NumberText α] (value : α) (precision : Nat) : String :=
  String.ofList (trimDecimal (NumberText.fixed value precision).toList)

end SvgLayout
