import SvgLayout.Number.Binary64

/-!
# Fixed-place decimals

A number with a given count of decimal places, rounded once from its exact value, a half going to
the even neighbour.

## Main definitions

* `fixedDigits` — the digits of a count of units of the last place.
* `Binary64.toFixed` — the text of a double with that many places.
-/

namespace SvgLayout

/-- The decimal digits of a natural number, without leading zeros. -/
def decimalDigits (n : Nat) : List Char :=
  Nat.toDigits 10 n

/-- The decimal digits of a natural number, filled with zeros on the left to a least count. -/
def paddedDigits (count n : Nat) : List Char :=
  let digits := decimalDigits n
  List.replicate (count - digits.length) '0' ++ digits

/-- The digits of `units / 10 ^ places`: a whole part, and a point and `places` digits unless there
are none. -/
def fixedDigits (units places : Nat) : List Char :=
  decimalDigits (units / Nat.pow 10 places) ++
    if places = 0 then [] else '.' :: paddedDigits places (units % Nat.pow 10 places)

/-- The minus sign of a negative number. -/
def signChars (negative : Bool) : List Char :=
  if negative then ['-'] else []

def infinityText (negative : Bool) : String :=
  String.ofList (signChars negative ++ ['i', 'n', 'f'])

/-- The text of a value that is not a number. -/
def nanText : String :=
  "NaN"

namespace Binary64

/-- How many units of the last of `places` places the magnitude rounds to. -/
def fixedUnits (mantissa : Nat) (exponent : Int) (places : Nat) : Nat :=
  roundDiv (numerator mantissa exponent * Nat.pow 10 places) (denominator exponent)

/-- The text with exactly `places` decimal places. A negative number keeps its sign when it rounds
to zero. -/
def toFixed (places : Nat) : Binary64 → String
  | nan => nanText
  | infinite negative => infinityText negative
  | finite negative mantissa exponent =>
    String.ofList (signChars negative ++ fixedDigits (fixedUnits mantissa exponent places) places)

end Binary64

end SvgLayout
