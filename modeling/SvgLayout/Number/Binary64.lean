/-!
# The numbers that doubles stand for

A double is a sign, a mantissa and a power of two, an infinity, or not a number at all. Text is made
from that reading in exact integer arithmetic, so no digit depends on another rounding.

## Main definitions

* `Binary64` — what a double says.
* `Binary64.ofFloat` — the reading of a double's bits.
* `Binary64.numerator`, `Binary64.denominator` — a magnitude as a quotient of natural numbers.
* `roundDiv` — a quotient rounded to the nearest integer, ties to even.
-/

namespace SvgLayout

/-- What a double says. -/
inductive Binary64
  | nan
  | infinite (negative : Bool)
  /-- The number `± mantissa · 2 ^ exponent`; zero has a sign as well. -/
  | finite (negative : Bool) (mantissa : Nat) (exponent : Int)
  deriving DecidableEq, Repr

namespace Binary64

/-- The exponent of the smallest subnormal double. -/
def minExponent : Int :=
  -1074

/-- The smallest mantissa of a normal double. -/
def leadingMantissa : Nat :=
  Nat.pow 2 52

/-- The reading of 64 bits: a sign, eleven bits of exponent, fifty-two of mantissa. -/
def ofBits (bits : UInt64) : Binary64 :=
  let n := bits.toNat
  let negative := n / Nat.pow 2 63 == 1
  let exponent := n / leadingMantissa % Nat.pow 2 11
  let mantissa := n % leadingMantissa
  if exponent = 2047 then
    if mantissa = 0 then infinite negative else nan
  else if exponent = 0 then
    finite negative mantissa minExponent
  else
    finite negative (leadingMantissa + mantissa) (minExponent + (exponent - 1 : Nat))

/-- The reading of a double. -/
def ofFloat (x : Float) : Binary64 :=
  ofBits x.toBits

/-- The numerator of `mantissa · 2 ^ exponent`. -/
def numerator (mantissa : Nat) (exponent : Int) : Nat :=
  mantissa * Nat.pow 2 exponent.toNat

/-- The denominator of `mantissa · 2 ^ exponent`. -/
def denominator (exponent : Int) : Nat :=
  Nat.pow 2 (-exponent).toNat

theorem denominator_pos (exponent : Int) : 0 < denominator exponent :=
  Nat.two_pow_pos _

end Binary64

/-- The integer nearest to `num / den`; halfway between two integers it is the even one. -/
def roundDiv (num den : Nat) : Nat :=
  let q := num / den
  let twice := 2 * (num % den)
  if twice < den then q
  else if den < twice then q + 1
  else if q % 2 = 0 then q else q + 1

end SvgLayout
