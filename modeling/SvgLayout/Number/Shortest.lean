import SvgLayout.Number.Fixed

/-!
# Shortest decimals

The decimal with the fewest digits among those that read back as a given double, written without an
exponent. Among several of that length it is the one nearest to the double, and of two equally near
the larger in magnitude.

## Main definitions

* `Binary64.ReadBack` — the interval of reals that round to a double.
* `Binary64.shortestDecimal` — the chosen digits and the power of ten they count.
* `Binary64.toShortest` — their text.
-/

namespace SvgLayout

namespace Binary64

/-- The reals that round to a positive double, as integers over one denominator. -/
structure ReadBack where
  lower : Nat
  value : Nat
  upper : Nat
  denominator : Nat
  /-- Whether the ends themselves round to the double. -/
  closed : Bool

/-- The interval around `mantissa · 2 ^ exponent`: half a unit to each side, but only a quarter
below the smallest mantissa of a binade. The ends belong to it when the mantissa is even. -/
def readBack (mantissa : Nat) (exponent : Int) : ReadBack :=
  let quarters := fun n => numerator n (exponent - 2)
  let below := if mantissa = leadingMantissa ∧ minExponent < exponent then 1 else 2
  { lower := quarters (4 * mantissa - below)
    value := quarters (4 * mantissa)
    upper := quarters (4 * mantissa + 2)
    denominator := Binary64.denominator (exponent - 2)
    closed := mantissa % 2 == 0 }

namespace ReadBack

/-- Whether `n / d` lies in the interval. -/
def holds (r : ReadBack) (n d : Nat) : Bool :=
  let n := n * r.denominator
  if r.closed then r.lower * d ≤ n && n ≤ r.upper * d else r.lower * d < n && n < r.upper * d

/-- The multiple of `10 ^ power` nearest to the double, of two equally near the larger, among the
double's two neighbours on that grid that lie in the interval. -/
def onGrid (r : ReadBack) (power : Int) : Option Nat :=
  let num := Nat.pow 10 power.toNat
  let den := Nat.pow 10 (-power).toNat
  let scaled := r.value * den
  let unit := num * r.denominator
  let down := scaled / unit
  let up := down + 1
  match r.holds (down * num) den, r.holds (up * num) den with
  | true, true => some (if 2 * scaled < (down + up) * unit then down else up)
  | true, false => some down
  | false, true => some up
  | false, false => none

end ReadBack

/-- The shortest decimal of a positive double: the digits and the power of ten they count. The grids
are tried from the coarsest power of ten above the double down to one that holds it exactly. -/
def shortestDecimal (mantissa : Nat) (exponent : Int) : Nat × Int :=
  let whole := numerator mantissa exponent / denominator exponent
  let top := (decimalDigits whole).length
  let powers := (List.range (top + minExponent.natAbs + 1)).map fun i : Nat => (top : Int) - i
  let interval := readBack mantissa exponent
  (powers.findSome? fun power => (interval.onGrid power).map fun digits => (digits, power)).getD
    (0, 0)

/-- The digits of `digits · 10 ^ power`, without an exponent and without a point that nothing
follows. -/
def positional (digits : Nat) (power : Int) : List Char :=
  if 0 ≤ power then
    decimalDigits digits ++ List.replicate power.toNat '0'
  else
    fixedDigits digits (-power).toNat

/-- The shortest text that reads back as the same double. -/
def toShortest : Binary64 → String
  | nan => nanText
  | infinite negative => infinityText negative
  | finite negative mantissa exponent =>
    let magnitude :=
      if mantissa = 0 then ['0']
      else
        let decimal := shortestDecimal mantissa exponent
        positional decimal.1 decimal.2
    String.ofList (signChars negative ++ magnitude)

end Binary64

end SvgLayout
