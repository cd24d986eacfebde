import SvgLayout.Scalar

/-!
# Doubles as scalars

The layout engine runs on IEEE binary64 numbers. Every operation is the correctly rounded one of
the format, except the exponential, the logarithm, the sine and the cosine, which are those of the
platform's mathematical library.

## Main definitions

* `signBit`, `withSignOf` — the sign of a double, read and written in its bits.
* the instance `Scalar Float`.
-/

namespace SvgLayout

/-- The bit that holds the sign of a double. -/
def signBit : UInt64 :=
  0x8000000000000000

/-- The magnitude of `m` under the sign of `s`, zeros and infinities included. -/
def withSignOf (m s : Float) : Float :=
  Float.ofBits ((m.toBits &&& ~~~signBit) ||| (s.toBits &&& signBit))

instance : Scalar Float where
  natCast := Float.ofNat
  decidableLT := Float.decLt
  decidableLE := Float.decLe
  abs := Float.abs
  copySign := withSignOf
  sqrt := Float.sqrt
  exp := Float.exp
  log := Float.log
  sin := Float.sin
  cos := Float.cos
  pi := 3.141592653589793
  isNaN := Float.isNaN
  isInfinite := Float.isInf

end SvgLayout
