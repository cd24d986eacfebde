/-!
# Scalars

Every length, angle and ratio of a layout is a scalar. `Scalar` names the operations that layout
needs and nothing else, so one definition of an algorithm, with one order of operations, has a
meaning in every number system that offers them: IEEE doubles, which have NaN and infinities, or
an exact field, where `isNaN` and `isInfinite` are constantly false.

## Main definitions

* `Scalar` — a number system to lay out in.
* `Scalar.min`, `Scalar.max`, `Scalar.clamp` — the order operations, with their rule for NaN.
* `Scalar.isFinite`, `Scalar.radians`, `Scalar.sum`, `Scalar.mean`.
-/

namespace SvgLayout

/-- A number system to lay out in. `==` is numeric equality: a NaN differs from itself, and the two
zeros are equal. Angles are in radians. -/
class Scalar (α : Type) extends Add α, Sub α, Mul α, Div α, Neg α, LT α, LE α, BEq α, NatCast α,
    OfScientific α where
  decidableLT : DecidableLT α
  decidableLE : DecidableLE α
  abs : α → α
  /-- `copySign m s` has the magnitude of `m` and the sign of `s`. -/
  copySign : α → α → α
  sqrt : α → α
  exp : α → α
  log : α → α
  sin : α → α
  cos : α → α
  pi : α
  isNaN : α → Bool
  isInfinite : α → Bool

namespace Scalar

variable {α : Type} [Scalar α]

instance : DecidableLT α := decidableLT

instance : DecidableLE α := decidableLE

def isFinite (a : α) : Bool :=
  !isNaN a && !isInfinite a

/-- The lesser of two scalars; a number wins over a NaN. -/
def min (a b : α) : α :=
  if b < a then b else if a == a then a else b

/-- The greater of two scalars; a number wins over a NaN. -/
def max (a b : α) : α :=
  if a < b then b else if a == a then a else b

/-- `x` moved into `lo … hi`; a NaN stays as it is. -/
def clamp (x lo hi : α) : α :=
  let raised := if x < lo then lo else x
  if hi < raised then hi else raised

def radians (degrees : α) : α :=
  degrees * (pi / 180.0)

/-- The sum of a list, added from the left. -/
def sum (xs : List α) : α :=
  xs.foldl (· + ·) 0.0

/-- The arithmetic mean; of no numbers it is zero divided by zero. -/
def mean (xs : List α) : α :=
  sum xs / (xs.length : α)

/-- A usable ratio or weight: finite and strictly positive. -/
def isPositive (a : α) : Bool :=
  isFinite a && decide ((0.0 : α) < a)

end Scalar

end SvgLayout
