import Mathlib.Algebra.Ring.Int.Parity
import Mathlib.Data.Rat.Floor
import SvgLayout.Proofs.Number.Value

/-!
# Rounding to decimal places

A number rounded to a count of decimal places is the nearest multiple of the last place's unit, and
of two equally near the one with an even count of units. Quotients of natural numbers are rounded so
before their digits are written.

## Main definitions

* `IsNearest` — an integer is the one that a rational number rounds to.
* `nearestInt` — that integer.
* `roundTo` — a number rounded to a count of decimal places.

## Main statements

* `IsNearest.le_of_le` — rounding keeps the order.
* `nearestInt_eq_iff` — each number rounds to one integer.
* `isNearest_roundDiv` — a rounded quotient is the integer nearest to it.
* `Binary64.nearestInt_toRat_mul` — the count of units of the last place is rounded once.
-/

namespace SvgLayout

/-! ## The nearest integer -/

/-- The integer `n` is nearest to `q`; a tie goes to the even neighbour. -/
structure IsNearest (q : ℚ) (n : ℤ) : Prop where
  lower : (n : ℚ) - 1 / 2 ≤ q
  upper : q ≤ (n : ℚ) + 1 / 2
  even : |q - n| = 1 / 2 → Even n

/-- The integer that `q` rounds to, a half going to the even neighbour. -/
def nearestInt (q : ℚ) : ℤ :=
  if Int.fract q < 1 / 2 then ⌊q⌋
  else if 1 / 2 < Int.fract q then ⌊q⌋ + 1
  else if Even ⌊q⌋ then ⌊q⌋ else ⌊q⌋ + 1

/-- A number rounded to a count of decimal places, a half going to the even neighbour. -/
def roundTo (places : ℕ) (q : ℚ) : ℚ :=
  nearestInt (q * 10 ^ places) / 10 ^ places

namespace IsNearest

variable {q r : ℚ} {n m : ℤ}

/-- An integer that is less than half a unit away is the nearest one. -/
theorem of_lt (lower : (n : ℚ) - 1 / 2 < q) (upper : q < n + 1 / 2) : IsNearest q n where
  lower := lower.le
  upper := upper.le
  even := by
    intro tie
    have strict : |q - n| < 1 / 2 := abs_lt.mpr ⟨by linarith, by linarith⟩
    exact absurd tie strict.ne

/-- An even integer that is at most half a unit away is the nearest one. -/
theorem of_even (lower : (n : ℚ) - 1 / 2 ≤ q) (upper : q ≤ n + 1 / 2) (even : Even n) :
    IsNearest q n :=
  ⟨lower, upper, fun _ => even⟩

theorem intCast (n : ℤ) : IsNearest n n :=
  of_lt (by linarith) (by linarith)

theorem neg (nearest : IsNearest q n) : IsNearest (-q) (-n) where
  lower := by
    have := nearest.upper
    push_cast
    linarith
  upper := by
    have := nearest.lower
    push_cast
    linarith
  even := by
    intro tie
    rw [even_neg]
    apply nearest.even
    rwa [Int.cast_neg, ← neg_sub', abs_neg] at tie

/-- Rounding keeps the order: were the integers the other way around, both numbers would lie halfway
between them, and two neighbours cannot both be even. -/
theorem le_of_le (nearest : IsNearest q n) (nearest' : IsNearest r m) (atMost : q ≤ r) : n ≤ m := by
  by_contra above
  have above : m + 1 ≤ n := by omega
  have aboveCast : (m : ℚ) + 1 ≤ n := by exact_mod_cast above
  have lower := nearest.lower
  have upper := nearest'.upper
  have next : n = m + 1 := by
    have : (n : ℚ) ≤ m + 1 := by linarith
    have : n ≤ m + 1 := by exact_mod_cast this
    omega
  have nextCast : (n : ℚ) = m + 1 := by exact_mod_cast next
  have evenAbove : Even n := by
    apply nearest.even
    rw [abs_of_nonpos (by linarith)]
    linarith
  have evenBelow : Even m := by
    apply nearest'.even
    rw [abs_of_nonneg (by linarith)]
    linarith
  rw [next, Int.even_add_one] at evenAbove
  exact evenAbove evenBelow

theorem unique (nearest : IsNearest q n) (nearest' : IsNearest q m) : n = m :=
  le_antisymm (nearest.le_of_le nearest' le_rfl) (nearest'.le_of_le nearest le_rfl)

end IsNearest

theorem isNearest_nearestInt (q : ℚ) : IsNearest q (nearestInt q) := by
  have split := Int.floor_add_fract q
  have nonneg := Int.fract_nonneg q
  have below := Int.fract_lt_one q
  unfold nearestInt
  split_ifs with down up even
  · exact .of_lt (by linarith) (by linarith)
  · exact .of_lt (by push_cast; linarith) (by push_cast; linarith)
  · exact .of_even (by linarith) (by linarith) even
  · exact .of_even (by push_cast; linarith) (by push_cast; linarith) (Int.even_add_one.mpr even)

/-- Each number rounds to one integer. -/
theorem nearestInt_eq_iff {q : ℚ} {n : ℤ} : nearestInt q = n ↔ IsNearest q n := by
  constructor
  · intro rounds
    rw [← rounds]
    exact isNearest_nearestInt q
  · exact (isNearest_nearestInt q).unique

@[simp] theorem nearestInt_intCast (n : ℤ) : nearestInt n = n :=
  nearestInt_eq_iff.mpr (.intCast n)

@[simp] theorem nearestInt_neg (q : ℚ) : nearestInt (-q) = -nearestInt q :=
  nearestInt_eq_iff.mpr (isNearest_nearestInt q).neg

theorem nearestInt_le_nearestInt {q r : ℚ} (atMost : q ≤ r) : nearestInt q ≤ nearestInt r :=
  (isNearest_nearestInt q).le_of_le (isNearest_nearestInt r) atMost

/-! ## Decimal places -/

theorem roundTo_le_roundTo (places : ℕ) {q r : ℚ} (atMost : q ≤ r) :
    roundTo places q ≤ roundTo places r := by
  have scaled : q * 10 ^ places ≤ r * 10 ^ places := by gcongr
  have rounded : (nearestInt (q * 10 ^ places) : ℚ) ≤ nearestInt (r * 10 ^ places) := by
    exact_mod_cast nearestInt_le_nearestInt scaled
  unfold roundTo
  gcongr

/-- A whole number is not rounded. -/
theorem nearestInt_intCast_mul (n : ℤ) (places : ℕ) :
    nearestInt (n * 10 ^ places) = n * 10 ^ places := by
  have whole : (n : ℚ) * 10 ^ places = (n * 10 ^ places : ℤ) := by push_cast; rfl
  rw [whole, nearestInt_intCast]

/-! ## Rounded quotients -/

/-- A quotient is its whole part and a fraction of the divisor. -/
theorem div_eq_add_mod_div (num : ℕ) {den : ℕ} (pos : 0 < den) :
    (num : ℚ) / den = (num / den : ℕ) + (num % den : ℕ) / den := by
  have posCast : (0 : ℚ) < den := by exact_mod_cast pos
  rw [div_eq_iff posCast.ne', add_mul, div_mul_cancel₀ _ posCast.ne']
  exact_mod_cast (Nat.div_add_mod' num den).symm

/-- A rounded quotient is the integer nearest to it. -/
theorem isNearest_roundDiv (num : ℕ) {den : ℕ} (pos : 0 < den) :
    IsNearest (num / den) (roundDiv num den) := by
  have posCast : (0 : ℚ) < den := by exact_mod_cast pos
  have nonneg : (0 : ℚ) ≤ (num % den : ℕ) / den := by positivity
  have below : ((num % den : ℕ) : ℚ) / den < 1 :=
    (div_lt_one posCast).mpr (by exact_mod_cast Nat.mod_lt num pos)
  have small : ((num % den : ℕ) : ℚ) / den < 1 / 2 ↔ 2 * (num % den) < den := by
    rw [div_lt_div_iff₀ posCast two_pos, one_mul, mul_comm]
    exact_mod_cast Iff.rfl
  have large : 1 / 2 < ((num % den : ℕ) : ℚ) / den ↔ den < 2 * (num % den) := by
    rw [div_lt_div_iff₀ two_pos posCast, one_mul, mul_comm]
    exact_mod_cast Iff.rfl
  rw [div_eq_add_mod_div num pos]
  simp only [roundDiv, ← small, ← large]
  generalize num / den = whole
  generalize ((num % den : ℕ) : ℚ) / den = part at *
  split_ifs with down up even
  · exact .of_lt (by push_cast; linarith) (by push_cast; linarith)
  · exact .of_lt (by push_cast; linarith) (by push_cast; linarith)
  · refine .of_even (by push_cast; linarith) (by push_cast; linarith) ?_
    exact_mod_cast Nat.even_iff.mpr even
  · refine .of_even (by push_cast; linarith) (by push_cast; linarith) ?_
    exact_mod_cast Nat.even_add_one.mpr fun h => even (Nat.even_iff.mp h)

namespace Binary64

/-- The count of units of the last place is rounded once from the exact value. -/
theorem nearestInt_toRat_mul (negative : Bool) (mantissa : ℕ) (exponent : ℤ) (places : ℕ) :
    nearestInt ((finite negative mantissa exponent).toRat * 10 ^ places) =
      if negative then -(fixedUnits mantissa exponent places : ℤ)
      else fixedUnits mantissa exponent places := by
  have magnitude : nearestInt (magnitude mantissa exponent * 10 ^ places) =
      fixedUnits mantissa exponent places := by
    rw [nearestInt_eq_iff, ← numerator_div_denominator, div_mul_eq_mul_div]
    exact_mod_cast isNearest_roundDiv (numerator mantissa exponent * 10 ^ places)
      (denominator_pos exponent)
  cases negative with
  | false => exact magnitude
  | true =>
    rw [← magnitude, ← nearestInt_neg, ← neg_mul]
    rfl

end Binary64

end SvgLayout
