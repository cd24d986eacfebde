import Mathlib.Analysis.SpecialFunctions.Log.Basic
import Mathlib.Analysis.SpecialFunctions.Sqrt
import Mathlib.Analysis.SpecialFunctions.Trigonometric.Basic
import SvgLayout.Number.Text
import SvgLayout.Scalar

/-!
# Layout in the real numbers

The exact number system: no operation rounds, every number is finite, and a quotient by zero is
zero.
What is laid out here is what the formulas of the layout mean before rounding.

## Main definitions

* `nearest`, `realDecimal` — rounding to a natural number, and to a decimal.

## Main statements

* Each operation of `Scalar` is the one of the real numbers.
* `Scalar.sq_abs_cos_add_sq_abs_sin`, `Scalar.extent_pos` — the magnitudes of a cosine and a sine.
-/

namespace SvgLayout

noncomputable instance : Scalar ℝ where
  decidableLT := Real.decidableLT
  decidableLE := Real.decidableLE
  beq a b := decide (a = b)
  abs a := |a|
  copySign m s := if s < 0 then -|m| else |m|
  sqrt := Real.sqrt
  exp := Real.exp
  log := Real.log
  sin := Real.sin
  cos := Real.cos
  pi := Real.pi
  isNaN _ := false
  isInfinite _ := false

namespace Scalar

/-! ## Literals -/

theorem ofScientific_eq (mantissa exponent : ℕ) (sign : Bool) :
    @OfScientific.ofScientific ℝ Scalar.toOfScientific mantissa sign exponent =
      @OfScientific.ofScientific ℝ NNRatCast.toOfScientific mantissa sign exponent :=
  rfl

@[simp] theorem literal_zero : @OfScientific.ofScientific ℝ Scalar.toOfScientific 0 true 1 = 0 := by
  rw [ofScientific_eq]
  norm_num

@[simp] theorem literal_one : @OfScientific.ofScientific ℝ Scalar.toOfScientific 10 true 1 = 1 := by
  rw [ofScientific_eq]
  norm_num

@[simp] theorem literal_two : @OfScientific.ofScientific ℝ Scalar.toOfScientific 20 true 1 = 2 := by
  rw [ofScientific_eq]
  norm_num

@[simp] theorem literal_three :
    @OfScientific.ofScientific ℝ Scalar.toOfScientific 30 true 1 = 3 := by
  rw [ofScientific_eq]
  norm_num

@[simp] theorem literal_half :
    @OfScientific.ofScientific ℝ Scalar.toOfScientific 5 true 1 = 1 / 2 := by
  rw [ofScientific_eq]
  norm_num

/-! ## Operations -/

section

variable (a b : ℝ)

@[simp] theorem abs_eq : Scalar.abs a = |a| := rfl

@[simp] theorem cos_eq : Scalar.cos a = Real.cos a := rfl

@[simp] theorem sin_eq : Scalar.sin a = Real.sin a := rfl

@[simp] theorem pi_eq : (Scalar.pi : ℝ) = Real.pi := rfl

@[simp] theorem beq_eq : (a == b) = decide (a = b) := rfl

theorem copySign_eq : Scalar.copySign a b = if b < 0 then -|a| else |a| := rfl

@[simp] theorem isFinite_eq : Scalar.isFinite a = true := rfl

@[simp] theorem isPositive_eq : Scalar.isPositive a = decide (0 < a) := by
  simp [isPositive]

@[simp] theorem min_eq : Scalar.min a b = Min.min a b := by
  rw [Scalar.min]
  by_cases h : b < a
  · simp [h, h.le]
  · simp [h, not_lt.mp h]

@[simp] theorem max_eq : Scalar.max a b = Max.max a b := by
  rw [Scalar.max]
  by_cases h : a < b
  · simp [h, h.le]
  · simp [h, not_lt.mp h]

@[simp] theorem clamp_eq (x lo hi : ℝ) : Scalar.clamp x lo hi = Min.min (Max.max x lo) hi := by
  have raised : (if x < lo then lo else x) = Max.max x lo := (max_def_lt x lo).symm
  have lowered : (if hi < Max.max x lo then hi else Max.max x lo) = Min.min (Max.max x lo) hi := by
    rw [min_comm, min_def_lt]
  simp only [Scalar.clamp, raised, lowered]

/-- A magnitude takes the sign of the number it belongs to. -/
@[simp] theorem copySign_abs_self : Scalar.copySign |a| a = a := by
  rw [copySign_eq, abs_abs]
  by_cases h : a < 0
  · simp [h, abs_of_neg h]
  · simp [h, abs_of_nonneg (not_lt.mp h)]

@[simp] theorem abs_copySign : |Scalar.copySign a b| = |a| := by
  rw [copySign_eq]
  by_cases h : b < 0 <;> simp [h]

end

@[simp] theorem sum_eq (xs : List ℝ) : Scalar.sum xs = xs.sum := by
  have shift : ∀ (xs : List ℝ) (start : ℝ), xs.foldl (· + ·) start = start + xs.sum := by
    intro xs
    induction xs with
    | nil => simp
    | cons x xs ih =>
      intro start
      rw [List.foldl_cons, ih, List.sum_cons, add_assoc]
  simpa [Scalar.sum] using shift xs 0

/-- The magnitudes of a cosine and a sine are the legs of a triangle whose hypotenuse is one. -/
theorem sq_abs_cos_add_sq_abs_sin (angle : ℝ) :
    |Real.cos angle| ^ 2 + |Real.sin angle| ^ 2 = 1 := by
  rw [sq_abs, sq_abs, Real.cos_sq_add_sin_sq]

/-- A turned box of positive ratio has an extent: the legs are not both empty. -/
theorem extent_pos {aspect c s : ℝ} (positive : 0 < aspect) (hc : 0 ≤ c) (hs : 0 ≤ s)
    (unit : c ^ 2 + s ^ 2 = 1) : 0 < aspect * c + s := by
  rcases hs.eq_or_lt with rfl | hs
  · have hc : 0 < c := by
      refine lt_of_le_of_ne hc ?_
      rintro rfl
      norm_num at unit
    positivity
  · positivity

end Scalar

/-! ## Texts -/

noncomputable section

/-- The natural number nearest to a magnitude, a half going to the even neighbour. -/
def nearest (x : ℝ) : ℕ :=
  let whole := ⌊x⌋₊
  let rest := x - whole
  if rest + rest < 1 ∨ rest + rest = 1 ∧ Even whole then whole else whole + 1

/-- The text with exactly `places` decimal places. -/
def realDecimal (x : ℝ) (places : ℕ) : String :=
  String.ofList (signChars (decide (x < 0)) ++ fixedDigits (nearest (|x| * 10 ^ places)) places)

/-- A number that a decimal reads back as has the one with the fewest such places. -/
instance : NumberText ℝ where
  fixed := realDecimal
  shortest x := realDecimal x (sInf {places | ∃ units : ℤ, x * 10 ^ places = units})

end

end SvgLayout
