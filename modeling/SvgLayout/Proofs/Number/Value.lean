import Mathlib.Algebra.Order.Field.Power
import Mathlib.Tactic.Positivity
import Mathlib.Tactic.Ring
import SvgLayout.Number.Text

/-!
# The values of doubles

The reading of a double's bits gives it a value: a sign, a mantissa and a power of two make a
rational number. Comparisons of doubles look at the same parts, exponents before mantissas, and this
is the order of the values because a mantissa fills its fifty-three bits unless the exponent is the
smallest one.

## Main definitions

* `Binary64.toRat`, `valueOf` — the value of a double.
* `Binary64.Fills`, `Binary64.IsCanonical` — a mantissa fills its bits.
* `Binary64.ofUnpacked` — the reading of a double that is taken apart already.

## Main statements

* `Binary64.ofFloat_eq` — reading the bits of a double takes it apart.
* `Binary64.exists_of_isFinite` — what a finite double reads as.
* `valueOf_le_valueOf` — a finite double is at most another one only if its value is.
-/

namespace SvgLayout

open Float.Model

namespace Binary64

/-- The magnitude that a mantissa and a power of two make. -/
def magnitude (mantissa : ℕ) (exponent : ℤ) : ℚ :=
  mantissa * 2 ^ exponent

/-- The value of a finite double. -/
def toRat : Binary64 → ℚ
  | finite negative mantissa exponent =>
    if negative then -magnitude mantissa exponent else magnitude mantissa exponent
  | _ => 0

theorem magnitude_nonneg (mantissa : ℕ) (exponent : ℤ) : 0 ≤ magnitude mantissa exponent := by
  unfold magnitude
  positivity

/-- A magnitude is the quotient of its numerator and its denominator. -/
theorem numerator_div_denominator (mantissa : ℕ) (exponent : ℤ) :
    (numerator mantissa exponent : ℚ) / denominator exponent = magnitude mantissa exponent := by
  rcases Int.eq_nat_or_neg exponent with ⟨n, rfl | rfl⟩
  · simp [numerator, denominator, magnitude]
  · simp [numerator, denominator, magnitude, div_eq_mul_inv]

/-! ## Canonical readings -/

/-- The mantissa fills its fifty-three bits, unless the exponent is the smallest one. -/
structure Fills (mantissa : ℕ) (exponent : ℤ) : Prop where
  least : minExponent ≤ exponent
  bits : mantissa < 2 * leadingMantissa
  full : minExponent < exponent → leadingMantissa ≤ mantissa

/-- The mantissa of a finite double fills its bits. -/
def IsCanonical : Binary64 → Prop
  | finite _ mantissa exponent => Fills mantissa exponent
  | _ => True

theorem isCanonical_ofBits (bits : UInt64) : (ofBits bits).IsCanonical := by
  have bound := Nat.mod_lt bits.toNat (Nat.two_pow_pos 52)
  simp only [ofBits]
  split_ifs
  · trivial
  · trivial
  · refine ⟨le_rfl, ?_, fun above => absurd above (lt_irrefl _)⟩
    simp only [leadingMantissa, Nat.pow_eq]
    omega
  · refine ⟨by omega, ?_, fun _ => Nat.le_add_right _ _⟩
    simp only [leadingMantissa, Nat.pow_eq]
    omega

theorem isCanonical_ofFloat (x : Float) : (ofFloat x).IsCanonical :=
  isCanonical_ofBits x.toBits

section

variable {mantissa mantissa' : ℕ} {exponent exponent' : ℤ}

/-- Of two magnitudes whose mantissas fill their bits, the one with the smaller exponent is smaller:
its mantissa is less than twice the other one. -/
theorem magnitude_lt_of_exponent_lt (fills : Fills mantissa exponent)
    (fills' : Fills mantissa' exponent') (below : exponent < exponent') :
    magnitude mantissa exponent < magnitude mantissa' exponent' := by
  have full := fills'.full (fills.least.trans_lt below)
  have twice : (mantissa : ℚ) < 2 * mantissa' := by
    exact_mod_cast fills.bits.trans_le (Nat.mul_le_mul_left 2 full)
  have step : (2 : ℚ) * 2 ^ exponent ≤ 2 ^ exponent' := by
    rw [← zpow_one_add₀ two_ne_zero]
    exact zpow_le_zpow_right₀ one_le_two (by omega)
  calc magnitude mantissa exponent
      < 2 * mantissa' * 2 ^ exponent := by
        unfold magnitude
        exact mul_lt_mul_of_pos_right twice (by positivity)
    _ = mantissa' * (2 * 2 ^ exponent) := by ring
    _ ≤ magnitude mantissa' exponent' := mul_le_mul_of_nonneg_left step (Nat.cast_nonneg _)

/-- Exponents are compared first, and mantissas between equal exponents. -/
theorem magnitude_le_of_isLE (fills : Fills mantissa exponent)
    (fills' : Fills mantissa' exponent')
    (atMost : ((compare exponent exponent').then (compare mantissa mantissa')).isLE = true) :
    magnitude mantissa exponent ≤ magnitude mantissa' exponent' := by
  rcases lt_trichotomy exponent exponent' with below | rfl | above
  · exact (magnitude_lt_of_exponent_lt fills fills' below).le
  · have atMost : mantissa ≤ mantissa' := by
      simpa [Nat.isLE_compare] using atMost
    exact mul_le_mul_of_nonneg_right (by exact_mod_cast atMost) (by positivity)
  · rw [compare_gt_iff_gt.mpr above] at atMost
    cases atMost

end

/-! ## Taking a double apart -/

/-- A sign is that of negative numbers. -/
def isNegative : UnpackedFloat.Sign → Bool
  | .negative => true
  | .positive => false

/-- The reading of a double that is taken apart already. -/
def ofUnpacked : UnpackedFloat → Binary64
  | .notANumber => nan
  | .infinity sign => infinite (isNegative sign)
  | .zero sign => finite (isNegative sign) 0 minExponent
  | .finite sign mantissa exponent _ => finite (isNegative sign) mantissa exponent

section

variable (b : BitVec 64)

/-- The lowest fifty-two bits. -/
abbrev mantissaBits : BitVec 52 :=
  @UnpackedFloat.unpackMantissa .binary64 b

/-- The eleven bits above the mantissa. -/
abbrev exponentBits : BitVec 11 :=
  @UnpackedFloat.unpackExponent .binary64 b

/-- The highest bit. -/
abbrev signBit : BitVec 1 :=
  @UnpackedFloat.unpackSign .binary64 b

theorem toNat_mantissaBits : (mantissaBits b).toNat = b.toNat % leadingMantissa := by
  simp [UnpackedFloat.unpackMantissa, leadingMantissa]

theorem toNat_exponentBits :
    (exponentBits b).toNat = b.toNat / leadingMantissa % Nat.pow 2 11 := by
  simp [UnpackedFloat.unpackExponent, Nat.shiftRight_eq_div_pow, leadingMantissa]

theorem toNat_signBit : (signBit b).toNat = b.toNat / Nat.pow 2 63 := by
  have bound := b.isLt
  have highest : (signBit b).toNat = (b.extractLsb 63 63).toNat := rfl
  rw [highest, BitVec.extractLsb_toNat, Nat.shiftRight_eq_div_pow, Nat.pow_eq]
  omega

theorem isNegative_ofBitVec (sign : BitVec 1) :
    isNegative (.ofBitVec sign) = (sign.toNat == 1) := by
  revert sign
  decide

/-- A leading one counts for the power of two after the other bits. -/
theorem toNat_one_append {n : ℕ} (v : BitVec n) : (1#1 ++ v).toNat = 2 ^ n + v.toNat := by
  rw [BitVec.toNat_append, ← Nat.shiftLeft_add_eq_or_of_lt v.isLt, Nat.shiftLeft_eq]
  simp

/-- What the parts of the bits say, each as a natural number. -/
theorem ofUnpacked_unpack :
    ofUnpacked (UnpackedFloat.unpack .binary64 b) =
      if (exponentBits b).toNat = 2047 then
        if (mantissaBits b).toNat = 0 then infinite ((signBit b).toNat == 1) else nan
      else if (exponentBits b).toNat = 0 then
        finite ((signBit b).toNat == 1) (mantissaBits b).toNat minExponent
      else
        finite ((signBit b).toNat == 1) (1#1 ++ mantissaBits b).toNat
          ((exponentBits b).toNat - 1075) := by
  let sign := UnpackedFloat.Sign.ofBitVec (signBit b)
  have special : exponentBits b = -1#11 ↔ (exponentBits b).toNat = 2047 := BitVec.toNat_inj.symm
  have subnormal : exponentBits b = 0#11 ↔ (exponentBits b).toNat = 0 := BitVec.toNat_inj.symm
  have blank : mantissaBits b = 0#52 ↔ (mantissaBits b).toNat = 0 := BitVec.toNat_inj.symm
  rw [← isNegative_ofBitVec]
  simp only [← special, ← subnormal, ← blank]
  by_cases full : exponentBits b = -1#11
  · rw [if_pos full]
    by_cases empty : mantissaBits b = 0#52
    · have unpacked : UnpackedFloat.unpack .binary64 b = .infinity sign :=
        (if_pos full).trans (if_pos empty)
      rw [unpacked, if_pos empty]
      rfl
    · have unpacked : UnpackedFloat.unpack .binary64 b = .notANumber :=
        (if_pos full).trans (if_neg empty)
      rw [unpacked, if_neg empty]
      rfl
  · rw [if_neg full]
    by_cases least : exponentBits b = 0#11
    · rw [if_pos least]
      by_cases empty : mantissaBits b = 0#52
      · have unpacked : UnpackedFloat.unpack .binary64 b = .zero sign :=
          (if_neg full).trans ((if_pos least).trans (dif_pos empty))
        rw [unpacked, blank.mp empty]
        rfl
      · obtain ⟨positive, unpacked⟩ : ∃ positive, UnpackedFloat.unpack .binary64 b =
            .finite sign (mantissaBits b).toNat ((exponentBits b).toNat - 1075 + 1) positive :=
          ⟨_, (if_neg full).trans ((if_pos least).trans (dif_neg empty))⟩
        rw [unpacked, least]
        rfl
    · obtain ⟨positive, unpacked⟩ : ∃ positive, UnpackedFloat.unpack .binary64 b =
          .finite sign (1#1 ++ mantissaBits b).toNat ((exponentBits b).toNat - 1075) positive :=
        ⟨_, (if_neg full).trans (if_neg least)⟩
      rw [unpacked, if_neg least]
      rfl

end

theorem ofBits_eq (bits : UInt64) :
    ofBits bits = ofUnpacked (UnpackedFloat.unpack .binary64 bits.toBitVec) := by
  rw [ofUnpacked_unpack, toNat_one_append, toNat_exponentBits, toNat_mantissaBits, toNat_signBit]
  simp only [ofBits, UInt64.toNat_toBitVec]
  split_ifs with _ _ subnormal
  · rfl
  · rfl
  · rfl
  · have normal := Nat.pos_of_ne_zero subnormal
    have shift : minExponent + (bits.toNat / leadingMantissa % Nat.pow 2 11 - 1 : ℕ) =
        (bits.toNat / leadingMantissa % Nat.pow 2 11 : ℕ) - 1075 := by
      unfold minExponent
      omega
    rw [shift]
    rfl

/-- Reading the bits of a double takes it apart. -/
theorem ofFloat_eq (x : Float) : ofFloat x = ofUnpacked x.toModel.unpack :=
  ofBits_eq x.toBits

/-! ## Finite doubles -/

/-- A finite number that is taken apart has a sign, a mantissa and an exponent. -/
theorem exists_ofUnpacked {u : UnpackedFloat} (number : u.isFinite = true) :
    ∃ negative mantissa exponent, ofUnpacked u = finite negative mantissa exponent := by
  cases u with
  | notANumber => cases number
  | infinity sign => cases number
  | zero sign => exact ⟨_, _, _, rfl⟩
  | finite sign mantissa exponent => exact ⟨_, _, _, rfl⟩

/-- A finite double reads as a sign, a mantissa and an exponent. -/
theorem exists_of_isFinite {x : Float} (number : x.isFinite = true) :
    ∃ negative mantissa exponent, ofFloat x = finite negative mantissa exponent := by
  rw [ofFloat_eq]
  exact exists_ofUnpacked number

/-- The order of finite numbers that are taken apart is that of their values: signs are compared
first, and among negative numbers the magnitudes count the other way. -/
theorem toRat_le_toRat {u u' : UnpackedFloat} (number : u.isFinite = true)
    (number' : u'.isFinite = true)
    (canonical : (ofUnpacked u).IsCanonical) (canonical' : (ofUnpacked u').IsCanonical)
    (atMost : u.le u' = true) : (ofUnpacked u).toRat ≤ (ofUnpacked u').toRat := by
  have zero (negative : Bool) : (finite negative 0 minExponent).toRat = 0 := by
    cases negative <;> simp [toRat, magnitude]
  cases u with
  | notANumber => cases number
  | infinity sign => cases number
  | zero sign =>
    cases u' with
    | notANumber => cases number'
    | infinity sign' => cases number'
    | zero sign' => exact (zero _).trans_le (zero _).ge
    | finite sign' mantissa' exponent' =>
      cases sign' with
      | negative => cases atMost
      | positive => exact (zero _).trans_le (magnitude_nonneg _ _)
  | finite sign mantissa exponent =>
    cases u' with
    | notANumber => cases number'
    | infinity sign' => cases number'
    | zero sign' =>
      cases sign with
      | negative => exact (neg_nonpos.mpr (magnitude_nonneg _ _)).trans (zero _).ge
      | positive => cases atMost
    | finite sign' mantissa' exponent' =>
      cases sign with
      | negative =>
        cases sign' with
        | negative =>
          -- Below zero the greater magnitude is the smaller number.
          have swapped : ((compare exponent exponent').then (compare mantissa mantissa')).swap =
              (compare exponent' exponent).then (compare mantissa' mantissa) := by
            rw [Ordering.swap_then, Int.compare_swap, Nat.compare_swap]
          exact neg_le_neg (magnitude_le_of_isLE canonical' canonical (swapped ▸ atMost))
        | positive =>
          exact (neg_nonpos.mpr (magnitude_nonneg _ _)).trans (magnitude_nonneg _ _)
      | positive =>
        cases sign' with
        | negative => cases atMost
        | positive => exact magnitude_le_of_isLE canonical canonical' atMost

end Binary64

/-- The value of a double; that of an infinity, or of no number, is zero. -/
def valueOf (x : Float) : ℚ :=
  (Binary64.ofFloat x).toRat

/-- A finite double is at most another one only if its value is. -/
theorem valueOf_le_valueOf {v w : Float} (finite : v.isFinite = true) (finite' : w.isFinite = true)
    (atMost : v ≤ w) : valueOf v ≤ valueOf w := by
  have atMost : v.toModel.unpack.le w.toModel.unpack = true := of_decide_eq_true atMost
  have canonical := Binary64.isCanonical_ofFloat v
  have canonical' := Binary64.isCanonical_ofFloat w
  unfold valueOf
  rw [Binary64.ofFloat_eq] at canonical canonical' ⊢
  rw [Binary64.ofFloat_eq]
  exact Binary64.toRat_le_toRat finite finite' canonical canonical' atMost

end SvgLayout
