import SvgLayout.Number.Check
import SvgLayout.Proofs.Layout.Tracks
import SvgLayout.Proofs.Scalar.Extended
import SvgLayout.Scalar.Double

/-!
# Signs of numbers

A finite number is positive if it is neither zero nor negative. The check of positive numbers relies
on this: it refuses a number that is not finite, zero, and a negative number in turn.

## Main definitions

* `Scalar.HasSign` — a number system in which this is so.

## Main statements

* `checkFinite_eq_ok`, `checkPositive_eq_ok` — the checks accept the finite and the positive
  numbers, and no others.
-/

namespace SvgLayout

/-- A number system in which a finite number is positive if it is neither zero nor negative. -/
class Scalar.HasSign (α : Type) [Scalar α] : Prop where
  pos_iff : ∀ {a : α}, Scalar.isFinite a = true → (0.0 < a ↔ (a == 0.0) = false ∧ ¬a < 0.0)

/-! ## Number systems -/

private theorem real_pos_iff {x : ℝ} : 0 < x ↔ x ≠ 0 ∧ ¬x < 0 := by
  rw [not_lt, lt_iff_le_and_ne, and_comm, ne_comm]

instance : Scalar.HasSign ℝ where
  pos_iff _ := by
    simpa using real_pos_iff

instance : Scalar.HasSign Extended where
  pos_iff finite := by
    obtain ⟨x, rfl⟩ := Extended.isFinite_iff.mp finite
    simpa using real_pos_iff

section

open Float.Model

/-- A double that is a number is above zero, zero, or below zero. -/
private theorem unpacked_pos_iff {x : UnpackedFloat} (number : x.isNaN = false) :
    (UnpackedFloat.zero .positive).lt x = true ↔
      x.beq (.zero .positive) = false ∧ ¬x.lt (.zero .positive) = true := by
  cases x with
  | notANumber => cases number
  | infinity sign => cases sign <;> decide
  | zero sign => cases sign <;> decide
  | finite sign mantissa exponent pos =>
    cases sign with
    | positive => exact ⟨fun _ => ⟨rfl, Bool.false_ne_true⟩, fun _ => rfl⟩
    | negative => exact ⟨fun above => absurd above Bool.false_ne_true, fun h => absurd rfl h.2⟩

/-- Doubles are compared as what their bits stand for. -/
private theorem lt_iff_unpacked {a b : Float} :
    a < b ↔ a.toModel.unpack.lt b.toModel.unpack = true :=
  decide_eq_true_iff

instance : Scalar.HasSign Float where
  pos_iff {a} finite := by
    have number : Scalar.isNaN a = false := by
      rw [Scalar.isFinite, Bool.and_eq_true, Bool.not_eq_true'] at finite
      exact finite.1
    have zero : (0.0 : Float).toModel.unpack = .zero .positive := rfl
    have beq : (a == 0.0) = a.toModel.unpack.beq (0.0 : Float).toModel.unpack := rfl
    have sign := unpacked_pos_iff (x := a.toModel.unpack) number
    rw [← zero, ← beq] at sign
    exact lt_iff_unpacked.trans (sign.trans (and_congr_right' (not_congr lt_iff_unpacked.symm)))

end

/-! ## The check of positive numbers -/

variable {α : Type} [Scalar α] {a b : α}

theorem checkFinite_eq_ok : checkFinite a = .ok b ↔ a = b ∧ Scalar.isFinite a = true := by
  rw [checkFinite, Scalar.isFinite]
  by_cases nan : Scalar.isNaN a = true
  · simp [nan]
  · by_cases infinite : Scalar.isInfinite a = true <;> simp [nan, infinite]

/-- The check of positive numbers accepts the positive numbers and no others. -/
theorem checkPositive_eq_ok [Scalar.HasSign α] :
    checkPositive a = .ok b ↔ a = b ∧ Scalar.isPositive a = true := by
  simp only [checkPositive, Except.bind_eq_ok, checkFinite_eq_ok, and_assoc, exists_eq_left',
    Scalar.isPositive, Bool.and_eq_true, decide_eq_true_eq]
  rw [and_left_comm]
  refine and_congr_right fun finite => ?_
  rw [Scalar.HasSign.pos_iff finite]
  by_cases zero : (a == 0.0) = true
  · simp [zero]
  · by_cases negative : a < 0.0 <;> simp [zero, negative]

end SvgLayout
