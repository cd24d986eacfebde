import Mathlib.Data.EReal.Basic
import Mathlib.Data.Prod.Lex
import SvgLayout.Proofs.Scalar.Extended
import SvgLayout.Scalar.Double

/-!
# The order of numbers

Apart from what is no number, the numbers of every number system stand in one order. Infinities are
at its ends, and only numbers that are numerically equal, such as the two zeros of the doubles,
share a place. The lesser and the greater of two numbers are their best bounds.

## Main definitions

* `Scalar.Ordered` — a number system in which this is so.
* `Extended.rank`, `unpackedRank` — where a number stands.

## Main statements

* `Scalar.Ordered.ofRank` — numbers that are compared by their ranks stand in one order.
* `compare_eq_unpackedRank` — doubles are compared by their ranks.
* `Scalar.le_min_iff`, `Scalar.max_le_iff` and their companions — bounds of two numbers.
-/

namespace SvgLayout

/-- A number system whose numbers stand in one order, on which the strict order and numeric equality
rest. What is not a number is not compared. -/
class Scalar.Ordered (α : Type) [Scalar α] : Prop where
  isNaN_of_le : ∀ {a b : α}, a ≤ b → Scalar.isNaN a = false ∧ Scalar.isNaN b = false
  total : ∀ {a b : α}, Scalar.isNaN a = false → Scalar.isNaN b = false → a ≤ b ∨ b ≤ a
  trans : ∀ {a b c : α}, a ≤ b → b ≤ c → a ≤ c
  lt_iff : ∀ {a b : α}, a < b ↔ a ≤ b ∧ ¬b ≤ a
  beq_iff : ∀ {a b : α}, (a == b) = true ↔ a ≤ b ∧ b ≤ a

/-! ## Ranks -/

/-- Numbers that are compared by their ranks stand in one order. -/
theorem Scalar.Ordered.ofRank {α β : Type} [Scalar α] [LinearOrder β] (rank : α → β)
    (le : ∀ a b : α, a ≤ b ↔
      (Scalar.isNaN a = false ∧ Scalar.isNaN b = false) ∧ rank a ≤ rank b)
    (lt : ∀ a b : α, a < b ↔
      (Scalar.isNaN a = false ∧ Scalar.isNaN b = false) ∧ rank a < rank b)
    (beq : ∀ a b : α, (a == b) = true ↔
      (Scalar.isNaN a = false ∧ Scalar.isNaN b = false) ∧ rank a = rank b) :
    Scalar.Ordered α where
  isNaN_of_le h := ((le _ _).mp h).1
  total {a b} ha hb := by
    rcases le_total (rank a) (rank b) with h | h
    · exact .inl ((le a b).mpr ⟨⟨ha, hb⟩, h⟩)
    · exact .inr ((le b a).mpr ⟨⟨hb, ha⟩, h⟩)
  trans {a b c} h h' := by
    obtain ⟨⟨ha, -⟩, hab⟩ := (le a b).mp h
    obtain ⟨⟨-, hc⟩, hbc⟩ := (le b c).mp h'
    exact (le a c).mpr ⟨⟨ha, hc⟩, hab.trans hbc⟩
  lt_iff {a b} := by
    rw [lt, le, le, lt_iff_le_not_ge]
    tauto
  beq_iff {a b} := by
    have equal : rank a = rank b ↔ rank a ≤ rank b ∧ rank b ≤ rank a := le_antisymm_iff
    rw [beq, le, le, equal]
    tauto

instance : Scalar.Ordered ℝ :=
  .ofRank id (by simp [Scalar.isNaN]) (by simp [Scalar.isNaN]) (by simp [Scalar.isNaN])

/-! ## Infinities -/

namespace Extended

/-- Where a number stands among the real numbers and the infinities. -/
noncomputable def rank : Extended → EReal
  | nan => 0
  | infinite true => ⊥
  | infinite false => ⊤
  | real x => x

instance : Scalar.Ordered Extended := by
  have le_def : ∀ a b : Extended, a ≤ b ↔ le a b := fun _ _ => Iff.rfl
  have lt_def : ∀ a b : Extended, a < b ↔ lt a b := fun _ _ => Iff.rfl
  have beq_def : ∀ a b : Extended, (a == b) = true ↔ eq a b := by
    classical exact fun _ _ => decide_eq_true_iff
  apply Scalar.Ordered.ofRank rank
  · intro a b
    rw [le_def]
    rcases a with _ | (_ | _) | _ <;> rcases b with _ | (_ | _) | _ <;>
      simp [le, rank, Scalar.isNaN]
  · intro a b
    rw [lt_def]
    rcases a with _ | (_ | _) | _ <;> rcases b with _ | (_ | _) | _ <;>
      simp [lt, rank, Scalar.isNaN]
  · intro a b
    rw [beq_def]
    rcases a with _ | (_ | _) | _ <;> rcases b with _ | (_ | _) | _ <;>
      simp [eq, rank, Scalar.isNaN]

end Extended

/-! ## Doubles -/

section

open Float.Model

private theorem compare_neg (a b : ℤ) : compare (-a) (-b) = (compare a b).swap := by
  rw [Int.compare_swap]
  rcases lt_trichotomy a b with below | rfl | above
  · rw [compare_gt_iff_gt.mpr below, compare_gt_iff_gt.mpr (neg_lt_neg below)]
  · simp
  · rw [compare_lt_iff_lt.mpr above, compare_lt_iff_lt.mpr (neg_lt_neg above)]

private theorem compare_natCast (a b : ℕ) : compare (a : ℤ) (b : ℤ) = compare a b := by
  rcases lt_trichotomy a b with below | rfl | above
  · rw [compare_lt_iff_lt.mpr below, compare_lt_iff_lt.mpr (Int.ofNat_lt.mpr below)]
  · simp
  · rw [compare_gt_iff_gt.mpr above, compare_gt_iff_gt.mpr (Int.ofNat_lt.mpr above)]

private theorem compare_rank (sign exponent mantissa exponent' mantissa' : ℤ) :
    compare (toLex (sign, toLex (exponent, mantissa)))
        (toLex (sign, toLex (exponent', mantissa'))) =
      (compare exponent exponent').then (compare mantissa mantissa') := by
  have same : compare sign sign = .eq := compare_eq_iff_eq.mpr rfl
  exact congrArg (Ordering.then · _) same

/-- Where a double stands: by its sign and whether it is infinite, then by its exponent and its
mantissa, which count the other way below zero. -/
def unpackedRank : UnpackedFloat → ℤ ×ₗ ℤ ×ₗ ℤ
  | .notANumber => toLex (0, toLex (0, 0))
  | .infinity .negative => toLex (-2, toLex (0, 0))
  | .finite .negative mantissa exponent _ => toLex (-1, toLex (-exponent, -mantissa))
  | .zero _ => toLex (0, toLex (0, 0))
  | .finite .positive mantissa exponent _ => toLex (1, toLex (exponent, mantissa))
  | .infinity .positive => toLex (2, toLex (0, 0))

/-- Doubles are compared by their ranks. -/
theorem compare_eq_unpackedRank {u v : UnpackedFloat} (hu : u.isNaN = false)
    (hv : v.isNaN = false) : u.compare v = some (compare (unpackedRank u) (unpackedRank v)) := by
  cases u with
  | notANumber => cases hu
  | infinity sign =>
    cases v with
    | notANumber => cases hv
    | infinity sign' => cases sign <;> cases sign' <;> rfl
    | zero sign' => cases sign <;> rfl
    | finite sign' => cases sign <;> cases sign' <;> rfl
  | zero sign =>
    cases v with
    | notANumber => cases hv
    | infinity sign' => cases sign' <;> rfl
    | zero sign' => rfl
    | finite sign' => cases sign' <;> rfl
  | finite sign mantissa exponent =>
    cases v with
    | notANumber => cases hv
    | infinity sign' => cases sign <;> cases sign' <;> rfl
    | zero sign' => cases sign <;> rfl
    | finite sign' mantissa' exponent' =>
      cases sign with
      | negative =>
        cases sign' with
        | negative =>
          have ranks := compare_rank (-1) (-exponent) (-mantissa) (-exponent') (-mantissa')
          rw [compare_neg, compare_neg, compare_natCast, ← Ordering.swap_then] at ranks
          exact congrArg some ranks.symm
        | positive => rfl
      | positive =>
        cases sign' with
        | negative => rfl
        | positive =>
          have ranks := compare_rank 1 exponent mantissa exponent' mantissa'
          rw [compare_natCast] at ranks
          exact congrArg some ranks.symm

/-- What is no number is not compared. -/
theorem compare_eq_none {u v : UnpackedFloat} (h : ¬(u.isNaN = false ∧ v.isNaN = false)) :
    u.compare v = none := by
  cases u with
  | notANumber => rfl
  | infinity sign =>
    cases v with
    | notANumber => cases sign <;> rfl
    | _ => exact absurd ⟨rfl, rfl⟩ h
  | zero sign =>
    cases v with
    | notANumber => rfl
    | _ => exact absurd ⟨rfl, rfl⟩ h
  | finite sign =>
    cases v with
    | notANumber => cases sign <;> rfl
    | _ => exact absurd ⟨rfl, rfl⟩ h

/-- What is asked about a comparison is asked about the ranks of two numbers. -/
private theorem any_compare {u v : UnpackedFloat} (p : Ordering → Bool) :
    (u.compare v).any p = true ↔ (u.isNaN = false ∧ v.isNaN = false) ∧
      p (compare (unpackedRank u) (unpackedRank v)) = true := by
  by_cases numbers : u.isNaN = false ∧ v.isNaN = false
  · rw [compare_eq_unpackedRank numbers.1 numbers.2]
    simp [numbers]
  · rw [compare_eq_none numbers]
    simp [numbers]

private theorem beq_eq_any (o : Option Ordering) (expected : Ordering) :
    (o == some expected) = o.any (· == expected) := by
  cases o <;> rfl

instance : Scalar.Ordered Float := by
  have le_def (a b : Float) : a ≤ b ↔
      (a.toModel.unpack.compare b.toModel.unpack).any Ordering.isLE = true := decide_eq_true_iff
  have lt_def (a b : Float) : a < b ↔
      (a.toModel.unpack.compare b.toModel.unpack == some .lt) = true := decide_eq_true_iff
  have beq_def (a b : Float) : (a == b) =
      (a.toModel.unpack.compare b.toModel.unpack == some .eq) := rfl
  apply Scalar.Ordered.ofRank fun a => unpackedRank a.toModel.unpack
  · intro a b
    rw [le_def]
    exact (any_compare _).trans
      (and_congr_right' (Ordering.isLE_iff_ne_gt.trans compare_le_iff_le))
  · intro a b
    rw [lt_def, beq_eq_any]
    exact (any_compare _).trans (and_congr_right' (beq_iff_eq.trans compare_lt_iff_lt))
  · intro a b
    rw [beq_def, beq_eq_any]
    exact (any_compare _).trans (and_congr_right' (beq_iff_eq.trans compare_eq_iff_eq))

end

/-! ## Bounds -/

namespace Scalar

variable {α : Type} [Scalar α] [Ordered α] {a b c : α}

theorem le_refl_of_number (ha : isNaN a = false) : a ≤ a :=
  (Ordered.total ha ha).elim id id

/-- The lesser of two numbers is one of them. -/
theorem min_choice (ha : isNaN a = false) (hb : isNaN b = false) :
    Scalar.min a b = a ∧ a ≤ b ∨ Scalar.min a b = b ∧ b ≤ a := by
  have self : (a == a) = true := Ordered.beq_iff.mpr ⟨le_refl_of_number ha, le_refl_of_number ha⟩
  rw [Scalar.min, self]
  by_cases below : b < a
  · exact .inr ⟨if_pos below, (Ordered.lt_iff.mp below).1⟩
  · refine .inl ⟨by simp [below], ?_⟩
    rw [Ordered.lt_iff, not_and_not_right] at below
    exact (Ordered.total ha hb).elim id below

/-- The greater of two numbers is one of them. -/
theorem max_choice (ha : isNaN a = false) (hb : isNaN b = false) :
    Scalar.max a b = a ∧ b ≤ a ∨ Scalar.max a b = b ∧ a ≤ b := by
  have self : (a == a) = true := Ordered.beq_iff.mpr ⟨le_refl_of_number ha, le_refl_of_number ha⟩
  rw [Scalar.max, self]
  by_cases above : a < b
  · exact .inr ⟨if_pos above, (Ordered.lt_iff.mp above).1⟩
  · refine .inl ⟨by simp [above], ?_⟩
    rw [Ordered.lt_iff, not_and_not_right] at above
    exact (Ordered.total hb ha).elim id above

theorem le_min_iff (ha : isNaN a = false) (hb : isNaN b = false) :
    c ≤ Scalar.min a b ↔ c ≤ a ∧ c ≤ b := by
  rcases min_choice ha hb with ⟨h, least⟩ | ⟨h, least⟩
  · rw [h]
    exact ⟨fun hc => ⟨hc, Ordered.trans hc least⟩, And.left⟩
  · rw [h]
    exact ⟨fun hc => ⟨Ordered.trans hc least, hc⟩, And.right⟩

theorem min_le_iff (ha : isNaN a = false) (hb : isNaN b = false) :
    Scalar.min a b ≤ c ↔ a ≤ c ∨ b ≤ c := by
  rcases min_choice ha hb with ⟨h, least⟩ | ⟨h, least⟩
  · rw [h]
    exact ⟨.inl, fun hc => hc.elim id (Ordered.trans least)⟩
  · rw [h]
    exact ⟨.inr, fun hc => hc.elim (Ordered.trans least) id⟩

theorem max_le_iff (ha : isNaN a = false) (hb : isNaN b = false) :
    Scalar.max a b ≤ c ↔ a ≤ c ∧ b ≤ c := by
  rcases max_choice ha hb with ⟨h, greatest⟩ | ⟨h, greatest⟩
  · rw [h]
    exact ⟨fun hc => ⟨hc, Ordered.trans greatest hc⟩, And.left⟩
  · rw [h]
    exact ⟨fun hc => ⟨Ordered.trans greatest hc, hc⟩, And.right⟩

theorem le_max_iff (ha : isNaN a = false) (hb : isNaN b = false) :
    c ≤ Scalar.max a b ↔ c ≤ a ∨ c ≤ b := by
  rcases max_choice ha hb with ⟨h, greatest⟩ | ⟨h, greatest⟩
  · rw [h]
    exact ⟨.inl, fun hc => hc.elim id fun hc => Ordered.trans hc greatest⟩
  · rw [h]
    exact ⟨.inr, fun hc => hc.elim (fun hc => Ordered.trans hc greatest) id⟩

end Scalar

end SvgLayout
