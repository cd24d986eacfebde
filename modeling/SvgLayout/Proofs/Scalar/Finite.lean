import SvgLayout.Geometry.Rect
import SvgLayout.Proofs.Scalar.Extended

/-!
# Finite numbers

Without overflow a sum, a difference or a product is finite exactly if both of its operands are:
an operand that is no number or an infinity never cancels out. So what is computed from several
numbers by these operations says of each of them whether it is finite. Comparisons do not: the
lesser and the greater of two numbers are finite if both of them are.

## Main definitions

* `Point.IsFinite` — both coordinates are finite.

## Main statements

* `Extended.isFinite_add` and its companions — when the result of an operation is finite.
* `Point.isFinite_normalizeOrOrigin` — a unit vector is finite, whatever it is made from.
* `Point.isFinite_atAngle` — a direction is finite if its angle is.
* `Rect.isFinite_upright` — what is computed from a finite rectangle.
-/

namespace SvgLayout

def Point.IsFinite {α : Type} [Scalar α] (p : Point α) : Prop :=
  Scalar.isFinite p.x = true ∧ Scalar.isFinite p.y = true

namespace Extended

/-! ## Operations -/

variable (a b : Extended)

@[simp] theorem isFinite_neg : Scalar.isFinite (-a) = Scalar.isFinite a := by
  cases a <;> rfl

@[simp] theorem isFinite_add :
    Scalar.isFinite (a + b) = (Scalar.isFinite a && Scalar.isFinite b) := by
  have sum : a + b = add a b := rfl
  rw [sum]
  cases a <;> cases b <;> simp [add]
  split <;> rfl

@[simp] theorem isFinite_sub :
    Scalar.isFinite (a - b) = (Scalar.isFinite a && Scalar.isFinite b) := by
  have difference : a - b = a + -b := rfl
  rw [difference, isFinite_add, isFinite_neg]

@[simp] theorem isFinite_mul :
    Scalar.isFinite (a * b) = (Scalar.isFinite a && Scalar.isFinite b) := by
  have product : a * b = mul a b := rfl
  rw [product]
  cases a <;> cases b <;> simp [mul] <;> split <;> rfl

/-- A number over a number that is not zero. -/
theorem isFinite_div_real {y : ℝ} (h : y ≠ 0) :
    Scalar.isFinite (a / real y) = Scalar.isFinite a := by
  cases a with
  | nan => rfl
  | infinite negative => rfl
  | real x => rw [real_div h, isFinite_real, isFinite_real]

@[simp] theorem isFinite_radians : Scalar.isFinite (Scalar.radians a) = Scalar.isFinite a := by
  have unit : (180.0 : ℝ) ≠ 0 := by norm_num
  rw [Scalar.radians, isFinite_mul, pi_eq, ofScientific_eq, real_div unit, isFinite_real,
    Bool.and_true]

@[simp] theorem isFinite_cos : Scalar.isFinite (Scalar.cos a) = Scalar.isFinite a := by
  cases a with
  | infinite negative => cases negative <;> rfl
  | _ => rfl

@[simp] theorem isFinite_sin : Scalar.isFinite (Scalar.sin a) = Scalar.isFinite a := by
  cases a with
  | infinite negative => cases negative <;> rfl
  | _ => rfl

variable {a b}

theorem isFinite_of_sqrt (h : Scalar.isFinite (Scalar.sqrt a) = true) :
    Scalar.isFinite a = true := by
  cases a with
  | nan => exact h
  | infinite negative => cases negative <;> exact h
  | real x => rfl

theorem isFinite_min (ha : Scalar.isFinite a = true) (hb : Scalar.isFinite b = true) :
    Scalar.isFinite (Scalar.min a b) = true := by
  obtain ⟨x, rfl⟩ := isFinite_iff.mp ha
  obtain ⟨y, rfl⟩ := isFinite_iff.mp hb
  rw [min_real, isFinite_real]

theorem isFinite_max (ha : Scalar.isFinite a = true) (hb : Scalar.isFinite b = true) :
    Scalar.isFinite (Scalar.max a b) = true := by
  obtain ⟨x, rfl⟩ := isFinite_iff.mp ha
  obtain ⟨y, rfl⟩ := isFinite_iff.mp hb
  rw [max_real, isFinite_real]

/-- What equals a real number is one. -/
theorem isFinite_of_beq {x : ℝ} (h : (a == real x) = true) : Scalar.isFinite a = true := by
  classical
  have equal : eq a (real x) := of_decide_eq_true h
  cases a with
  | real y => rfl
  | _ => exact equal.elim

/-- What is less than something is a number, and so is what it is less than. -/
theorem isNaN_of_lt (h : a < b) : Scalar.isNaN a = false ∧ Scalar.isNaN b = false := by
  cases a with
  | nan => exact False.elim h
  | _ =>
    cases b with
    | nan => exact False.elim h
    | _ => exact ⟨rfl, rfl⟩

/-- The operands of a sum that is a number are numbers. -/
theorem isNaN_of_add (h : Scalar.isNaN (a + b) = false) : Scalar.isNaN b = false := by
  cases b with
  | nan => cases a <;> exact h
  | _ => rfl

theorem isNaN_of_sub (h : Scalar.isNaN (a - b) = false) : Scalar.isNaN b = false := by
  cases b with
  | nan => cases a <;> exact h
  | _ => rfl

theorem clamp_nan (lo hi : ℝ) : Scalar.clamp nan (real lo) (real hi) = nan := by
  have low : ¬nan < real lo := id
  have high : ¬real hi < nan := id
  rw [Scalar.clamp, if_neg low, if_neg high]

/-- A number that is moved between two finite ones becomes finite. -/
theorem isFinite_clamp {lo hi : ℝ} (h : lo ≤ hi) (number : Scalar.isNaN a = false) :
    Scalar.isFinite (Scalar.clamp a (real lo) (real hi)) = true := by
  cases a with
  | nan => cases number
  | infinite negative =>
    cases negative with
    | true => simp [Scalar.clamp, h.not_gt]
    | false => simp [Scalar.clamp]
  | real x =>
    simp only [Scalar.clamp, real_lt]
    split <;> split <;> rfl

/-- What is no number is not moved. -/
theorem isNaN_clamp {lo hi : ℝ} (h : lo ≤ hi) :
    Scalar.isNaN (Scalar.clamp a (real lo) (real hi)) = Scalar.isNaN a := by
  cases number : Scalar.isNaN a with
  | true =>
    cases a with
    | nan => rw [clamp_nan, number]
    | _ => cases number
  | false =>
    obtain ⟨x, finite⟩ := isFinite_iff.mp (isFinite_clamp h number)
    rw [finite]
    rfl

end Extended

/-! ## Points -/

namespace Point

variable {p q : Point Extended} {k : Extended}

theorem isFinite_add : (p + q).IsFinite ↔ p.IsFinite ∧ q.IsFinite := by
  simp only [IsFinite, add_x, add_y, Extended.isFinite_add, Bool.and_eq_true, and_and_and_comm]

theorem isFinite_sub : (p - q).IsFinite ↔ p.IsFinite ∧ q.IsFinite := by
  simp only [IsFinite, sub_x, sub_y, Extended.isFinite_sub, Bool.and_eq_true, and_and_and_comm]

theorem isFinite_mul : (p * k).IsFinite ↔ p.IsFinite ∧ Scalar.isFinite k = true := by
  simp only [IsFinite, mul_x, mul_y, Extended.isFinite_mul, Bool.and_eq_true, ← and_and_right]

theorem isFinite_stretch {factors : Point Extended} :
    (p.stretch factors).IsFinite ↔ p.IsFinite ∧ factors.IsFinite := by
  simp only [IsFinite, stretch, Extended.isFinite_mul, Bool.and_eq_true, and_and_and_comm]

theorem isFinite_div_real {y : ℝ} (h : y ≠ 0) : (p / Extended.real y).IsFinite ↔ p.IsFinite := by
  rw [IsFinite, div_x, div_y, Extended.isFinite_div_real _ h, Extended.isFinite_div_real _ h,
    IsFinite]

theorem isFinite_origin : (origin : Point Extended).IsFinite :=
  ⟨rfl, rfl⟩

/-- A direction is finite if its angle is. -/
theorem isFinite_atAngle : (atAngle k).IsFinite ↔ Scalar.isFinite k = true := by
  simp only [IsFinite, atAngle, Extended.isFinite_cos, Extended.isFinite_sin,
    Extended.isFinite_radians, and_self]

theorem isFinite_of_length (h : Scalar.isFinite p.length = true) : p.IsFinite := by
  have squares := Extended.isFinite_of_sqrt h
  simp only [Extended.isFinite_add, Extended.isFinite_mul, Bool.and_self, Bool.and_eq_true]
    at squares
  exact squares

/-- Only a finite displacement has a unit vector, and that is finite. -/
theorem isFinite_of_normalize? {unit : Point Extended} (h : p.normalize? = some unit) :
    unit.IsFinite := by
  simp only [normalize?, Option.ite_none_right_eq_some, Option.some.injEq] at h
  obtain ⟨positive, rfl⟩ := h
  obtain ⟨r, reciprocal, above⟩ := Extended.isPositive_iff.mp positive
  have length : Scalar.isFinite p.length = true := by
    cases hl : p.length with
    | nan =>
      rw [hl] at reciprocal
      cases reciprocal
    | infinite negative =>
      rw [hl] at reciprocal
      obtain rfl : (0 : ℝ) = r := Extended.real.inj reciprocal
      exact absurd above (lt_irrefl 0)
    | real x => rfl
  rw [isFinite_mul, reciprocal]
  exact ⟨isFinite_of_length length, rfl⟩

/-- A unit vector is finite, whatever it is made from. -/
theorem isFinite_normalizeOrOrigin (p : Point Extended) : p.normalizeOrOrigin.IsFinite := by
  rw [normalizeOrOrigin]
  cases h : p.normalize? with
  | none => exact isFinite_origin
  | some unit => exact isFinite_of_normalize? h

end Point

/-! ## Rectangles -/

namespace Rect

variable {r : Rect Extended}

/-- All four coordinates. -/
theorem isFinite_iff : r.isFinite = true ↔
    (Scalar.isFinite r.x1 = true ∧ Scalar.isFinite r.y1 = true) ∧
      Scalar.isFinite r.x2 = true ∧ Scalar.isFinite r.y2 = true := by
  simp only [isFinite, Bool.and_eq_true, and_assoc]

/-- The upright rectangle over the same region is finite. -/
theorem isFinite_upright (h : r.isFinite = true) : r.upright.isFinite = true := by
  obtain ⟨⟨x1, y1⟩, x2, y2⟩ := isFinite_iff.mp h
  exact isFinite_iff.mpr ⟨⟨Extended.isFinite_min x1 x2, Extended.isFinite_min y1 y2⟩,
    Extended.isFinite_max x1 x2, Extended.isFinite_max y1 y2⟩

theorem isFinite_width (h : r.isFinite = true) : Scalar.isFinite r.width = true := by
  obtain ⟨⟨x1, -⟩, x2, -⟩ := isFinite_iff.mp h
  rw [width, Extended.isFinite_sub, x1, x2]
  rfl

theorem isFinite_height (h : r.isFinite = true) : Scalar.isFinite r.height = true := by
  obtain ⟨⟨-, y1⟩, -, y2⟩ := isFinite_iff.mp h
  rw [height, Extended.isFinite_sub, y1, y2]
  rfl

theorem isFinite_center (h : r.isFinite = true) : r.center.IsFinite := by
  obtain ⟨⟨x1, y1⟩, x2, y2⟩ := isFinite_iff.mp h
  have two : (2.0 : ℝ) ≠ 0 := by norm_num
  simp only [Point.IsFinite, center, Extended.ofScientific_eq, Extended.isFinite_div_real _ two,
    Extended.isFinite_add, x1, y1, x2, y2, Bool.and_self, and_self]

end Rect

end SvgLayout
