import SvgLayout.Proofs.Scalar.Real
import SvgLayout.Geometry.Point

/-!
# Directions

Over the real numbers a displacement has a direction unless it is the origin, and a multiple that is
not reversed has the same one.

## Main statements

* `Point.length_mul`, `Point.length_pos_iff` — the length of a displacement.
* `Point.normalize?_eq` — which displacements have a direction.
* `Point.normalizeOrOrigin_mul` — positive multiples have one direction.
-/

namespace SvgLayout.Point

theorem length_mul {k : ℝ} (nonneg : 0 ≤ k) (p : Point ℝ) : (p * k).length = p.length * k := by
  have square : p.x * k * (p.x * k) + p.y * k * (p.y * k) =
      (p.x * p.x + p.y * p.y) * (k * k) := by
    ring
  have sum : 0 ≤ p.x * p.x + p.y * p.y := add_nonneg (mul_self_nonneg _) (mul_self_nonneg _)
  show √(p.x * k * (p.x * k) + p.y * k * (p.y * k)) = √(p.x * p.x + p.y * p.y) * k
  rw [square, Real.sqrt_mul sum, Real.sqrt_mul_self nonneg]

theorem length_nonneg (p : Point ℝ) : 0 ≤ p.length :=
  Real.sqrt_nonneg _

/-- Only the origin has no length. -/
theorem length_pos_iff {p : Point ℝ} : 0 < p.length ↔ p ≠ origin := by
  have squares : 0 < p.x * p.x + p.y * p.y ↔ ¬(p.x = 0 ∧ p.y = 0) := by
    rw [← mul_self_add_mul_self_eq_zero, ← ne_eq]
    exact (add_nonneg (mul_self_nonneg p.x) (mul_self_nonneg p.y)).lt_iff_ne'
  rw [length]
  show 0 < √(p.x * p.x + p.y * p.y) ↔ _
  rw [Real.sqrt_pos, squares, Ne, Point.ext_iff]
  simp [origin]

/-- Over the real numbers only the origin has no direction. -/
theorem normalize?_eq (p : Point ℝ) :
    p.normalize? = if 0 < p.length then some (p * (1 / p.length)) else none := by
  simp only [normalize?, Scalar.isPositive_eq, Scalar.literal_one, decide_eq_true_eq, one_div_pos]

/-- A displacement and its positive multiples have one direction. -/
theorem normalizeOrOrigin_mul {k : ℝ} (positive : 0 < k) (p : Point ℝ) :
    (p * k).normalizeOrOrigin = p.normalizeOrOrigin := by
  have same : 0 < (p * k).length ↔ 0 < p.length := by
    rw [length_mul positive.le, mul_pos_iff_of_pos_right positive]
  simp only [normalizeOrOrigin, normalize?_eq, same]
  by_cases long : 0 < p.length
  · have length : p.length ≠ 0 := long.ne'
    rw [if_pos long, if_pos long, Option.getD_some, Option.getD_some, length_mul positive.le]
    apply Point.ext
    · simp only [mul_x]
      field_simp
    · simp only [mul_y]
      field_simp
  · rw [if_neg long, if_neg long]

end SvgLayout.Point
