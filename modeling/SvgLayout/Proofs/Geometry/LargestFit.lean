import SvgLayout.Proofs.Geometry.TurnedFit
import SvgLayout.Proofs.Scalar.Real

/-!
# The largest turned box

Of the boxes that fit into a container once they are turned, the largest one is bound by the width
alone if that box fits, by the height alone if that one does, and otherwise by both. The first fits
as long as the container is at most `2 * c * s` times as wide as it is high, the second as long as
it is at most so many times as high as it is wide.

`freeFit` takes the first only while the ratio of the container is at most the tangent and the
cotangent of the angle, and the second only while it is at least both of them. The lesser of the two
is less than `2 * c * s` at every angle but half a right one, so there are containers just past a
threshold for which the box that is bound by both sides is taken although it is not the largest. It
shrinks to nothing at the threshold.

## Main definitions

* `IsLargestFit` — a box that fits and is not smaller than any other that does.

## Main statements

* `FitsTurned.isLargestFit_of_prices` — a box whose sides are paid for by the constraints is the
  largest.
* `IsLargestFit.of_width`, `FitsTurned.middle_isLargestFit_iff` — when the boxes that are taken are.
* `freeFit_isLargestFit_iff` — when the box of `freeFit` is.
-/

namespace SvgLayout

/-- A box of size `w × h` fits into `aw × ah` once it is turned, and no other that does is
larger. -/
structure IsLargestFit (c s aw ah w h : ℝ) : Prop where
  fits : FitsTurned c s aw ah w h
  largest : ∀ w' h', FitsTurned c s aw ah w' h' → w' * h' ≤ w * h

variable {c s aw ah w h : ℝ}

/-- Width and height play the same part. -/
theorem IsLargestFit.swap (best : IsLargestFit c s aw ah w h) : IsLargestFit c s ah aw h w where
  fits := best.fits.swap
  largest w' h' fits := by
    rw [mul_comm w', mul_comm h]
    exact best.largest h' w' fits.swap

/-! ## Optimal boxes -/

/-- A box is the largest if its sides are combinations of the constraints at prices `p` of the width
and `q` of the height that are not negative, and it spends all that the container is worth. -/
theorem FitsTurned.isLargestFit_of_prices (fits : FitsTurned c s aw ah w h) (hw : 0 < w)
    (hh : 0 < h) {p q : ℝ} (hp : 0 ≤ p) (hq : 0 ≤ q) (height : h = p * c + q * s)
    (width : w = p * s + q * c) (spent : p * aw + q * ah = 2 * (w * h)) :
    IsLargestFit c s aw ah w h := by
  refine ⟨fits, ?_⟩
  intro w' h' other
  have worth : h * w' + w * h' ≤ 2 * (w * h) := by
    calc h * w' + w * h' = p * (c * w' + s * h') + q * (s * w' + c * h') := by
          linear_combination w' * height + h' * width
      _ ≤ p * aw + q * ah :=
          add_le_add (mul_le_mul_of_nonneg_left other.width hp)
            (mul_le_mul_of_nonneg_left other.height hq)
      _ = 2 * (w * h) := spent
  have nonneg : 0 ≤ h * w' + w * h' :=
    add_nonneg (mul_nonneg hh.le other.nonneg_w) (mul_nonneg hw.le other.nonneg_h)
  -- the two summands of the worth multiply to the product of both areas
  have areas : 4 * (w * h) * (w' * h') ≤ 4 * (w * h) * (w * h) := by
    calc 4 * (w * h) * (w' * h') = 4 * (h * w') * (w * h') := by ring
      _ ≤ (h * w' + w * h') ^ 2 := by linarith [sq_nonneg (h * w' - w * h')]
      _ ≤ (2 * (w * h)) ^ 2 := by gcongr
      _ = 4 * (w * h) * (w * h) := by ring
  exact le_of_mul_le_mul_left areas (by positivity)

/-- The box that is bound by the width alone is the largest if it fits. -/
theorem IsLargestFit.of_width (hc : 0 < c) (hs : 0 < s) (unit : c ^ 2 + s ^ 2 = 1) (hw : 0 < aw)
    (low : aw ≤ 2 * (c * s) * ah) : IsLargestFit c s aw ah (aw / (2 * c)) (aw / (2 * s)) := by
  have price : 0 ≤ aw / (2 * (c * s)) := by positivity
  refine (FitsTurned.of_width hc hs unit hw.le low).isLargestFit_of_prices (by positivity)
    (by positivity) price le_rfl ?_ ?_ ?_
  · field_simp
    ring
  · field_simp
    ring
  · field_simp
    ring

/-- The box that is bound by the height alone is the largest if it fits. -/
theorem IsLargestFit.of_height (hc : 0 < c) (hs : 0 < s) (unit : c ^ 2 + s ^ 2 = 1) (hh : 0 < ah)
    (narrow : ah ≤ 2 * (c * s) * aw) : IsLargestFit c s aw ah (ah / (2 * s)) (ah / (2 * c)) :=
  (of_width hc hs unit hh narrow).swap

/-- A box that is as wide as the container allows is smaller than the one that is bound by the
width alone, unless it is that box. -/
theorem area_lt_of_width (hc : 0 < c) (hs : 0 < s) (full : c * w + s * h = aw)
    (uneven : c * w ≠ s * h) : w * h < aw / (2 * c) * (aw / (2 * s)) := by
  have difference : 0 < (c * w - s * h) ^ 2 := by
    have nonzero := sub_ne_zero.mpr uneven
    positivity
  rw [div_mul_div_comm, lt_div_iff₀ (by positivity), ← full]
  linarith

namespace FitsTurned

/-- The solution of both equations fills the width. -/
theorem Between.width_eq (between : Between c s aw ah) :
    c * ((c * aw - s * ah) / (c * c - s * s)) + s * ((c * ah - s * aw) / (c * c - s * s)) = aw := by
  rw [← mul_div_assoc, ← mul_div_assoc, ← add_div, div_eq_iff between.det_ne_zero]
  ring

theorem Between.swap (between : Between c s aw ah) : Between c s ah aw := by
  rcases between with ⟨h, hw, hh⟩ | ⟨h, hw, hh⟩
  · exact .inl ⟨h, hh, hw⟩
  · exact .inr ⟨h, hh, hw⟩

/-- The box that is bound by both sides is not the largest if one that is bound by the width alone
fits and is not bound by the height as well. -/
theorem Between.le_of_isLargestFit (between : Between c s aw ah) (hc : 0 < c) (hs : 0 < s)
    (unit : c ^ 2 + s ^ 2 = 1) (hw : 0 < aw)
    (best : IsLargestFit c s aw ah ((c * aw - s * ah) / (c * c - s * s))
      ((c * ah - s * aw) / (c * c - s * s))) : 2 * (c * s) * ah ≤ aw := by
  by_contra low
  rw [not_le] at low
  have det := between.det_ne_zero
  have uneven : c * ((c * aw - s * ah) / (c * c - s * s)) ≠
      s * ((c * ah - s * aw) / (c * c - s * s)) := by
    rw [ne_eq, ← sub_eq_zero, ← mul_div_assoc, ← mul_div_assoc, ← sub_div, div_eq_zero_iff,
      or_iff_left det]
    intro even
    have same : aw = 2 * (c * s) * ah := by linear_combination even - aw * unit
    exact low.ne same
  have larger := area_lt_of_width hc hs between.width_eq uneven
  exact larger.not_ge (best.largest _ _ (of_width hc hs unit hw.le low.le))

/-- The box that is bound by both sides is the largest if neither of the boxes that are bound by one
side alone fits, or is bound by both as well. -/
theorem middle_isLargestFit_iff (between : Between c s aw ah) (hc : 0 < c) (hs : 0 < s)
    (unit : c ^ 2 + s ^ 2 = 1) (hw : 0 < aw) (hh : 0 < ah) :
    IsLargestFit c s aw ah ((c * aw - s * ah) / (c * c - s * s))
        ((c * ah - s * aw) / (c * c - s * s)) ↔
      2 * (c * s) * ah ≤ aw ∧ 2 * (c * s) * aw ≤ ah := by
  have det := between.det_ne_zero
  constructor
  · intro best
    exact ⟨between.le_of_isLargestFit hc hs unit hw best,
      between.swap.le_of_isLargestFit hc hs unit hh best.swap⟩
  · rintro ⟨width, height⟩
    have square : 0 < (c * c - s * s) ^ 2 := by positivity
    have hp : 0 ≤ (ah - 2 * (c * s) * aw) / (c * c - s * s) ^ 2 :=
      div_nonneg (sub_nonneg.mpr height) square.le
    have hq : 0 ≤ (aw - 2 * (c * s) * ah) / (c * c - s * s) ^ 2 :=
      div_nonneg (sub_nonneg.mpr width) square.le
    refine (middle between).isLargestFit_of_prices between.pos.1 between.pos.2 hp hq ?_ ?_ ?_
    · rw [div_mul_eq_mul_div, div_mul_eq_mul_div, ← add_div, div_eq_div_iff det square.ne']
      linear_combination (c * ah + s * aw) * (c * c - s * s) * unit
    · rw [div_mul_eq_mul_div, div_mul_eq_mul_div, ← add_div, div_eq_div_iff det square.ne']
      linear_combination (c * aw + s * ah) * (c * c - s * s) * unit
    · rw [div_mul_eq_mul_div, div_mul_eq_mul_div, ← add_div, div_mul_div_comm, ← mul_div_assoc,
        ← pow_two (c * c - s * s)]
      congr 1
      linear_combination -2 * aw * ah * unit

end FitsTurned

/-! ## The box that is taken -/

open FitsTurned

theorem freeFit_eq (hw : aw ≠ 0) (hh : ah ≠ 0) (c s tolerance : ℝ) :
    freeFit aw ah c s tolerance =
      if aw / ah ≤ min (s / c) (c / s) then (aw / (2 * c), aw / (2 * s))
      else if max (s / c) (c / s) ≤ aw / ah then (ah / (2 * s), ah / (2 * c))
      else if |c * c - s * s| < tolerance then (min aw ah / (c + s), min aw ah / (c + s))
      else ((c * aw - s * ah) / (c * c - s * s), (c * ah - s * aw) / (c * c - s * s)) := by
  simp [freeFit, hw, hh]

/-- A container in which the width alone may bind is not so wide that the height alone could. -/
theorem not_lt_of_low (unit : c ^ 2 + s ^ 2 = 1) (hw : 0 < aw) (hh : 0 < ah)
    (low : aw ≤ 2 * (c * s) * ah) : ¬ah < 2 * (c * s) * aw := by
  have legs : 2 * (c * s) ≤ 1 := by
    linarith [two_mul_le_add_sq c s]
  have height : aw ≤ ah := low.trans (mul_le_of_le_one_left hh.le legs)
  exact not_lt.mpr ((mul_le_of_le_one_left hw.le legs).trans height)

/-- The box that `freeFit` takes, where it does not fall back to a square, fits once it is turned.
It is the largest one that does exactly if the ratio of the container is not between the tangent or
the cotangent of the angle, whichever is less, and twice the product of its cosine and sine, nor
between the inverses of both. -/
theorem freeFit_isLargestFit_iff (hc : 0 < c) (hs : 0 < s) (unit : c ^ 2 + s ^ 2 = 1) (hw : 0 < aw)
    (hh : 0 < ah) {tolerance : ℝ}
    (regular : min (s / c) (c / s) < aw / ah → aw / ah < max (s / c) (c / s) →
      tolerance ≤ |c * c - s * s|) :
    let fit := freeFit aw ah c s tolerance
    FitsTurned c s aw ah fit.1 fit.2 ∧
      (IsLargestFit c s aw ah fit.1 fit.2 ↔
        ¬(min (s / c) (c / s) < aw / ah ∧ aw / ah < 2 * (c * s)) ∧
        ¬(1 / (2 * (c * s)) < aw / ah ∧ aw / ah < max (s / c) (c / s))) := by
  have legs : 0 < 2 * (c * s) := by positivity
  have low_iff : aw / ah < 2 * (c * s) ↔ aw < 2 * (c * s) * ah := div_lt_iff₀ hh
  have flat_iff : 1 / (2 * (c * s)) < aw / ah ↔ ah < 2 * (c * s) * aw := by
    rw [div_lt_div_iff₀ legs hh, one_mul, mul_comm aw]
  rw [freeFit_eq hw.ne' hh.ne', low_iff, flat_iff]
  -- the boxes that are bound by one side are taken too seldom, never where they do not fit
  by_cases narrow : aw / ah ≤ min (s / c) (c / s)
  · have low := le_of_narrow hc hs unit hh narrow
    have best := IsLargestFit.of_width hc hs unit hw low
    rw [if_pos narrow]
    refine ⟨best.fits, iff_of_true best ⟨fun past => narrow.not_gt past.1, fun past => ?_⟩⟩
    exact not_lt_of_low unit hw hh low past.1
  · by_cases wide : max (s / c) (c / s) ≤ aw / ah
    · have flat := le_of_narrow hc hs unit hw (narrow_swap hc hs hw hh wide)
      have best := IsLargestFit.of_height hc hs unit hh flat
      rw [if_neg narrow, if_pos wide]
      refine ⟨best.fits, iff_of_true best ⟨fun past => ?_, fun past => wide.not_gt past.2⟩⟩
      exact not_lt_of_low unit hh hw flat past.2
    · have between := between_of_lt hc hs hw hh (not_le.mp narrow) (not_le.mp wide)
      have kept : ¬|c * c - s * s| < tolerance :=
        not_lt.mpr (regular (not_le.mp narrow) (not_le.mp wide))
      rw [if_neg narrow, if_neg wide, if_neg kept]
      refine ⟨middle between, (middle_isLargestFit_iff between hc hs unit hw hh).trans ?_⟩
      rw [and_iff_right (not_le.mp narrow), and_iff_left (not_le.mp wide), not_lt, not_lt]

/-! ## A tilted sign -/

/-- A square sign that is tilted along the hypotenuse of a right triangle is the largest one on a
square board. -/
theorem freeFit_isLargestFit_squareBoard :
    ((0 : ℝ) < 4 / 5 ∧ (0 : ℝ) < 3 / 5 ∧ (4 / 5 : ℝ) ^ 2 + (3 / 5) ^ 2 = 1 ∧ (0 : ℝ) < 1 ∧
      (1 / 10 : ℝ) ≤ |4 / 5 * (4 / 5) - 3 / 5 * (3 / 5)|) ∧
    IsLargestFit (4 / 5) (3 / 5) 1 1 (freeFit 1 1 (4 / 5) (3 / 5) (1 / 10) : ℝ × ℝ).1
      (freeFit 1 1 (4 / 5) (3 / 5) (1 / 10) : ℝ × ℝ).2 := by
  have regular : (1 / 10 : ℝ) ≤ |4 / 5 * (4 / 5) - 3 / 5 * (3 / 5)| := by
    norm_num [abs_of_pos]
  refine ⟨⟨by norm_num, by norm_num, by norm_num, by norm_num, regular⟩, ?_⟩
  obtain ⟨-, largest⟩ := freeFit_isLargestFit_iff (by norm_num : (0 : ℝ) < 4 / 5)
    (by norm_num : (0 : ℝ) < 3 / 5) (by norm_num) (one_pos : (0 : ℝ) < 1) (one_pos : (0 : ℝ) < 1)
    fun _ _ => regular
  refine largest.mpr ⟨?_, ?_⟩
  · norm_num
  · norm_num

/-- On a board that is three wide and five high, a sign that is tilted by thirty degrees could be
`√3` wide and three high, but a smaller one is taken. -/
theorem freeFit_not_isLargestFit_tallBoard :
    ((0 : ℝ) < √3 / 2 ∧ (0 : ℝ) < 1 / 2 ∧ (√3 / 2) ^ 2 + (1 / 2) ^ 2 = 1 ∧
      (1 / 10 ^ 9 : ℝ) ≤ |√3 / 2 * (√3 / 2) - 1 / 2 * (1 / 2)|) ∧
    FitsTurned (√3 / 2) (1 / 2) 3 5 (√3) 3 ∧
    (freeFit 3 5 (√3 / 2) (1 / 2) (1 / 10 ^ 9) : ℝ × ℝ).1 *
      (freeFit 3 5 (√3 / 2) (1 / 2) (1 / 10 ^ 9) : ℝ × ℝ).2 < √3 * 3 := by
  have square : √3 * √3 = (3 : ℝ) := Real.mul_self_sqrt (by norm_num)
  have above : (17 / 10 : ℝ) < √3 := Real.lt_sqrt_of_sq_lt (by norm_num)
  have below : √3 < (2 : ℝ) := (Real.sqrt_lt' two_pos).mpr (by norm_num)
  have unit : (√3 / 2) ^ 2 + (1 / 2) ^ 2 = (1 : ℝ) := by linarith
  have det : √3 / 2 * (√3 / 2) - 1 / 2 * (1 / 2) = (1 / 2 : ℝ) := by linarith
  have regular : (1 / 10 ^ 9 : ℝ) ≤ |√3 / 2 * (√3 / 2) - 1 / 2 * (1 / 2)| := by
    rw [det]
    norm_num [abs_of_pos]
  refine ⟨⟨by positivity, by norm_num, unit, regular⟩, ⟨by positivity, by norm_num, ?_, ?_⟩, ?_⟩
  · linarith
  · linarith
  · have narrow : ¬(3 / 5 : ℝ) ≤ min (1 / 2 / (√3 / 2)) (√3 / 2 / (1 / 2)) := by
      rw [le_min_iff, div_le_div_iff₀ (by norm_num) (by positivity)]
      rintro ⟨steep, -⟩
      linarith
    have wide : ¬max (1 / 2 / (√3 / 2)) (√3 / 2 / (1 / 2)) ≤ (3 / 5 : ℝ) := by
      rw [max_le_iff, div_le_div_iff₀ (by norm_num) (by norm_num)]
      rintro ⟨-, shallow⟩
      linarith
    rw [freeFit_eq (by norm_num) (by norm_num), if_neg narrow, if_neg wide,
      if_neg (not_lt.mpr regular), det]
    linarith

end SvgLayout
