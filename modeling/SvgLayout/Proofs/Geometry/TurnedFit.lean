import SvgLayout.Proofs.Scalar.Extended
import SvgLayout.Geometry.Fit

/-!
# Fitting a turned box

The box that `rotateFit` makes inside a size stays inside that size once it is turned. In exact
arithmetic with infinities this holds at every angle, quarter turns included, for any ratio and for
the box of largest area when there is none, whatever the tolerance.

## Main definitions

* `FitsTurned` — a box fits once it is turned.

## Main statements

* `FitsTurned.ratio` — the largest box of a ratio fits.
* `FitsTurned.steep`, `FitsTurned.shallow`, `FitsTurned.square`, `FitsTurned.middle` — the four
  boxes without a ratio fit where they are taken.
* `Extended.exists_obliqueFit` — at an oblique angle the box that is taken is computed without a
  quotient by zero.
* `Extended.exists_freeFit`, `Extended.exists_rotateFit` — the box that is taken fits.
-/

namespace SvgLayout

/-- A box of size `w × h` fits into `aw × ah` when it is turned by an angle whose cosine and sine
have the magnitudes `c` and `s`. -/
structure FitsTurned (c s aw ah w h : ℝ) : Prop where
  nonneg_w : 0 ≤ w
  nonneg_h : 0 ≤ h
  width : c * w + s * h ≤ aw
  height : s * w + c * h ≤ ah

namespace FitsTurned

variable {c s aw ah w h : ℝ}

/-- Width and height play the same part. -/
theorem swap (fits : FitsTurned c s aw ah w h) : FitsTurned c s ah aw h w where
  nonneg_w := fits.nonneg_h
  nonneg_h := fits.nonneg_w
  width := by linarith [fits.height]
  height := by linarith [fits.width]

theorem empty (hw : 0 ≤ aw) (hh : 0 ≤ ah) : FitsTurned c s aw ah 0 0 where
  nonneg_w := le_rfl
  nonneg_h := le_rfl
  width := by simpa using hw
  height := by simpa using hh

/-- The largest box of a ratio. -/
theorem ratio {a : ℝ} (ha : 0 < a) (hc : 0 ≤ c) (hs : 0 ≤ s) (unit : c ^ 2 + s ^ 2 = 1)
    (hw : 0 ≤ aw) (hh : 0 ≤ ah) :
    FitsTurned c s aw ah (min (aw / (a * c + s)) (ah / (a * s + c)) * a)
      (min (aw / (a * c + s)) (ah / (a * s + c))) := by
  have dw : 0 < a * c + s := Scalar.extent_pos ha hc hs unit
  have dh : 0 < a * s + c := Scalar.extent_pos ha hs hc (by linarith)
  have first := min_le_left (aw / (a * c + s)) (ah / (a * s + c))
  have second := min_le_right (aw / (a * c + s)) (ah / (a * s + c))
  have nonneg : 0 ≤ min (aw / (a * c + s)) (ah / (a * s + c)) := by positivity
  generalize min (aw / (a * c + s)) (ah / (a * s + c)) = h at first second nonneg
  rw [le_div_iff₀ dw] at first
  rw [le_div_iff₀ dh] at second
  constructor
  · positivity
  · exact nonneg
  · linarith
  · linarith

/-- The box that is bound by the width alone fits if it is not too high. -/
theorem of_width (hc : 0 < c) (hs : 0 < s) (unit : c ^ 2 + s ^ 2 = 1) (hw : 0 ≤ aw)
    (low : aw ≤ 2 * (c * s) * ah) : FitsTurned c s aw ah (aw / (2 * c)) (aw / (2 * s)) := by
  constructor
  · positivity
  · positivity
  · refine le_of_eq ?_
    field_simp
    ring
  · have height : s * (aw / (2 * c)) + c * (aw / (2 * s)) = aw / (2 * (c * s)) := by
      field_simp
      linear_combination aw * unit
    rw [height, div_le_iff₀ (by positivity)]
    linarith

/-- In a narrow container it is not too high. -/
theorem le_of_narrow (hc : 0 < c) (hs : 0 < s) (unit : c ^ 2 + s ^ 2 = 1) (hh : 0 < ah)
    (narrow : aw / ah ≤ min (s / c) (c / s)) : aw ≤ 2 * (c * s) * ah := by
  obtain ⟨tangent, cotangent⟩ := le_min_iff.mp narrow
  rw [div_le_div_iff₀ hh hc] at tangent
  rw [div_le_div_iff₀ hh hs] at cotangent
  calc aw = aw * c * c + aw * s * s := by linear_combination -aw * unit
    _ ≤ s * ah * c + c * ah * s := by gcongr
    _ = 2 * (c * s) * ah := by ring

/-- In a narrow container only the width binds. -/
theorem steep (hc : 0 < c) (hs : 0 < s) (unit : c ^ 2 + s ^ 2 = 1) (hw : 0 ≤ aw) (hh : 0 < ah)
    (narrow : aw / ah ≤ min (s / c) (c / s)) :
    FitsTurned c s aw ah (aw / (2 * c)) (aw / (2 * s)) :=
  of_width hc hs unit hw (le_of_narrow hc hs unit hh narrow)

/-- The ratio of a shallow container is that of a narrow one with its sides exchanged. -/
theorem narrow_swap (hc : 0 < c) (hs : 0 < s) (hw : 0 < aw) (hh : 0 < ah)
    (wide : max (s / c) (c / s) ≤ aw / ah) : ah / aw ≤ min (s / c) (c / s) := by
  obtain ⟨tangent, cotangent⟩ := max_le_iff.mp wide
  refine le_min ?_ ?_
  · rw [div_le_div_iff₀ hs hh] at cotangent
    rw [div_le_div_iff₀ hw hc]
    linarith
  · rw [div_le_div_iff₀ hc hh] at tangent
    rw [div_le_div_iff₀ hw hs]
    linarith

/-- In a shallow container only the height binds. -/
theorem shallow (hc : 0 < c) (hs : 0 < s) (unit : c ^ 2 + s ^ 2 = 1) (hw : 0 < aw) (hh : 0 < ah)
    (wide : max (s / c) (c / s) ≤ aw / ah) :
    FitsTurned c s aw ah (ah / (2 * s)) (ah / (2 * c)) :=
  (steep hc hs unit hh.le hw (narrow_swap hc hs hw hh wide)).swap

/-- A square fits everywhere. -/
theorem square (hc : 0 ≤ c) (hs : 0 ≤ s) (unit : c ^ 2 + s ^ 2 = 1) (hw : 0 ≤ aw) (hh : 0 ≤ ah) :
    FitsTurned c s aw ah (min aw ah / (c + s)) (min aw ah / (c + s)) := by
  have extent : 0 < c + s := by
    simpa using Scalar.extent_pos one_pos hc hs unit
  have diagonal : c * (min aw ah / (c + s)) + s * (min aw ah / (c + s)) = min aw ah := by
    rw [← add_mul, mul_div_cancel₀ _ extent.ne']
  constructor
  · positivity
  · positivity
  · rw [diagonal]
    exact min_le_left aw ah
  · rw [add_comm, diagonal]
    exact min_le_right aw ah

/-- Neither the width nor the height binds alone: both equations have a solution that is a size. -/
def Between (c s aw ah : ℝ) : Prop :=
  (0 < c * c - s * s ∧ s * ah < c * aw ∧ s * aw < c * ah) ∨
    (c * c - s * s < 0 ∧ c * aw < s * ah ∧ c * ah < s * aw)

/-- The two equations have one solution. -/
theorem Between.det_ne_zero (between : Between c s aw ah) : c * c - s * s ≠ 0 := by
  rcases between with ⟨h, -⟩ | ⟨h, -⟩
  · exact h.ne'
  · exact h.ne

/-- The solution is a size. -/
theorem Between.pos (between : Between c s aw ah) :
    0 < (c * aw - s * ah) / (c * c - s * s) ∧ 0 < (c * ah - s * aw) / (c * c - s * s) := by
  rcases between with ⟨h, hw, hh⟩ | ⟨h, hw, hh⟩
  · exact ⟨div_pos (by linarith) h, div_pos (by linarith) h⟩
  · exact ⟨div_pos_of_neg_of_neg (by linarith) h, div_pos_of_neg_of_neg (by linarith) h⟩

/-- Between a narrow and a shallow container both bind. -/
theorem middle (between : Between c s aw ah) :
    FitsTurned c s aw ah ((c * aw - s * ah) / (c * c - s * s))
      ((c * ah - s * aw) / (c * c - s * s)) := by
  have det := between.det_ne_zero
  constructor
  · exact between.pos.1.le
  · exact between.pos.2.le
  · refine le_of_eq ?_
    rw [← mul_div_assoc, ← mul_div_assoc, ← add_div, div_eq_iff det]
    ring
  · refine le_of_eq ?_
    rw [← mul_div_assoc, ← mul_div_assoc, ← add_div, div_eq_iff det]
    ring

/-- The container lies between a narrow and a shallow one if its ratio lies between the tangent and
the cotangent. -/
theorem between_of_lt (hc : 0 < c) (hs : 0 < s) (hw : 0 < aw) (hh : 0 < ah)
    (narrow : min (s / c) (c / s) < aw / ah) (wide : aw / ah < max (s / c) (c / s)) :
    Between c s aw ah := by
  rw [min_lt_iff, div_lt_div_iff₀ hc hh, div_lt_div_iff₀ hs hh] at narrow
  rw [lt_max_iff, div_lt_div_iff₀ hh hc, div_lt_div_iff₀ hh hs] at wide
  rcases lt_trichotomy s c with order | rfl | order
  · have width : s * aw < c * aw := by gcongr
    have height : s * ah < c * ah := by gcongr
    refine .inl ⟨by nlinarith, ?_, ?_⟩
    · rcases narrow with narrow | narrow <;> linarith
    · rcases wide with wide | wide <;> linarith
  · exfalso
    rcases narrow with narrow | narrow <;> rcases wide with wide | wide <;> linarith
  · have width : c * aw < s * aw := by gcongr
    have height : c * ah < s * ah := by gcongr
    refine .inr ⟨by nlinarith, ?_, ?_⟩
    · rcases wide with wide | wide <;> linarith
    · rcases narrow with narrow | narrow <;> linarith

/-- At a quarter turn, or with no turn at all, both bind in every container. -/
theorem between_of_eq_zero (hc : 0 ≤ c) (hs : 0 ≤ s) (unit : c ^ 2 + s ^ 2 = 1) (hw : 0 < aw)
    (hh : 0 < ah) (flat : c = 0 ∨ s = 0) : Between c s aw ah := by
  rcases flat with rfl | rfl
  · have hs : 0 < s := lt_of_le_of_ne hs (by rintro rfl; norm_num at unit)
    refine .inr ⟨by nlinarith, ?_, ?_⟩
    · rw [zero_mul]
      positivity
    · rw [zero_mul]
      positivity
  · have hc : 0 < c := lt_of_le_of_ne hc (by rintro rfl; norm_num at unit)
    refine .inl ⟨by nlinarith, ?_, ?_⟩
    · rw [zero_mul]
      positivity
    · rw [zero_mul]
      positivity

end FitsTurned

/-! ## The fits that are taken -/

namespace Extended

open FitsTurned

variable {c s aw ah : ℝ}

/-- The box that is taken between a narrow and a shallow container: the solution of both equations,
or a square where they are nearly singular. -/
def middleFit {α : Type} [Scalar α] (aw ah c s tolerance : α) : α × α :=
  let det := c * c - s * s
  if Scalar.abs det < tolerance then
    let side := Scalar.min aw ah / (c + s)
    (side, side)
  else
    ((c * aw - s * ah) / det, (c * ah - s * aw) / det)

theorem exists_middleFit (hc : 0 ≤ c) (hs : 0 ≤ s) (unit : c ^ 2 + s ^ 2 = 1) (hw : 0 < aw)
    (hh : 0 < ah) (between : Between c s aw ah) (tolerance : Extended) :
    ∃ w h, (∀ byZero, letI := withQuotients byZero
        middleFit (real aw) (real ah) (real c) (real s) tolerance = (real w, real h)) ∧
      FitsTurned c s aw ah w h ∧ 0 < w ∧ 0 < h := by
  have extent : 0 < c + s := by
    simpa using Scalar.extent_pos one_pos hc hs unit
  have side : 0 < min aw ah / (c + s) := by positivity
  by_cases near : Scalar.abs (real c * real c - real s * real s) < tolerance
  · refine ⟨_, _, ?_, square hc hs unit hw.le hh.le, side, side⟩
    intro byZero
    simp only [middleFit]
    refine (if_pos near).trans ?_
    simp only [withQuotients_min, min_real, real_add, withQuotients_div _ extent.ne']
  · refine ⟨_, _, ?_, middle between, between.pos⟩
    intro byZero
    simp only [middleFit]
    refine (if_neg near).trans ?_
    simp only [real_mul, real_sub, withQuotients_div _ between.det_ne_zero]

/-- At an oblique angle no quotient by zero is compared or taken. -/
theorem freeFit_oblique (hc : c ≠ 0) (hs : s ≠ 0) (hw : aw ≠ 0) (hh : ah ≠ 0)
    (tolerance : Extended) (byZero : Extended → Extended) :
    letI := withQuotients byZero
    freeFit (real aw) (real ah) (real c) (real s) tolerance =
      if aw / ah ≤ min (s / c) (c / s) then (real (aw / (2 * c)), real (aw / (2 * s)))
      else if max (s / c) (c / s) ≤ aw / ah then (real (ah / (2 * s)), real (ah / (2 * c)))
      else middleFit (real aw) (real ah) (real c) (real s) tolerance := by
  have solid : ¬(real aw == 0.0 || real ah == 0.0) = true := by
    simp [hw, hh]
  have two : (2.0 : Extended) = real 2 := by norm_num
  have twice : ∀ {x : ℝ}, x ≠ 0 → (2 : ℝ) * x ≠ 0 := fun h => mul_ne_zero two_ne_zero h
  simp only [freeFit, middleFit]
  refine (if_neg solid).trans ?_
  simp only [withQuotients_div _ hh, withQuotients_div _ hc, withQuotients_div _ hs,
    withQuotients_min, withQuotients_max, min_real, max_real, real_le, two, real_mul,
    withQuotients_div _ (twice hc), withQuotients_div _ (twice hs)]

/-- At an oblique angle the box of largest area is one, and it fits. No quotient by zero is taken
for it. -/
theorem exists_obliqueFit (hc : 0 < c) (hs : 0 < s) (unit : c ^ 2 + s ^ 2 = 1) (hw : 0 < aw)
    (hh : 0 < ah) (tolerance : Extended) :
    ∃ w h, (∀ byZero, letI := withQuotients byZero
        freeFit (real aw) (real ah) (real c) (real s) tolerance = (real w, real h)) ∧
      FitsTurned c s aw ah w h ∧ 0 < w ∧ 0 < h := by
  simp only [freeFit_oblique hc.ne' hs.ne' hw.ne' hh.ne']
  by_cases narrow : aw / ah ≤ min (s / c) (c / s)
  · simp only [if_pos narrow]
    exact ⟨_, _, fun _ => rfl, steep hc hs unit hw.le hh narrow, by positivity, by positivity⟩
  · by_cases wide : max (s / c) (c / s) ≤ aw / ah
    · simp only [if_neg narrow, if_pos wide]
      exact ⟨_, _, fun _ => rfl, FitsTurned.shallow hc hs unit hw hh wide, by positivity,
        by positivity⟩
    · simp only [if_neg narrow, if_neg wide]
      have between := between_of_lt hc hs hw hh (not_le.mp narrow) (not_le.mp wide)
      exact exists_middleFit hc.le hs.le unit hw hh between tolerance

/-- The box of largest area fits. -/
theorem exists_freeFit (hc : 0 ≤ c) (hs : 0 ≤ s) (unit : c ^ 2 + s ^ 2 = 1) (hw : 0 ≤ aw)
    (hh : 0 ≤ ah) (tolerance : Extended) :
    ∃ w h, freeFit (real aw) (real ah) (real c) (real s) tolerance = (real w, real h) ∧
      FitsTurned c s aw ah w h := by
  by_cases collapsed : aw = 0 ∨ ah = 0
  · refine ⟨0, 0, ?_, empty hw hh⟩
    rw [freeFit, if_pos (by simpa using collapsed)]
    simp
  · obtain ⟨hw0, hh0⟩ := not_or.mp collapsed
    have hw : 0 < aw := lt_of_le_of_ne hw (Ne.symm hw0)
    have hh : 0 < ah := lt_of_le_of_ne hh (Ne.symm hh0)
    by_cases flat : c = 0 ∨ s = 0
    · -- the tangent or the cotangent is an infinity and the other one is zero
      have between := between_of_eq_zero hc hs unit hw hh flat
      obtain ⟨w, h, answer, fits, -⟩ := exists_middleFit hc hs unit hw hh between tolerance
      have ratio : real aw / real ah = real (aw / ah) := real_div hh0
      have ratio_pos : 0 < aw / ah := by positivity
      have usual := answer (· / real 0)
      rw [withQuotients_self] at usual
      refine ⟨w, h, ?_, fits⟩
      rw [freeFit, if_neg (by simpa using collapsed), ← usual]
      rcases flat with rfl | rfl
      · have hs : 0 < s := lt_of_le_of_ne hs (by rintro rfl; norm_num at unit)
        simp only [ratio, real_div_zero hs, real_div hs.ne', zero_div, min_infinite, max_infinite,
          real_le, infinite_le_real]
        rw [if_neg (by linarith), if_neg (by simp)]
        rfl
      · have hc : 0 < c := lt_of_le_of_ne hc (by rintro rfl; norm_num at unit)
        simp only [ratio, real_div_zero hc, real_div hc.ne', zero_div, min_real_infinite,
          max_real_infinite, real_le, infinite_le_real]
        rw [if_neg (by linarith), if_neg (by simp)]
        rfl
    · obtain ⟨hc0, hs0⟩ := not_or.mp flat
      have hc : 0 < c := lt_of_le_of_ne hc (Ne.symm hc0)
      have hs : 0 < s := lt_of_le_of_ne hs (Ne.symm hs0)
      obtain ⟨w, h, answer, fits, -⟩ := exists_obliqueFit hc hs unit hw hh tolerance
      have usual := answer (· / real 0)
      rw [withQuotients_self] at usual
      exact ⟨w, h, usual, fits⟩

/-- An angle in degrees, in radians. -/
theorem radians_real (degrees : ℝ) :
    Scalar.radians (real degrees) = real (degrees * (Real.pi / 180)) := by
  have straight : (180.0 : Extended) = real 180 := by
    rw [ofScientific_eq]
    norm_num
  rw [Scalar.radians, straight, pi_eq, real_div (by norm_num), real_mul]

/-- The magnitudes of the cosine and the sine of a finite angle. -/
theorem absCosSin_real (degrees : ℝ) :
    absCosSin (real degrees) = (real |Real.cos (degrees * (Real.pi / 180))|,
      real |Real.sin (degrees * (Real.pi / 180))|) := by
  rw [absCosSin, radians_real, cos_real, sin_real, abs_real, abs_real]

theorem exists_absCosSin (degrees : ℝ) :
    ∃ c s, absCosSin (real degrees) = (real c, real s) ∧ 0 ≤ c ∧ 0 ≤ s ∧ c ^ 2 + s ^ 2 = 1 :=
  ⟨_, _, absCosSin_real degrees, abs_nonneg _, abs_nonneg _,
    Scalar.sq_abs_cos_add_sq_abs_sin (degrees * (Real.pi / 180))⟩

/-- The box that is made inside a size fits into it once it is turned. -/
theorem exists_rotateFit (w h : ℝ) {degrees : ℝ} (turned : degrees ≠ 0) {aspect : Option Extended}
    (positive : ∀ a ∈ aspect, Scalar.isPositive a = true) (tolerance : Extended)
    (hcs : absCosSin (real degrees) = (real c, real s)) (hc : 0 ≤ c) (hs : 0 ≤ s)
    (unit : c ^ 2 + s ^ 2 = 1) :
    ∃ w' h', rotateFit ⟨real w, real h⟩ (real degrees) aspect false false tolerance =
        ⟨real w', real h'⟩ ∧ FitsTurned c s |w| |h| |w'| |h'| := by
  have free : ¬(false || real degrees == 0.0) = true := by
    simpa using turned
  have keep : ∀ {fw fh : ℝ}, FitsTurned c s |w| |h| fw fh →
      FitsTurned c s |w| |h| |Scalar.copySign fw w| |Scalar.copySign fh h| := by
    intro fw fh fits
    rwa [Scalar.abs_copySign, Scalar.abs_copySign, abs_of_nonneg fits.nonneg_w,
      abs_of_nonneg fits.nonneg_h]
  rw [rotateFit, if_neg free, hcs]
  cases aspect with
  | none =>
    obtain ⟨fw, fh, answer, fits⟩ :=
      exists_freeFit hc hs unit (abs_nonneg w) (abs_nonneg h) tolerance
    refine ⟨_, _, ?_, keep fits⟩
    simp [usableAspect, answer, signedLike]
  | some a =>
    obtain ⟨a, rfl, ha⟩ := isPositive_iff.mp (positive a rfl)
    have dw : a * c + s ≠ 0 := (Scalar.extent_pos ha hc hs unit).ne'
    have dh : a * s + c ≠ 0 := (Scalar.extent_pos ha hs hc (by linarith)).ne'
    have usable : usableAspect (some (real a)) = some (real a) := by
      simp [usableAspect, Option.filter, ha]
    refine ⟨_, _, ?_, keep (ratio ha hc hs unit (abs_nonneg w) (abs_nonneg h))⟩
    simp [usable, bindingLength, signedLike, real_div dw, real_div dh]

end Extended

end SvgLayout
