import SvgLayout.Proofs.Geometry.TurnedFit
import Mathlib.Data.Sign.Basic

/-!
# Fitting and covering with a turned box

A turned box of a usable ratio is fitted so that its bounding box touches the size it is fitted
into: it stays inside, or with `expand` it covers that size. Without a ratio the box of largest area
stays inside. The box keeps the signs of the size, and nothing is divided by zero for it.

## Main definitions

* `FitsOrCovers` — how a fitted box lies to the size it is fitted into.

## Main statements

* `Extended.rotateFit_fits_or_covers` — so does the box that `rotateFit` makes.
-/

namespace SvgLayout

/-- The box `fit`, whose upright bounding box once it is turned is `bounds`, is fitted into `size`,
or covers it if it has a usable ratio and is meant to. It keeps such a ratio and touches the size
then, and it is reversed where the size is. -/
structure FitsOrCovers (size fit bounds : Size ℝ) (aspect : Option Extended) (expand : Bool) :
    Prop where
  sign_w : SignType.sign fit.w = SignType.sign size.w
  sign_h : SignType.sign fit.h = SignType.sign size.h
  contained : expand = false ∨ usableAspect aspect = none →
    bounds.w ≤ |size.w| ∧ bounds.h ≤ |size.h|
  ratio : ∀ a, usableAspect aspect = some a → a = .real (|fit.w| / |fit.h|)
  touches : (usableAspect aspect).isSome → bounds.w = |size.w| ∨ bounds.h = |size.h|
  covers : expand = true → (usableAspect aspect).isSome →
    |size.w| ≤ bounds.w ∧ |size.h| ≤ bounds.h

/-- A positive length keeps the sign that it is given. -/
theorem Scalar.sign_copySign {x y : ℝ} (positive : 0 < x) (nonzero : y ≠ 0) :
    SignType.sign (Scalar.copySign x y) = SignType.sign y := by
  rw [Scalar.copySign_eq, abs_of_pos positive]
  rcases nonzero.lt_or_gt with h | h
  · rw [if_pos h, sign_neg h, sign_neg (neg_neg_iff_pos.mpr positive)]
  · rw [if_neg h.le.not_gt, sign_pos h, sign_pos positive]

/-- The height at which a box fits, or with `expand` covers, is bound by one of the two axes. -/
theorem bindingLength_bounds (expand : Bool) {dw dh : ℝ} (hdw : 0 < dw) (hdh : 0 < dh)
    (aw ah : ℝ) :
    let h := bindingLength expand (aw / dw) (ah / dh)
    (h * dw = aw ∨ h * dh = ah) ∧ (expand = false → h * dw ≤ aw ∧ h * dh ≤ ah) ∧
      (expand = true → aw ≤ h * dw ∧ ah ≤ h * dh) := by
  intro h
  have bound : h = aw / dw ∨ h = ah / dh := by
    cases expand with
    | false => simpa [h, bindingLength] using min_choice (aw / dw) (ah / dh)
    | true => simpa [h, bindingLength] using max_choice (aw / dw) (ah / dh)
  refine ⟨?_, ?_, ?_⟩
  · rcases bound with same | same
    · exact .inl (by rw [same, div_mul_cancel₀ _ hdw.ne'])
    · exact .inr (by rw [same, div_mul_cancel₀ _ hdh.ne'])
  · rintro rfl
    rw [← le_div_iff₀ hdw, ← le_div_iff₀ hdh]
    simp [h, bindingLength]
  · rintro rfl
    rw [← div_le_iff₀ hdw, ← div_le_iff₀ hdh]
    simp [h, bindingLength]

/-- In a size with extent that height is positive. -/
theorem bindingLength_cases (expand : Bool) {aw ah dw dh : ℝ} (hdw : 0 < dw) (hdh : 0 < dh)
    (hw : 0 < aw) (hh : 0 < ah) :
    let h := bindingLength expand (aw / dw) (ah / dh)
    0 < h ∧ (h * dw = aw ∨ h * dh = ah) ∧ (expand = false → h * dw ≤ aw ∧ h * dh ≤ ah) ∧
      (expand = true → aw ≤ h * dw ∧ ah ≤ h * dh) := by
  intro h
  have width : 0 < aw / dw := div_pos hw hdw
  have height : 0 < ah / dh := div_pos hh hdh
  have positive : 0 < h := by
    cases expand <;> simp [h, bindingLength, width, height]
  exact ⟨positive, bindingLength_bounds expand hdw hdh aw ah⟩

namespace FitsOrCovers

variable {size : Size ℝ} {aspect : Option Extended} {expand : Bool} {c s fw fh : ℝ}

/-- A box without a ratio that fits. -/
theorem of_free (free : usableAspect aspect = none) (hw : size.w ≠ 0) (hh : size.h ≠ 0)
    (fits : FitsTurned c s |size.w| |size.h| fw fh) (fw_pos : 0 < fw) (fh_pos : 0 < fh) :
    FitsOrCovers size (signedLike size fw fh) ⟨fw * c + fh * s, fw * s + fh * c⟩ aspect expand where
  sign_w := Scalar.sign_copySign fw_pos hw
  sign_h := Scalar.sign_copySign fh_pos hh
  contained _ := ⟨by linarith [fits.width], by linarith [fits.height]⟩
  ratio := by simp [free]
  touches := by simp [free]
  covers := by simp [free]

/-- The box of a ratio that is bound by one of the axes. -/
theorem of_ratio {a : ℝ} (ha : 0 < a) (hc : 0 ≤ c) (hs : 0 ≤ s) (unit : c ^ 2 + s ^ 2 = 1)
    (usable : usableAspect aspect = some (.real a)) (hw : size.w ≠ 0) (hh : size.h ≠ 0) :
    let h := bindingLength expand (|size.w| / (a * c + s)) (|size.h| / (a * s + c))
    FitsOrCovers size (signedLike size (h * a) h) ⟨h * a * c + h * s, h * a * s + h * c⟩ aspect
      expand := by
  intro h
  have dw : 0 < a * c + s := Scalar.extent_pos ha hc hs unit
  have dh : 0 < a * s + c := Scalar.extent_pos ha hs hc (by linarith)
  obtain ⟨pos, touches, inside, outside⟩ :=
    bindingLength_cases expand dw dh (abs_pos.mpr hw) (abs_pos.mpr hh)
  have width : h * (a * c + s) = h * a * c + h * s := by ring
  have height : h * (a * s + c) = h * a * s + h * c := by ring
  rw [width, height] at touches inside outside
  constructor
  · exact Scalar.sign_copySign (mul_pos pos ha) hw
  · exact Scalar.sign_copySign pos hh
  · rintro (shrinks | unusable)
    · exact inside shrinks
    · rw [usable] at unusable
      cases unusable
  · intro a' same
    obtain rfl : a' = .real a := by
      rw [usable] at same
      exact (Option.some.inj same).symm
    simp only [signedLike, Scalar.abs_copySign, abs_mul, abs_of_pos ha]
    rw [mul_div_cancel_left₀ _ (abs_pos.mpr pos.ne').ne']
  · exact fun _ => touches
  · exact fun covers _ => outside covers

end FitsOrCovers

/-! ## The box that is made -/

namespace Extended

/-- The numbers that count as ratios are the positive real ones. -/
theorem exists_of_usableAspect {aspect : Option Extended} {a : Extended}
    (usable : usableAspect aspect = some a) : ∃ x, a = real x ∧ 0 < x :=
  isPositive_iff.mp (Option.filter_eq_some_iff.mp usable).2

section

variable (byZero : Extended → Extended)

theorem usableAspect_withQuotients (aspect : Option Extended) :
    @usableAspect Extended (withQuotients byZero) aspect = usableAspect aspect :=
  rfl

theorem absCosSin_withQuotients (degrees : ℝ) :
    @absCosSin Extended (withQuotients byZero) (real degrees) = absCosSin (real degrees) := by
  have straight : (180.0 : Extended) = real 180 := by
    rw [ofScientific_eq]
    norm_num
  have nonzero : (180 : ℝ) ≠ 0 := by norm_num
  simp only [absCosSin, Scalar.radians, withQuotients_abs, withQuotients_cos, withQuotients_sin,
    withQuotients_pi, straight, pi_eq, withQuotients_div _ nonzero, real_div nonzero]

theorem bindingLength_withQuotients (expand : Bool) (x y : ℝ) :
    letI := withQuotients byZero
    bindingLength expand (real x) (real y) = real (bindingLength expand x y) := by
  cases expand with
  | false => simp [bindingLength, withQuotients_min]
  | true => simp [bindingLength, withQuotients_max]

theorem signedLike_withQuotients (size : Size ℝ) (w h : ℝ) :
    letI := withQuotients byZero
    signedLike ⟨real size.w, real size.h⟩ (real w) (real h) =
      ⟨real (signedLike size w h).w, real (signedLike size w h).h⟩ := by
  simp only [signedLike, withQuotients_copySign, copySign_real]

variable {degrees c s : ℝ} {aspect : Option Extended} (size : Size ℝ) (expand : Bool)
  (tolerance : Extended) (turned : degrees ≠ 0)
  (hcs : absCosSin (real degrees) = (real c, real s))

include turned hcs

/-- A box of a usable ratio, whatever quotients by zero are. -/
theorem rotateFit_of_usable {a : ℝ} (usable : usableAspect aspect = some (real a))
    (dw : a * c + s ≠ 0) (dh : a * s + c ≠ 0) :
    letI := withQuotients byZero
    let h := bindingLength expand (|size.w| / (a * c + s)) (|size.h| / (a * s + c))
    rotateFit ⟨real size.w, real size.h⟩ (real degrees) aspect expand false tolerance =
      ⟨real (signedLike size (h * a) h).w, real (signedLike size (h * a) h).h⟩ := by
  have free : ¬(false || real degrees == 0.0) = true := by
    simpa using turned
  intro h
  simp only [rotateFit]
  refine (if_neg free).trans ?_
  rw [usableAspect_withQuotients, usable]
  simp only [absCosSin_withQuotients, hcs, withQuotients_abs, abs_real, real_mul, real_add,
    withQuotients_div _ dw, withQuotients_div _ dh, bindingLength_withQuotients,
    signedLike_withQuotients, h]

/-- A box without a ratio, whatever quotients by zero are. -/
theorem rotateFit_of_free {fw fh : ℝ} (free : usableAspect aspect = none)
    (answer : letI := withQuotients byZero
      freeFit (real |size.w|) (real |size.h|) (real c) (real s) tolerance = (real fw, real fh)) :
    letI := withQuotients byZero
    rotateFit ⟨real size.w, real size.h⟩ (real degrees) aspect expand false tolerance =
      ⟨real (signedLike size fw fh).w, real (signedLike size fw fh).h⟩ := by
  have oblique : ¬(false || real degrees == 0.0) = true := by
    simpa using turned
  simp only [rotateFit]
  refine (if_neg oblique).trans ?_
  rw [usableAspect_withQuotients, free]
  simp only [absCosSin_withQuotients, hcs, withQuotients_abs, abs_real, answer,
    signedLike_withQuotients]

end

/-- A box that is made for a turned element keeps the signs of the size it is made for. Without a
usable ratio, or without `expand`, its bounding box stays inside; a box of a usable ratio touches
the size, and with `expand` covers it. The box does not depend on what quotients by zero are,
whatever the tolerance, so none is taken for it; in particular the two equations are only solved if
their determinant is not zero. -/
theorem rotateFit_fits_or_covers {w h degrees : ℝ} (hw : w ≠ 0) (hh : h ≠ 0)
    (turned : degrees ≠ 0) (aspect : Option Extended) (expand : Bool) (tolerance : Extended)
    (oblique : usableAspect aspect = none →
      Real.cos (degrees * (Real.pi / 180)) ≠ 0 ∧ Real.sin (degrees * (Real.pi / 180)) ≠ 0) :
    let c := |Real.cos (degrees * (Real.pi / 180))|
    let s := |Real.sin (degrees * (Real.pi / 180))|
    ∃ fit bounds : Size ℝ,
      rotateFit ⟨real w, real h⟩ (real degrees) aspect expand false tolerance =
        ⟨real fit.w, real fit.h⟩ ∧
      rotatedBounds ⟨real fit.w, real fit.h⟩ (real degrees) = ⟨real bounds.w, real bounds.h⟩ ∧
      FitsOrCovers ⟨w, h⟩ fit bounds aspect expand ∧
      (∀ byZero, @rotateFit Extended (withQuotients byZero) ⟨real w, real h⟩ (real degrees) aspect
        expand false tolerance = ⟨real fit.w, real fit.h⟩) ∧
      (usableAspect aspect = none → min (s / c) (c / s) < |w| / |h| →
        |w| / |h| < max (s / c) (c / s) → c * c - s * s ≠ 0) := by
  intro c s
  have hcs : absCosSin (real degrees) = (real c, real s) := absCosSin_real degrees
  have hc : 0 ≤ c := abs_nonneg _
  have hs : 0 ≤ s := abs_nonneg _
  have unit : c ^ 2 + s ^ 2 = 1 := Scalar.sq_abs_cos_add_sq_abs_sin _
  have width : 0 < |w| := abs_pos.mpr hw
  have height : 0 < |h| := abs_pos.mpr hh
  have bounding : ∀ {fw fh : ℝ}, 0 < fw → 0 < fh →
      rotatedBounds ⟨real (signedLike ⟨w, h⟩ fw fh).w, real (signedLike ⟨w, h⟩ fw fh).h⟩
        (real degrees) = ⟨real (fw * c + fh * s), real (fw * s + fh * c)⟩ := by
    intro fw fh hfw hfh
    simp [rotatedBounds, hcs, signedLike, abs_of_pos hfw, abs_of_pos hfh]
  cases usable : usableAspect aspect with
  | none =>
    obtain ⟨hc0, hs0⟩ := oblique usable
    have hc : 0 < c := abs_pos.mpr hc0
    have hs : 0 < s := abs_pos.mpr hs0
    obtain ⟨fw, fh, answer, fits, hfw, hfh⟩ := exists_obliqueFit hc hs unit width height tolerance
    have made := fun byZero =>
      rotateFit_of_free byZero ⟨w, h⟩ expand tolerance turned hcs usable (answer byZero)
    have usual := made (· / real 0)
    rw [withQuotients_self] at usual
    refine ⟨_, ⟨_, _⟩, usual, bounding hfw hfh, .of_free usable hw hh fits hfw hfh, made, ?_⟩
    intro _ narrow wide
    exact (FitsTurned.between_of_lt hc hs width height narrow wide).det_ne_zero
  | some a =>
    obtain ⟨a, rfl, ha⟩ := exists_of_usableAspect usable
    have dw : 0 < a * c + s := Scalar.extent_pos ha hc hs unit
    have dh : 0 < a * s + c := Scalar.extent_pos ha hs hc (by linarith)
    have made := fun byZero =>
      rotateFit_of_usable byZero ⟨w, h⟩ expand tolerance turned hcs usable dw.ne' dh.ne'
    have usual := made (· / real 0)
    rw [withQuotients_self] at usual
    obtain ⟨pos, -⟩ := bindingLength_cases expand dw dh width height
    refine ⟨_, ⟨_, _⟩, usual, bounding (mul_pos pos ha) pos, .of_ratio ha hc hs unit usable hw hh,
      made, ?_⟩
    rintro ⟨⟩

/-! ## A poster -/

theorem cos_thirty : Real.cos (30 * (Real.pi / 180)) = √3 / 2 := by
  have sixth : 30 * (Real.pi / 180) = Real.pi / 6 := by ring
  rw [sixth, Real.cos_pi_div_six]

theorem sin_thirty : Real.sin (30 * (Real.pi / 180)) = 1 / 2 := by
  have sixth : 30 * (Real.pi / 180) = Real.pi / 6 := by ring
  rw [sixth, Real.sin_pi_div_six]

/-- A poster is fitted into a flipped slot, tilted and without a ratio, and covers the slot on its
side and twice as wide as high. -/
theorem rotateFit_fits_or_covers_poster :
    ((100 : ℝ) ≠ 0 ∧ (-50 : ℝ) ≠ 0 ∧ (30 : ℝ) ≠ 0 ∧ (90 : ℝ) ≠ 0 ∧
      Real.cos (30 * (Real.pi / 180)) ≠ 0 ∧ Real.sin (30 * (Real.pi / 180)) ≠ 0 ∧
      usableAspect (some (real 2)) ≠ none) ∧
    (∃ fit bounds : Size ℝ,
      rotateFit ⟨real 100, real (-50)⟩ (real 30) none true false nan =
        ⟨real fit.w, real fit.h⟩ ∧
      rotatedBounds ⟨real fit.w, real fit.h⟩ (real 30) = ⟨real bounds.w, real bounds.h⟩ ∧
      0 < fit.w ∧ fit.h < 0 ∧ bounds.w ≤ 100 ∧ bounds.h ≤ 50) ∧
    ∃ fit bounds : Size ℝ,
      rotateFit ⟨real 100, real (-50)⟩ (real 90) (some (real 2)) true false nan =
        ⟨real fit.w, real fit.h⟩ ∧
      rotatedBounds ⟨real fit.w, real fit.h⟩ (real 90) = ⟨real bounds.w, real bounds.h⟩ ∧
      |fit.w| / |fit.h| = 2 ∧ 100 ≤ bounds.w ∧ 50 ≤ bounds.h := by
  have width : (100 : ℝ) ≠ 0 := by norm_num
  have height : (-50 : ℝ) ≠ 0 := by norm_num
  have tilted : (30 : ℝ) ≠ 0 := by norm_num
  have upended : (90 : ℝ) ≠ 0 := by norm_num
  have cos : Real.cos (30 * (Real.pi / 180)) ≠ 0 := by
    rw [cos_thirty]
    positivity
  have sin : Real.sin (30 * (Real.pi / 180)) ≠ 0 := by
    rw [sin_thirty]
    norm_num
  have usable : usableAspect (some (real 2)) = some (real 2) := by
    simp [usableAspect, Option.filter]
  refine ⟨⟨width, height, tilted, upended, cos, sin, by simp [usable]⟩, ?_, ?_⟩
  · obtain ⟨fit, bounds, made, bounding, fits, -⟩ :=
      rotateFit_fits_or_covers width height tilted none true nan fun _ => ⟨cos, sin⟩
    obtain ⟨narrow, low⟩ := fits.contained (.inr rfl)
    have right : 0 < fit.w := by
      rw [← sign_eq_one_iff, fits.sign_w]
      exact sign_pos (by norm_num)
    have up : fit.h < 0 := by
      rw [← sign_eq_neg_one_iff, fits.sign_h]
      exact sign_neg (by norm_num)
    refine ⟨fit, bounds, made, bounding, right, up, ?_, ?_⟩
    · simpa using narrow
    · simpa using low
  · obtain ⟨fit, bounds, made, bounding, fits, -⟩ :=
      rotateFit_fits_or_covers width height upended (some (real 2)) true nan
        fun unusable => absurd unusable (by simp [usable])
    obtain ⟨wide, high⟩ := fits.covers rfl (by simp [usable])
    have ratio := fits.ratio _ usable
    refine ⟨fit, bounds, made, bounding, (real.inj ratio).symm, ?_, ?_⟩
    · simpa using wide
    · simpa using high

end Extended

end SvgLayout
