import SvgLayout.Proofs.Scalar.Real
import SvgLayout.Context
import SvgLayout.Element.Measured

/-!
# Fits without dead space

A node whose slot has the ratio that its parent plans with takes all of its slot, whatever its
rotation. In exact arithmetic `embed`, `rotateFit`, `rotatedAspect` and `rotatedBounds` agree on
this.

## Main definitions

* `Spec.plannedAspect` — the ratio that a parent plans with.
* `Spec.footprint` — the extent of a node in the axes of its parent.
* `Rect.HasAspect` — a rectangle with extent and a given ratio.

## Main statements

* `plannedAspect_pos` — the planned ratio is positive if the ratio is.
* `abs_rotateFit`, `rotateFit_h_ne_zero` — a fit keeps its ratio, and has extent if its slot has.
* `footprint_rotateFit` — a fit into a slot of the planned ratio takes all of it.
-/

namespace SvgLayout

/-! ## Ratios and extents -/

section

variable {α : Type} [Scalar α]

/-- The ratio that a parent plans with for a node of ratio `aspect`: that of the bounding box if the
node is rotated. -/
def Spec.plannedAspect (spec : Spec α) (aspect : α) : α :=
  if spec.isRotated then rotatedAspect aspect spec.rotate else aspect

/-- The extent of a node of size `size` in the axes of its parent: that of the bounding box if the
node is rotated. -/
def Spec.footprint (spec : Spec α) (size : Size α) : Size α :=
  if spec.isRotated then rotatedBounds size spec.rotate else size.abs

/-- A parent plans with the planned ratio of what a node measures. -/
theorem Measured.layoutAspect_eq (m : Measured α) :
    m.layoutAspect = Option.map m.spec.plannedAspect <$> m.sizing.aspect :=
  rfl

end

/-- The rectangle has an extent, and `aspect` is the ratio of its width to its height. -/
structure Rect.HasAspect (r : Rect ℝ) (aspect : ℝ) : Prop where
  height : r.height ≠ 0
  width : |r.width| = aspect * |r.height|

theorem Rect.HasAspect.aspect_eq {r : Rect ℝ} {aspect : ℝ} (h : r.HasAspect aspect) :
    r.aspect = some aspect := by
  have height : |r.height| ≠ 0 := abs_ne_zero.mpr h.height
  have ratio : |r.width / r.height| = aspect := by
    rw [abs_div, h.width, mul_div_cancel_right₀ _ height]
  simp [Rect.aspect, Size.aspect, Rect.size, h.height, ratio]

/-! ## Turned boxes -/

/-- The magnitudes of the cosine and the sine of an angle. -/
theorem exists_absCosSin (degrees : ℝ) :
    ∃ c s, absCosSin degrees = (c, s) ∧ 0 ≤ c ∧ 0 ≤ s ∧ c ^ 2 + s ^ 2 = 1 :=
  ⟨_, _, rfl, abs_nonneg _, abs_nonneg _, Scalar.sq_abs_cos_add_sq_abs_sin _⟩

/-- The planned ratio is positive if the ratio is. -/
theorem plannedAspect_pos {aspect : ℝ} (positive : 0 < aspect) (spec : Spec ℝ) :
    0 < spec.plannedAspect aspect := by
  rw [Spec.plannedAspect]
  by_cases rotated : spec.isRotated = true
  · obtain ⟨c, s, hcs, hc, hs, unit⟩ := exists_absCosSin spec.rotate
    have width : 0 < aspect * c + s := Scalar.extent_pos positive hc hs unit
    have height : 0 < aspect * s + c := Scalar.extent_pos positive hs hc (by linarith)
    rw [if_pos rotated, rotatedAspect, hcs]
    exact div_pos width height
  · rwa [if_neg rotated]

/-! ## Fits -/

variable {spec : Spec ℝ} {size : Size ℝ} {aspect : ℝ}

theorem usableAspect_of_pos (positive : 0 < aspect) : usableAspect (some aspect) = some aspect := by
  simp [usableAspect, Option.filter, positive]

/-- A slot of the ratio of a box is the box. -/
theorem embed_of_aspect (positive : 0 < aspect) (h : |size.w| = aspect * |size.h|)
    (expand : Bool) : embed size (some aspect) expand = size := by
  have length : |size.w| / aspect = |size.h| := by
    rw [h, mul_div_cancel_left₀ _ positive.ne']
  have width : |size.h| * aspect = |size.w| := by
    rw [h, mul_comm]
  cases expand <;>
    simp [embed, usableAspect_of_pos positive, bindingLength, signedLike, length, width]

theorem bindingLength_pos (expand : Bool) {a b : ℝ} (ha : 0 < a) (hb : 0 < b) :
    0 < bindingLength expand a b := by
  cases expand <;> simp [bindingLength, ha, hb]

/-- A box that is made from its height has its ratio. -/
theorem abs_signedLike (positive : 0 < aspect) (size : Size ℝ) (length : ℝ) :
    |(signedLike size (length * aspect) length).w| =
      aspect * |(signedLike size (length * aspect) length).h| := by
  rw [signedLike, Scalar.abs_copySign, Scalar.abs_copySign, abs_mul, abs_of_pos positive, mul_comm]

theorem signedLike_h_ne_zero (size : Size ℝ) (width : ℝ) {length : ℝ} (positive : 0 < length) :
    (signedLike size width length).h ≠ 0 := by
  rw [signedLike, ← abs_ne_zero, Scalar.abs_copySign, abs_ne_zero]
  exact positive.ne'

/-- A box of a positive ratio is made from its height, with the signs of the size. -/
theorem embed_some (positive : 0 < aspect) (size : Size ℝ) (expand : Bool) :
    let length := bindingLength expand (|size.w| / aspect) |size.h|
    embed size (some aspect) expand = signedLike size (length * aspect) length := by
  simp [embed, usableAspect_of_pos positive]

/-- A box of a ratio in a size with extent has extent and keeps its ratio. -/
theorem embed_keeps_aspect (positive : 0 < aspect) (w : size.w ≠ 0) (h : size.h ≠ 0)
    (expand : Bool) :
    (embed size (some aspect) expand).h ≠ 0 ∧
      |(embed size (some aspect) expand).w| = aspect * |(embed size (some aspect) expand).h| := by
  have length : 0 < bindingLength expand (|size.w| / aspect) |size.h| :=
    bindingLength_pos expand (div_pos (abs_pos.mpr w) positive) (abs_pos.mpr h)
  rw [embed_some positive]
  exact ⟨signedLike_h_ne_zero size _ length, abs_signedLike positive size _⟩

/-- A fit keeps the ratio it is given, turned or not. -/
theorem abs_rotateFit (positive : 0 < aspect) (size : Size ℝ) (rotate : ℝ)
    (expand invar : Bool) (tolerance : ℝ) :
    let fit := rotateFit size rotate (some aspect) expand invar tolerance
    |fit.w| = aspect * |fit.h| := by
  intro fit
  obtain ⟨h, hfit⟩ : ∃ h, fit = signedLike size (h * aspect) h := by
    simp only [fit, rotateFit, embed, usableAspect_of_pos positive]
    by_cases upright : (invar || rotate == 0.0) = true
    · exact ⟨_, if_pos upright⟩
    · exact ⟨_, if_neg upright⟩
  rw [hfit]
  exact abs_signedLike positive size h

/-- A fit into a size with extent has extent. -/
theorem rotateFit_h_ne_zero (positive : 0 < aspect) (size : Size ℝ) (w : size.w ≠ 0)
    (h : size.h ≠ 0) (degrees : ℝ) (expand invar : Bool) (tolerance : ℝ) :
    (rotateFit size degrees (some aspect) expand invar tolerance).h ≠ 0 := by
  by_cases upright : (invar || degrees == 0.0) = true
  · rw [rotateFit, if_pos upright]
    exact (embed_keeps_aspect positive w h expand).1
  · obtain ⟨c, s, hcs, hc, hs, unit⟩ := exists_absCosSin degrees
    have dw : 0 < aspect * c + s := Scalar.extent_pos positive hc hs unit
    have dh : 0 < aspect * s + c := Scalar.extent_pos positive hs hc (by linarith)
    rw [rotateFit, if_neg upright, hcs, usableAspect_of_pos positive]
    apply signedLike_h_ne_zero
    exact bindingLength_pos expand (div_pos (abs_pos.mpr w) dw) (div_pos (abs_pos.mpr h) dh)

/-- Both bounds of a turned box bind in a slot of its planned ratio, so that it makes no difference
whether the box may grow. -/
theorem rotateFit_of_aspect (positive : 0 < aspect) (rotated : spec.isRotated = true)
    (h : |size.w| = rotatedAspect aspect spec.rotate * |size.h|) (tolerance : ℝ) {c s : ℝ}
    (hcs : absCosSin spec.rotate = (c, s)) (hc : 0 ≤ c) (hs : 0 ≤ s)
    (unit : c ^ 2 + s ^ 2 = 1) :
    rotateFit size spec.rotate (some aspect) spec.expand spec.invar tolerance =
      signedLike size (|size.h| / (aspect * s + c) * aspect) (|size.h| / (aspect * s + c)) := by
  obtain ⟨turned, fitted⟩ : spec.rotate ≠ 0 ∧ spec.invar = false := by
    simpa [Spec.isRotated, Spec.isTurned] using rotated
  have free : ¬(spec.invar || spec.rotate == 0.0) = true := by
    simp [turned, fitted]
  have dw : 0 < aspect * c + s := Scalar.extent_pos positive hc hs unit
  have dh : 0 < aspect * s + c := Scalar.extent_pos positive hs hc (by linarith)
  have same : |size.w| / (aspect * c + s) = |size.h| / (aspect * s + c) := by
    rw [h, rotatedAspect, hcs]
    field_simp
  rw [rotateFit, if_neg free, hcs, usableAspect_of_pos positive]
  cases spec.expand <;> simp [bindingLength, same]

/-- A box of a ratio that is fitted into a slot of the planned ratio keeps its own ratio and takes
all of the slot. -/
theorem footprint_rotateFit (positive : 0 < aspect)
    (h : |size.w| = spec.plannedAspect aspect * |size.h|) (tolerance : ℝ) :
    let fit := rotateFit size spec.rotate (some aspect) spec.expand spec.invar tolerance
    |fit.w| = aspect * |fit.h| ∧ (size.h ≠ 0 → fit.h ≠ 0) ∧ spec.footprint fit = size.abs := by
  intro fit
  by_cases rotated : spec.isRotated = true
  · obtain ⟨c, s, hcs, hc, hs, unit⟩ := exists_absCosSin spec.rotate
    rw [Spec.plannedAspect, if_pos rotated] at h
    have hfit : fit = _ := rotateFit_of_aspect positive rotated h tolerance hcs hc hs unit
    have dh : 0 < aspect * s + c := Scalar.extent_pos positive hs hc (by linarith)
    have length : 0 ≤ |size.h| / (aspect * s + c) := by positivity
    have width : |fit.w| = |size.h| / (aspect * s + c) * aspect := by
      rw [hfit, signedLike, Scalar.abs_copySign, abs_of_nonneg (by positivity)]
    have height : |fit.h| = |size.h| / (aspect * s + c) := by
      rw [hfit, signedLike, Scalar.abs_copySign, abs_of_nonneg length]
    refine ⟨?_, ?_, ?_⟩
    · rw [width, height, mul_comm]
    · intro _
      rw [← abs_ne_zero, height]
      positivity
    · rw [Spec.footprint, if_pos rotated, rotatedBounds, hcs]
      simp only [Scalar.abs_eq, width, height, Size.abs, h, rotatedAspect, hcs]
      congr 1
      · field_simp
      · field_simp
  · have upright : (spec.invar || spec.rotate == 0.0) = true := by
      simpa [Spec.isRotated, Spec.isTurned, imp_iff_not_or, or_comm] using rotated
    rw [Spec.plannedAspect, if_neg rotated] at h
    have hfit : fit = size := by
      rw [← embed_of_aspect positive h spec.expand]
      exact if_pos upright
    rw [hfit, Spec.footprint, if_neg rotated]
    exact ⟨h, id, rfl⟩

end SvgLayout
