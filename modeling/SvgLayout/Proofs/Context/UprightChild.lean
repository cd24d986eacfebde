import SvgLayout.Proofs.Context.Placing
import SvgLayout.Proofs.Context.TurnedBounds
import SvgLayout.Proofs.Geometry.TurnedCover

/-!
# Where a child that is not turned is drawn

A child that is not turned, or that is turned in place, stands upright in its slot. It lies inside
the slot or, if it may grow, around it, and touches it on both sides of an axis. Its alignment
divides the free space, which is negative if the child has grown, and is counted from the left and
from above whether or not the slot is flipped. The child is flipped with its slot.

## Main definitions

* `Limit.StandsIn`, `Rect.StandsIn` — a box stands in a slot.
* `UprightPlacement` — a child that is fitted without regard to its angle.

## Main statements

* `embed_bounds`, `embed_neg_iff` — the extents and the signs of a fit.
* `Limit.standsIn_place` — an aligned length stands in its interval.
* `Context.child_standsIn` — a child stands in its slot.
-/

namespace SvgLayout

/-- On one axis, a box that shrinks lies in the slot and one that grows lies around it. Before the
box lies its share of the free space. An extent is reversed if that of the slot is. -/
structure Limit.StandsIn (box slot : Limit ℝ) (align : ℝ) (expand : Bool) : Prop where
  shrinks : expand = false →
    slot.upright.lo ≤ box.upright.lo ∧ box.upright.hi ≤ slot.upright.hi
  grows : expand = true →
    box.upright.lo ≤ slot.upright.lo ∧ slot.upright.hi ≤ box.upright.hi
  offset : box.upright.lo - slot.upright.lo = align * (slot.upright.length - box.upright.length)
  flipped : slot.length ≠ 0 → box.length ≠ 0 → (box.hi < box.lo ↔ slot.hi < slot.lo)

/-- A box of a ratio, if there is one, stands in a slot on both axes. It is as wide or as high as
the slot, and both without a ratio. -/
structure Rect.StandsIn (box slot : Rect ℝ) (align : Align ℝ) (aspect : Option ℝ)
    (expand : Bool) : Prop where
  x : box.xLimit.StandsIn slot.xLimit align.x expand
  y : box.yLimit.StandsIn slot.yLimit align.y expand
  touches : |box.width| = |slot.width| ∨ |box.height| = |slot.height|
  fills : aspect = none → |box.width| = |slot.width| ∧ |box.height| = |slot.height|
  ratio : ∀ a ∈ aspect, slot.width ≠ 0 → slot.height ≠ 0 → box.HasAspect a

/-! ## Fits -/

section

variable {size : Size ℝ} {aspect : Option ℝ}

theorem bindingLength_nonneg (expand : Bool) {a b : ℝ} (ha : 0 ≤ a) (hb : 0 ≤ b) :
    0 ≤ bindingLength expand a b := by
  cases expand <;> simp [bindingLength, ha, hb]

/-- The extents of a fit are bound by those of the size, which it shares on an axis. -/
theorem embed_bounds (positive : ∀ a ∈ aspect, 0 < a) (size : Size ℝ) (expand : Bool) :
    let fit := embed size aspect expand
    (|fit.w| = |size.w| ∨ |fit.h| = |size.h|) ∧
      (expand = false → |fit.w| ≤ |size.w| ∧ |fit.h| ≤ |size.h|) ∧
      (expand = true → |size.w| ≤ |fit.w| ∧ |size.h| ≤ |fit.h|) := by
  intro fit
  cases aspect with
  | none =>
    have all : fit = size := rfl
    simp [all]
  | some a =>
    have ha : 0 < a := positive a rfl
    obtain ⟨length, hlength⟩ : ∃ l, l = bindingLength expand (|size.w| / a) |size.h| := ⟨_, rfl⟩
    have nonneg : 0 ≤ length := by
      rw [hlength]
      exact bindingLength_nonneg expand (by positivity) (abs_nonneg _)
    have hfit : fit = signedLike size (length * a) length := by
      rw [hlength]
      exact embed_some ha size expand
    have width : |fit.w| = length * a := by
      rw [hfit, signedLike, Scalar.abs_copySign, abs_of_nonneg (mul_nonneg nonneg ha.le)]
    have height : |fit.h| = length * 1 := by
      rw [hfit, signedLike, Scalar.abs_copySign, abs_of_nonneg nonneg, mul_one]
    have bounds := bindingLength_bounds expand ha one_pos |size.w| |size.h|
    rw [div_one, ← hlength] at bounds
    rwa [width, height]

/-- A number that is not zero takes the sign that it is given. -/
theorem Scalar.copySign_neg_iff {x y : ℝ} (nonzero : Scalar.copySign x y ≠ 0) :
    Scalar.copySign x y < 0 ↔ y < 0 := by
  rw [Scalar.copySign_eq] at nonzero ⊢
  by_cases negative : y < 0
  · rw [if_pos negative] at nonzero ⊢
    simpa [negative] using nonzero
  · simp [negative]

/-- A fit has the signs of the size. -/
theorem embed_neg_iff (aspect : Option ℝ) (size : Size ℝ) (expand : Bool) :
    let fit := embed size aspect expand
    (fit.w ≠ 0 → (fit.w < 0 ↔ size.w < 0)) ∧ (fit.h ≠ 0 → (fit.h < 0 ↔ size.h < 0)) := by
  intro fit
  cases usable : usableAspect aspect with
  | none =>
    have all : fit = size := by
      simp only [fit, embed, usable]
    simp [all]
  | some a =>
    have made : ∃ w h, fit = signedLike size w h := by
      simp only [fit, embed, usable]
      exact ⟨_, _, rfl⟩
    obtain ⟨w, h, hfit⟩ := made
    rw [hfit]
    exact ⟨Scalar.copySign_neg_iff, Scalar.copySign_neg_iff⟩

end

/-! ## One axis -/

/-- A length of the direction of an interval stands in it, aligned between its ends. -/
theorem Limit.standsIn_place {slot : Limit ℝ} {length align : ℝ} {expand : Bool}
    (start : 0 ≤ align) (stop : align ≤ 1) (shrinks : expand = false → |length| ≤ |slot.length|)
    (grows : expand = true → |slot.length| ≤ |length|)
    (sign : length ≠ 0 → (length < 0 ↔ slot.length < 0)) :
    (slot.place length align).StandsIn slot align expand := by
  have before := slot.upright_place length align
  have behind : slot.upright.hi = slot.upright.lo + |slot.length| := by
    rw [← slot.length_upright, Limit.length]
    ring
  have extent : (slot.place length align).length = length := by
    simp only [place, Limit.length, Scalar.literal_two]
    ring
  constructor
  · intro shrunk
    have free : 0 ≤ |slot.length| - |length| := sub_nonneg.mpr (shrinks shrunk)
    have first := mul_nonneg start free
    have last := mul_nonneg (sub_nonneg.mpr stop) free
    rw [before, behind, slot.length_upright]
    constructor <;> linarith
  · intro grown
    have excess : 0 ≤ |length| - |slot.length| := sub_nonneg.mpr (grows grown)
    have first := mul_nonneg start excess
    have last := mul_nonneg (sub_nonneg.mpr stop) excess
    rw [before, behind, slot.length_upright]
    constructor <;> linarith
  · rw [slot.length_upright_place length align, before]
    ring
  · intro _ nonzero
    have reversed : (slot.place length align).length < 0 ↔ slot.length < 0 := by
      rw [extent] at nonzero ⊢
      exact sign nonzero
    exact sub_neg.symm.trans (reversed.trans sub_neg)

/-- A box that is fitted into a slot and aligned stands in it. -/
theorem Rect.standsIn_standIn {slot : Rect ℝ} {align : Align ℝ} {aspect : Option ℝ} {expand : Bool}
    (x : 0 ≤ align.x ∧ align.x ≤ 1) (y : 0 ≤ align.y ∧ align.y ≤ 1)
    (positive : ∀ a ∈ aspect, 0 < a) :
    (standIn slot (embed slot.size aspect expand) align).toRect.StandsIn slot align aspect
      expand := by
  obtain ⟨touches, inside, around⟩ := embed_bounds positive slot.size expand
  obtain ⟨signW, signH⟩ := embed_neg_iff aspect slot.size expand
  have size : (standIn slot (embed slot.size aspect expand) align).toRect.size =
      embed slot.size aspect expand := CenterBox.size_toRect _
  have width := congrArg Size.w size
  have height := congrArg Size.h size
  constructor
  · rw [toRect_standIn]
    exact Limit.standsIn_place x.1 x.2 (fun h => (inside h).1) (fun h => (around h).1) signW
  · rw [toRect_standIn]
    exact Limit.standsIn_place y.1 y.2 (fun h => (inside h).2) (fun h => (around h).2) signH
  · rw [← width, ← height] at touches
    exact touches
  · rintro rfl
    exact ⟨congrArg abs width, congrArg abs height⟩
  · intro a ratio w h
    obtain rfl := Option.mem_def.mp ratio
    obtain ⟨extent, kept⟩ : (embed slot.size (some a) expand).h ≠ 0 ∧
        |(embed slot.size (some a) expand).w| = a * |(embed slot.size (some a) expand).h| :=
      embed_keeps_aspect (positive a rfl) w h expand
    rw [← width, ← height] at *
    exact ⟨extent, kept⟩

/-! ## Real coordinates -/

open Extended

/-- A child of a context that is fitted without regard to its angle, where every coordinate is a
real number and the alignment is a fraction. Its ratio may be anything. -/
structure UprightPlacement (ctx : Context Extended) (spec : Spec Extended) : Prop where
  pixels : ctx.pixels.isFinite = true
  coord : ctx.coord.isFinite = true
  rect : ∀ r ∈ spec.rect, r.isFinite = true
  upright : (spec.rotate == 0.0) = true ∨ spec.invar = true
  alignX : 0.0 ≤ spec.align.x ∧ spec.align.x ≤ 1.0
  alignY : 0.0 ≤ spec.align.y ∧ spec.align.y ≤ 1.0

namespace Extended

/-- A rectangle of real coordinates. -/
def realRect (r : Rect ℝ) : Rect Extended :=
  ⟨real r.x1, real r.y1, real r.x2, real r.y2⟩

theorem realRect_injective : Function.Injective realRect := by
  rintro ⟨x1, y1, x2, y2⟩ ⟨x1', y1', x2', y2'⟩ same
  simpa [realRect] using same

/-- A fraction is a real number. -/
theorem exists_fraction {a : Extended} (h : 0.0 ≤ a ∧ a ≤ 1.0) :
    ∃ x, a = real x ∧ 0 ≤ x ∧ x ≤ 1 := by
  obtain ⟨start, stop⟩ := h
  cases a with
  | nan => exact start.elim
  | infinite negative =>
    cases negative with
    | false => cases stop
    | true => cases start
  | real x => exact ⟨x, rfl, by simpa using start, by simpa using stop⟩

/-- The ratio that counts is the one that is a positive real number. -/
theorem exists_ratio (aspect : Option Extended) :
    ∃ ratio : Option ℝ, usableAspect aspect = ratio.map real ∧
      ∀ a, ratio = some a ↔ 0 < a ∧ aspect = some (real a) := by
  cases usable : usableAspect aspect with
  | none =>
    refine ⟨none, rfl, fun a => ?_⟩
    simp only [reduceCtorEq, false_iff, not_and]
    rintro positive rfl
    simp [usableAspect, Option.filter, positive] at usable
  | some b =>
    obtain ⟨x, rfl, positive⟩ := exists_of_usableAspect usable
    obtain rfl : aspect = some (real x) := (Option.filter_eq_some_iff.mp usable).1
    refine ⟨some x, rfl, fun a => ?_⟩
    simp only [Option.some.injEq, real.injEq]
    constructor
    · rintro rfl
      exact ⟨positive, rfl⟩
    · exact And.right

/-- A fit of a real size is that of the ratio that counts. -/
theorem embed_real {aspect : Option Extended} {ratio : Option ℝ}
    (usable : usableAspect aspect = ratio.map real) (positive : ∀ a ∈ ratio, 0 < a) (w h : ℝ)
    (expand : Bool) :
    let fit := embed ⟨w, h⟩ ratio expand
    embed ⟨real w, real h⟩ aspect expand = ⟨real fit.w, real fit.h⟩ := by
  intro fit
  cases ratio with
  | none =>
    simp only [embed, usable, Option.map_none, fit]
    rfl
  | some a =>
    have ha : 0 < a := positive a rfl
    have hfit : fit = _ := embed_some ha ⟨w, h⟩ expand
    simp only [embed, usable, Option.map_some, hfit, abs_real, real_div ha.ne']
    cases expand with
    | false => simp [bindingLength, signedLike]
    | true => simp [bindingLength, signedLike]

end Extended

/-- A child that is not turned, or that is turned in place, stands in its slot in pixels. -/
theorem Context.child_standsIn {ctx : Context Extended} {spec : Spec Extended}
    (placed : UprightPlacement ctx spec) :
    ∃ (slot box : Rect ℝ) (align : Align ℝ) (aspect : Option ℝ),
      ctx.slot spec = realRect slot ∧ (ctx.child spec).pixels = realRect box ∧
      spec.align = ⟨real align.x, real align.y⟩ ∧
      (∀ a, aspect = some a ↔ 0 < a ∧ spec.fixedAspect = some (real a)) ∧
      box.StandsIn slot align aspect spec.expand := by
  obtain ⟨x1, y1, x2, y2, slot⟩ := exists_slot placed.pixels placed.coord placed.rect
  obtain ⟨ax, hax, startX, stopX⟩ := exists_fraction placed.alignX
  obtain ⟨ay, hay, startY, stopY⟩ := exists_fraction placed.alignY
  obtain ⟨aspect, usable, ratio⟩ := exists_ratio spec.fixedAspect
  have positive : ∀ a ∈ aspect, 0 < a := fun a ha => ((ratio a).mp ha).1
  have upright : spec.isRotated = false := by
    simpa [Spec.isRotated, Spec.isTurned, imp_iff_not_or, or_comm] using placed.upright
  obtain ⟨fit, hfit⟩ : ∃ fit, fit = embed ⟨x2 - x1, y2 - y1⟩ aspect spec.expand := ⟨_, rfl⟩
  have fitted : rotateFit (ctx.slot spec).size spec.rotate spec.fixedAspect spec.expand spec.invar
      ctx.tolerance = ⟨real fit.w, real fit.h⟩ := by
    rw [rotateFit_of_upright upright, hfit, ← embed_real usable positive, slot]
    simp [Rect.size, Rect.width, Rect.height]
  have align : spec.align = ⟨real ax, real ay⟩ := Align.ext hax hay
  refine ⟨⟨x1, y1, x2, y2⟩, (standIn ⟨x1, y1, x2, y2⟩ fit ⟨ax, ay⟩).toRect, ⟨ax, ay⟩, aspect, slot,
    ?_, align, ratio, ?_⟩
  · rw [child_pixels_real slot align fitted, toRect_real]
    simp [realRect, standIn, CenterBox.toRect, Rect.upright, Rect.width, Rect.height]
  · rw [hfit]
    exact Rect.standsIn_standIn ⟨startX, stopX⟩ ⟨startY, stopY⟩ positive

/-! ## A stamp -/

/-- A canvas whose vertical axis runs up. -/
noncomputable def stampContext : Context Extended :=
  .new ⟨0.0, 100.0, 200.0, 0.0⟩ .unit

/-- A square that is turned in place at the right edge. -/
noncomputable def stampSpec : Spec Extended :=
  { Spec.ofAspect 1.0 with align := ⟨1.0, 0.5⟩, rotate := 30.0, invar := true }

theorem uprightPlacement_stamp : UprightPlacement stampContext stampSpec where
  pixels := by simp [stampContext, Context.new, Rect.isFinite]
  coord := by simp [stampContext, Context.new, Rect.unit, Rect.isFinite]
  rect := by simp [stampSpec, Spec.ofAspect, Spec.plain]
  upright := .inr rfl
  alignX := by norm_num [stampSpec]
  alignY := by norm_num [stampSpec]

theorem slot_stamp : stampContext.slot stampSpec = realRect ⟨0, 100, 200, 0⟩ := by
  norm_num [Context.slot, stampContext, stampSpec, Spec.ofAspect, Spec.plain, Context.new,
    Context.mapRect, Context.xMap, Context.yMap, Rect.xLimit, Rect.yLimit, Rect.unit,
    AxisMap.between, AxisMap.apply, Limit.length, real_div, realRect]

/-- The stamp is as high as the canvas, begins where it reaches the right edge, and is flipped. -/
theorem Context.child_standsIn_stamp :
    UprightPlacement stampContext stampSpec ∧
      ∃ box : Rect ℝ, (stampContext.child stampSpec).pixels = realRect box ∧ box.HasAspect 1 ∧
        |box.height| = 100 ∧ box.upright.x1 = 100 ∧ box.y2 < box.y1 := by
  obtain ⟨slot, box, align, aspect, hslot, pixels, halign, ratio, stands⟩ :=
    child_standsIn uprightPlacement_stamp
  obtain rfl := realRect_injective (hslot.symm.trans slot_stamp)
  have right : align.x = 1 := by
    have same := congrArg Align.x halign
    norm_num [stampSpec] at same
    exact same.symm
  have square : aspect = some 1 := by
    refine (ratio 1).mpr ⟨one_pos, ?_⟩
    norm_num [stampSpec, Spec.ofAspect, Spec.fixedAspect]
  have kept : box.HasAspect 1 :=
    stands.ratio 1 square (by norm_num [Rect.width]) (by norm_num [Rect.height])
  have roomX : (Rect.xLimit ⟨0, 100, 200, 0⟩ : Limit ℝ).upright = ⟨0, 200⟩ := by
    norm_num [Rect.xLimit, Limit.upright]
  have roomY : (Rect.yLimit ⟨0, 100, 200, 0⟩ : Limit ℝ).upright = ⟨0, 100⟩ := by
    norm_num [Rect.yLimit, Limit.upright]
  have width : box.xLimit.upright.length = |box.width| := box.xLimit.length_upright
  have height : box.yLimit.upright.length = |box.height| := box.yLimit.length_upright
  have full : |box.height| = 100 := by
    obtain ⟨start, stop⟩ := stands.y.shrinks rfl
    have touches : |box.width| = 200 ∨ |box.height| = 100 := by
      simpa [Rect.width, Rect.height] using stands.touches
    rw [roomY] at start stop
    rw [kept.width] at touches
    rw [Limit.length] at height
    rcases touches with wide | high
    · linarith
    · exact high
  have offset := stands.x.offset
  rw [width, roomX, right, kept.width, full] at offset
  refine ⟨uprightPlacement_stamp, box, pixels, kept, full, ?_, ?_⟩
  · have begins : box.upright.x1 = box.xLimit.upright.lo := rfl
    rw [begins]
    norm_num [Limit.length] at offset
    exact offset
  · exact (stands.y.flipped (by norm_num [Rect.yLimit, Limit.length]) kept.height).mpr
      (by norm_num [Rect.yLimit])

end SvgLayout
