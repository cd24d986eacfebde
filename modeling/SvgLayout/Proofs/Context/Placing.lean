import SvgLayout.Proofs.Context.Slots
import SvgLayout.Proofs.Geometry.Hull
import SvgLayout.Element.Group

/-!
# Boxes that are not turned

A node that is not fitted as a turned box takes the largest box of its ratio in its slot, and stands
there as its alignment says, one axis at a time. A box that is measured in coordinates and drawn in
pixels is aligned twice: the share of the free space that lies before it is counted from the same
side of the slot only if the axis is not reversed.

## Main definitions

* `Limit.place` — a length in an interval, on one axis.
* `Spec.boxIn` — the box of a spec in a slot.

## Main statements

* `Limit.upright_place_apply` — a length that is placed in coordinates and again in pixels.
* `Context.pixels_child`, `placedRect_eq` — what a node that is not turned takes of its slot.
* `upright_boxIn_placedRect` — placed in what it takes of a space, a node takes all of it.
* `Context.upright_pixels_child` — a node drawn in a space that is derived from it.
-/

namespace SvgLayout

section

variable {α : Type} [Scalar α]

/-- A length in an interval: the free space is divided by `align`, and the sign of the length is
kept. -/
def Limit.place (slot : Limit α) (length align : α) : Limit α :=
  let room := slot.upright
  let middle := room.lo + align * (room.length - Scalar.abs length) + Scalar.abs length / 2.0
  ⟨middle - length / 2.0, middle + length / 2.0⟩

/-- The box of a spec that is not turned in a slot of pixels. -/
def Spec.boxIn (spec : Spec α) (slot : Rect α) : Rect α :=
  (standIn slot (embed slot.size spec.fixedAspect spec.expand) spec.align).toRect

/-- A box stands in its slot one axis at a time. -/
theorem toRect_standIn (slot : Rect α) (size : Size α) (align : Align α) :
    (standIn slot size align).toRect =
      .ofLimits (slot.xLimit.place size.w align.x) (slot.yLimit.place size.h align.y) :=
  rfl

end

/-! ## One axis -/

/-- An axis whose space has a length scales it to that of the pixels. -/
theorem AxisMap.between_of_length {coord : Limit ℝ} (nonzero : coord.length ≠ 0)
    (pixels : Limit ℝ) :
    between coord pixels = ⟨coord.lo, pixels.lo, pixels.length / coord.length⟩ := by
  simp [between, nonzero]

namespace Limit

variable {slot space : Limit ℝ} {length align fit : ℝ}

theorem length_upright (l : Limit ℝ) : l.upright.length = |l.length| := by
  rw [Limit.length, Limit.length, upright_lo, upright_hi, max_sub_min_eq_abs]

/-- Where a length lies in an interval. -/
theorem upright_place (slot : Limit ℝ) (length align : ℝ) :
    let start := slot.upright.lo + align * (slot.upright.length - |length|)
    (slot.place length align).upright = ⟨start, start + |length|⟩ := by
  intro start
  have ends : slot.place length align =
      ⟨start + |length| / 2 - length / 2, start + |length| / 2 + length / 2⟩ := by
    simp [place, start]
  rw [ends]
  rcases abs_cases length with ⟨magnitude, sign⟩ | ⟨magnitude, sign⟩
  · apply Limit.ext
    · rw [upright_lo, min_eq_left (by linarith), magnitude]
      ring
    · rw [upright_hi, max_eq_right (by linarith), magnitude]
      ring
  · apply Limit.ext
    · rw [upright_lo, min_eq_right (by linarith), magnitude]
      ring
    · rw [upright_hi, max_eq_left (by linarith), magnitude]
      ring

/-- A length that fills its interval is the interval, whatever the alignment. -/
theorem place_length (slot : Limit ℝ) (align : ℝ) : slot.place slot.length align = slot := by
  have room : slot.upright.length - |slot.length| = 0 := by
    rw [length_upright, sub_self]
  have middle : slot.upright.lo + |slot.length| / 2 = (slot.lo + slot.hi) / 2 := by
    rw [upright_lo, Limit.length]
    rcases le_total slot.lo slot.hi with h | h
    · rw [min_eq_left h, abs_of_nonneg (by linarith)]
      ring
    · rw [min_eq_right h, abs_of_nonpos (by linarith)]
      ring
  have ends : slot.place slot.length align =
      ⟨(slot.lo + slot.hi) / 2 - slot.length / 2, (slot.lo + slot.hi) / 2 + slot.length / 2⟩ := by
    simp [place, room, middle]
  rw [ends, Limit.length]
  apply Limit.ext
  · ring
  · ring

/-- Where it stands, a length is as long as it is. -/
theorem length_upright_place (slot : Limit ℝ) (length align : ℝ) :
    (slot.place length align).upright.length = |length| := by
  rw [upright_place, Limit.length]
  ring

/-- A length is placed in an interval, and the space that it takes is laid over pixels. Scaled like
the space and placed again in the pixels of the interval, it is as long as all pixels. It starts
where they start, unless the axis is reversed: there the two placements have counted the free space
from opposite ends. -/
theorem upright_place_apply (pixels : Limit ℝ) (taken : space = (slot.place length align).upright)
    (nonzero : space.length ≠ 0) (scaled : |fit| = |pixels.length / space.length| * |length|) :
    let room := slot.map (AxisMap.between space pixels).apply
    let drawn := (room.place fit align).upright
    drawn.length = pixels.upright.length ∧
      drawn.lo = pixels.upright.lo + if pixels.hi < pixels.lo then
        (2 * align - 1) * (room.upright.length - drawn.length) else 0 := by
  intro room drawn
  have extent : space.length = |length| := by
    rw [taken, length_upright_place]
  have positive : 0 < space.length := by
    rw [extent] at nonzero ⊢
    exact lt_of_le_of_ne (abs_nonneg length) nonzero.symm
  have axis := AxisMap.between_of_length nonzero pixels
  obtain ⟨scale, hscale⟩ : ∃ scale, scale = pixels.length / space.length := ⟨_, rfl⟩
  rw [← hscale] at axis scaled
  have all : pixels.length = scale * |length| := by
    rw [hscale, ← extent, div_mul_cancel₀ _ nonzero]
  have full : |fit| = |pixels.length| := by
    rw [scaled, all, abs_mul, abs_abs]
  have same : drawn.length = |pixels.length| := by
    rw [← full]
    exact room.length_upright_place fit align
  refine ⟨by rw [same, length_upright], ?_⟩
  -- The space starts behind the share of the free space that lies before the length.
  have start : space.lo = slot.upright.lo + align * (slot.upright.length - |length|) := by
    rw [taken, upright_place]
  have fitted : drawn = _ := upright_place room fit align
  rw [same, fitted, full]
  rcases lt_or_ge scale 0 with backward | forward
  · have anti : Antitone (AxisMap.between space pixels).apply :=
      AxisMap.antitone_apply _ (by rw [axis]; exact backward.le)
    have negative : pixels.length < 0 := by
      rw [all, ← extent]
      exact mul_neg_of_neg_of_pos backward positive
    have reversed : pixels.hi < pixels.lo := sub_neg.mp negative
    have stop : pixels.hi = pixels.lo + scale * |length| := by
      rw [← all, Limit.length]
      ring
    rw [if_pos reversed, upright_lo pixels, min_eq_right reversed.le,
      upright_map_of_antitone anti, stop, abs_of_neg negative, all]
    simp only [Limit.map, Limit.reverse, Limit.length, axis, AxisMap.apply, start]
    ring
  · have mono : Monotone (AxisMap.between space pixels).apply :=
      AxisMap.monotone_apply _ (by rw [axis]; exact forward)
    have nonneg : 0 ≤ pixels.length := by
      rw [all]
      exact mul_nonneg forward (abs_nonneg length)
    have kept : pixels.lo ≤ pixels.hi := sub_nonneg.mp nonneg
    rw [if_neg kept.not_gt, upright_lo pixels, min_eq_left kept, upright_map_of_monotone mono,
      abs_of_nonneg nonneg, all]
    simp only [Limit.map, Limit.length, axis, AxisMap.apply, start]
    ring

end Limit

/-! ## Fits -/

section

variable {α : Type} [Scalar α] {spec : Spec α}

/-- A node that is not rotated is fitted without regard to its angle. -/
theorem rotateFit_of_upright (upright : spec.isRotated = false) (size : Size α) (aspect : Option α)
    (tolerance : α) : rotateFit size spec.rotate aspect spec.expand spec.invar tolerance =
      embed size aspect spec.expand := by
  have fitted : (spec.invar || spec.rotate == 0.0) = true := by
    simpa [Spec.isRotated, Spec.isTurned, imp_iff_not_or, or_comm] using upright
  exact if_pos fitted

/-- What a node that is not rotated takes of its slot. -/
theorem Context.pixels_child (upright : spec.isRotated = false) (ctx : Context α) :
    (ctx.child spec).pixels = spec.boxIn (ctx.slot spec) := by
  rw [Spec.boxIn, ← rotateFit_of_upright upright _ _ ctx.tolerance]
  rfl

end

variable {spec : Spec ℝ}

/-- Fits into proportional sizes are proportional. -/
theorem abs_embed_of_scaled {size scaled : Size ℝ} {k : ℝ} (nonneg : 0 ≤ k)
    (w : |scaled.w| = k * |size.w|) (h : |scaled.h| = k * |size.h|) (aspect : Option ℝ)
    (expand : Bool) :
    |(embed scaled aspect expand).w| = k * |(embed size aspect expand).w| ∧
      |(embed scaled aspect expand).h| = k * |(embed size aspect expand).h| := by
  cases usable : usableAspect aspect with
  | none =>
    simp only [embed, usable]
    exact ⟨w, h⟩
  | some a =>
    have length : bindingLength expand (|scaled.w| / a) |scaled.h| =
        k * bindingLength expand (|size.w| / a) |size.h| := by
      rw [w, h, mul_div_assoc]
      cases expand
      · simp [bindingLength, mul_min_of_nonneg _ _ nonneg]
      · simp [bindingLength, mul_max_of_nonneg _ _ nonneg]
    simp only [embed, usable, signedLike, Scalar.abs_copySign, Scalar.abs_eq, length]
    constructor
    · rw [mul_assoc, abs_mul, abs_of_nonneg nonneg]
    · rw [abs_mul, abs_of_nonneg nonneg]

/-- A box of the ratio of a spec, or any box if it has none, is filled. -/
theorem Spec.boxIn_of_aspect {slot : Rect ℝ}
    (ratio : ∀ a ∈ spec.fixedAspect, 0 < a ∧ |slot.width| = a * |slot.height|) :
    spec.boxIn slot = slot := by
  have full : embed slot.size spec.fixedAspect spec.expand = slot.size := by
    cases aspect : spec.fixedAspect with
    | none => rfl
    | some a =>
      obtain ⟨positive, sized⟩ := ratio a aspect
      exact embed_of_aspect positive sized spec.expand
  have x : slot.xLimit.place slot.size.w spec.align.x = slot.xLimit := slot.xLimit.place_length _
  have y : slot.yLimit.place slot.size.h spec.align.y = slot.yLimit := slot.yLimit.place_length _
  rw [boxIn, full, toRect_standIn, x, y]
  rfl

/-- The box of a spec in a slot with extent has extent, and the ratio of the spec if it has one. -/
theorem Spec.boxIn_extent {slot : Rect ℝ} (width : slot.width ≠ 0) (height : slot.height ≠ 0)
    (positive : ∀ a ∈ spec.fixedAspect, 0 < a) :
    let box := (spec.boxIn slot).upright
    box.width ≠ 0 ∧ box.height ≠ 0 ∧ ∀ a ∈ spec.fixedAspect, |box.width| = a * |box.height| := by
  intro box
  have fit : (spec.boxIn slot).size = embed slot.size spec.fixedAspect spec.expand :=
    CenterBox.size_toRect _
  have w : box.width = |(embed slot.size spec.fixedAspect spec.expand).w| := by
    rw [← fit]
    exact (spec.boxIn slot).xLimit.length_upright
  have h : box.height = |(embed slot.size spec.fixedAspect spec.expand).h| := by
    rw [← fit]
    exact (spec.boxIn slot).yLimit.length_upright
  rw [w, h, abs_abs, abs_abs, abs_ne_zero, abs_ne_zero]
  cases aspect : spec.fixedAspect with
  | none => exact ⟨width, height, by simp⟩
  | some a =>
    have pos := positive a aspect
    obtain ⟨tall, keeps⟩ : (embed slot.size (some a) spec.expand).h ≠ 0 ∧ _ :=
      embed_keeps_aspect pos width height spec.expand
    refine ⟨?_, tall, by simpa using keeps⟩
    rw [← abs_ne_zero, keeps]
    exact mul_ne_zero pos.ne' (abs_ne_zero.mpr tall)

/-! ## Spaces -/

/-- An axis lays its space over all of its pixels. -/
theorem AxisMap.map_between (coord pixels : Limit ℝ) (nonzero : coord.length ≠ 0) :
    coord.map (between coord pixels).apply = pixels := by
  have stop : (coord.hi - coord.lo) * (pixels.length / coord.length) = pixels.length :=
    mul_div_cancel₀ _ nonzero
  rw [between_of_length nonzero]
  apply Limit.ext
  · simp only [Limit.map, apply, sub_self, zero_mul, add_zero]
  · simp only [Limit.map, apply, stop]
    rw [Limit.length]
    ring

/-- The space of a context covers its pixels. -/
theorem Context.mapRect_coord {ctx : Context ℝ} (width : ctx.coord.width ≠ 0)
    (height : ctx.coord.height ≠ 0) : ctx.mapRect ctx.coord = ctx.pixels := by
  have x := AxisMap.map_between ctx.coord.xLimit ctx.pixels.xLimit width
  have y := AxisMap.map_between ctx.coord.yLimit ctx.pixels.yLimit height
  exact Rect.ext (congrArg Limit.lo x) (congrArg Limit.lo y) (congrArg Limit.hi x)
    (congrArg Limit.hi y)

/-- An axis whose pixels are its coordinates changes nothing. -/
theorem AxisMap.between_self (space : Limit ℝ) (nonzero : space.length ≠ 0) :
    between space space = ⟨space.lo, space.lo, 1⟩ := by
  rw [between_of_length nonzero, div_self nonzero]

theorem Rect.upright_upright (r : Rect ℝ) : r.upright.upright = r.upright :=
  (Rect.hugs_singleton r).upright

/-- A spec that is not turned is placed in a space as in pixels. -/
theorem placedRect_eq (upright : spec.isRotated = false) {space : Rect ℝ}
    (width : space.width ≠ 0) (height : space.height ≠ 0) :
    placedRect spec space = spec.boxIn (spec.rect.getD space) := by
  have x : (Context.new space space).xMap = ⟨space.x1, space.x1, 1⟩ :=
    AxisMap.between_self space.xLimit width
  have y : (Context.new space space).yMap = ⟨space.y1, space.y1, 1⟩ :=
    AxisMap.between_self space.yLimit height
  have map : ∀ r, (Context.new space space).mapRect r = r := by
    intro r
    simp [Context.mapRect, x, y, AxisMap.apply]
  have unmap : ∀ r, (Context.new space space).unmapRect r = r := by
    intro r
    simp [Context.unmapRect, Context.unmapPoint, x, y, AxisMap.invert, Rect.ofPoints, Rect.p1,
      Rect.p2]
  rw [placedRect, unmap, Context.pixels_child upright, Context.slot, map]
  rfl

/-- What a spec takes of a space with extent has extent, and placed in that it takes all of it. -/
theorem upright_boxIn_placedRect (upright : spec.isRotated = false) {space : Rect ℝ}
    (width : space.width ≠ 0) (height : space.height ≠ 0)
    (rect : ∀ r ∈ spec.rect, r.width ≠ 0 ∧ r.height ≠ 0)
    (positive : ∀ a ∈ spec.fixedAspect, 0 < a) :
    let taken := (placedRect spec space).upright
    taken.width ≠ 0 ∧ taken.height ≠ 0 ∧ (spec.boxIn (spec.rect.getD taken)).upright = taken := by
  intro taken
  have extents : (spec.rect.getD space).width ≠ 0 ∧ (spec.rect.getD space).height ≠ 0 := by
    cases given : spec.rect with
    | none => exact ⟨width, height⟩
    | some r => exact rect r given
  obtain ⟨w, h, ratio⟩ := spec.boxIn_extent extents.1 extents.2 positive
  have placed : taken = (spec.boxIn (spec.rect.getD space)).upright :=
    congrArg Rect.upright (placedRect_eq upright width height)
  rw [← placed] at w h ratio
  refine ⟨w, h, ?_⟩
  cases given : spec.rect with
  | none =>
    rw [Option.getD_none, spec.boxIn_of_aspect fun a ha => ⟨positive a ha, ratio a ha⟩]
    exact Rect.upright_upright _
  | some r => rw [placed, given, Option.getD_some, Option.getD_some]

/-! ## A space that is derived from its only child -/

/-- A node that is drawn in the space that it takes of a rectangle, by a context that scales both
axes alike, is as large as all pixels. It lies where they lie on each axis that is not reversed, and
is moved on others by a share of the free space. -/
theorem Context.upright_pixels_child {ctx : Context ℝ} {slot : Rect ℝ}
    (upright : spec.isRotated = false) (placed : ctx.slot spec = ctx.mapRect slot)
    (space : ctx.coord = (spec.boxIn slot).upright) (width : ctx.coord.width ≠ 0)
    (height : ctx.coord.height ≠ 0)
    (alike : |ctx.pixels.width / ctx.coord.width| = |ctx.pixels.height / ctx.coord.height|) :
    let room := (ctx.slot spec).upright
    let own := ctx.pixels.upright
    let drawn := (ctx.child spec).pixels.upright
    drawn.size = own.size ∧
      (drawn.x1 = own.x1 + if ctx.pixels.isFlippedX then
        (2 * spec.align.x - 1) * (room.width - drawn.width) else 0) ∧
      drawn.y1 = own.y1 + if ctx.pixels.isFlippedY then
        (2 * spec.align.y - 1) * (room.height - drawn.height) else 0 := by
  obtain ⟨fit, hfit⟩ : ∃ fit, fit = embed slot.size spec.fixedAspect spec.expand := ⟨_, rfl⟩
  obtain ⟨fit', hfit'⟩ :
    ∃ fit', fit' = embed (ctx.mapRect slot).size spec.fixedAspect spec.expand := ⟨_, rfl⟩
  have box : (ctx.child spec).pixels = (standIn (ctx.mapRect slot) fit' spec.align).toRect := by
    rw [Context.pixels_child upright, placed, hfit', Spec.boxIn]
  have xTaken : ctx.coord.xLimit = (slot.xLimit.place fit.w spec.align.x).upright := by
    rw [space, hfit]
    rfl
  have yTaken : ctx.coord.yLimit = (slot.yLimit.place fit.h spec.align.y).upright := by
    rw [space, hfit]
    rfl
  obtain ⟨scaledW, scaledH⟩ : |fit'.w| = |ctx.pixels.width / ctx.coord.width| * |fit.w| ∧
      |fit'.h| = |ctx.pixels.width / ctx.coord.width| * |fit.h| := by
    rw [hfit, hfit']
    apply abs_embed_of_scaled (abs_nonneg _)
    · rw [ctx.size_mapRect, mapSize, xMap_scale width, abs_mul, mul_comm]
    · rw [ctx.size_mapRect, mapSize, yMap_scale height, alike, abs_mul, mul_comm]
  obtain ⟨sameW, x⟩ := Limit.upright_place_apply ctx.pixels.xLimit xTaken width scaledW
  obtain ⟨sameH, y⟩ := Limit.upright_place_apply ctx.pixels.yLimit yTaken height (alike ▸ scaledH)
  rw [placed, box]
  refine ⟨Size.ext sameW sameH, ?_, ?_⟩
  · simp only [Rect.isFlippedX, decide_eq_true_eq]
    exact x
  · simp only [Rect.isFlippedY, decide_eq_true_eq]
    exact y

end SvgLayout
