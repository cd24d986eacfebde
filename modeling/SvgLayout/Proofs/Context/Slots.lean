import SvgLayout.Proofs.Geometry.FullFit

/-!
# Slots without dead space

How the ratio of a slot passes down a tree: from the slot of a node to its pixels, and from there to
the slots of its children.

## Main statements

* `Context.child_of_hasAspect` — in a slot of its planned ratio a node takes all of the slot and has
  its own ratio.
* `Context.hasAspect_mapRect` — the ratio of the pixels of a rectangle.
-/

namespace SvgLayout

/-! ## From a slot to pixels -/

@[simp] theorem CenterBox.size_toRect (b : CenterBox ℝ) : b.toRect.size = b.size := by
  have width : b.toRect.width = b.size.w := by
    simp only [CenterBox.toRect, Rect.width, Scalar.literal_two]
    ring
  have height : b.toRect.height = b.size.h := by
    simp only [CenterBox.toRect, Rect.height, Scalar.literal_two]
    ring
  exact Size.ext width height

/-- The pixels of a child are as large as what is fitted into its slot. -/
theorem Context.size_pixels_child (ctx : Context ℝ) (spec : Spec ℝ) :
    (ctx.child spec).pixels.size =
      rotateFit (ctx.slot spec).size spec.rotate spec.fixedAspect spec.expand spec.invar
        ctx.tolerance :=
  (ctx.box spec).size_toRect

/-- In a slot of its planned ratio a node has its own ratio and takes all of the slot. -/
theorem Context.child_of_hasAspect {ctx : Context ℝ} {spec : Spec ℝ} {aspect : ℝ}
    (positive : 0 < aspect) (fixed : spec.fixedAspect = some aspect)
    (slot : (ctx.slot spec).HasAspect (spec.plannedAspect aspect)) :
    (ctx.child spec).pixels.HasAspect aspect ∧
      spec.footprint (ctx.child spec).pixels.size = (ctx.slot spec).size.abs := by
  have sized : |(ctx.slot spec).size.w| =
      spec.plannedAspect aspect * |(ctx.slot spec).size.h| := slot.width
  obtain ⟨width, height, full⟩ := footprint_rotateFit positive sized ctx.tolerance
  rw [← fixed, ← Context.size_pixels_child] at width height full
  exact ⟨⟨height slot.height, width⟩, full⟩

/-! ## From pixels to slots -/

theorem AxisMap.scale_between {coord pixels : Limit ℝ} (nonzero : coord.length ≠ 0) :
    (AxisMap.between coord pixels).scale = pixels.length / coord.length := by
  simp [AxisMap.between, nonzero]

theorem Context.xMap_scale {ctx : Context ℝ} (nonzero : ctx.coord.width ≠ 0) :
    ctx.xMap.scale = ctx.pixels.width / ctx.coord.width :=
  AxisMap.scale_between nonzero

theorem Context.yMap_scale {ctx : Context ℝ} (nonzero : ctx.coord.height ≠ 0) :
    ctx.yMap.scale = ctx.pixels.height / ctx.coord.height :=
  AxisMap.scale_between nonzero

theorem AxisMap.apply_sub_apply (m : AxisMap ℝ) (a b : ℝ) :
    m.apply a - m.apply b = (a - b) * m.scale := by
  simp only [AxisMap.apply]
  ring

/-- The pixels of a rectangle are as large as its extents. -/
theorem Context.size_mapRect (ctx : Context ℝ) (r : Rect ℝ) :
    (ctx.mapRect r).size = ctx.mapSize r.size := by
  apply Size.ext
  · exact ctx.xMap.apply_sub_apply r.x2 r.x1
  · exact ctx.yMap.apply_sub_apply r.y2 r.y1

/-- The ratio of the pixels of a rectangle follows from that of all pixels and from the parts of the
space that the rectangle takes on both axes. -/
theorem Context.hasAspect_mapRect {ctx : Context ℝ} {r : Rect ℝ} {aspect aspect' : ℝ}
    (pixels : ctx.pixels.HasAspect aspect) (width : ctx.coord.width ≠ 0)
    (height : ctx.coord.height ≠ 0) (tall : r.height ≠ 0)
    (parts : aspect' * (|r.height| / |ctx.coord.height|) =
      aspect * (|r.width| / |ctx.coord.width|)) :
    (ctx.mapRect r).HasAspect aspect' := by
  have w : (ctx.mapRect r).width = r.width * (ctx.pixels.width / ctx.coord.width) := by
    rw [← Context.xMap_scale width]
    exact congrArg Size.w (ctx.size_mapRect r)
  have h : (ctx.mapRect r).height = r.height * (ctx.pixels.height / ctx.coord.height) := by
    rw [← Context.yMap_scale height]
    exact congrArg Size.h (ctx.size_mapRect r)
  constructor
  · rw [h]
    exact mul_ne_zero tall (div_ne_zero pixels.height height)
  · rw [w, h, abs_mul, abs_mul, abs_div, abs_div, pixels.width]
    linear_combination -|ctx.pixels.height| * parts

end SvgLayout
