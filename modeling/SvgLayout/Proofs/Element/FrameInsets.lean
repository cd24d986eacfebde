import SvgLayout.Proofs.Context.Placing
import SvgLayout.Proofs.Element.Snug

/-!
# The insets of a frame

Padding and margin are given in widths of the child and scaled to the heights of the child on the
vertical axis. The space of a frame is then laid over pixels of the ratio of the whole frame, which
scales the two axes differently again. Both together leave gaps in pixels that are equally wide on
all four sides.

## Main definitions

* `Limit.Surrounds`, `Rect.Surrounds` — one rectangle around another, with the same gap everywhere.

## Main statements

* `Context.surrounds_inset` — insets of a child whose axes are scaled in its ratio.
* `Frame.contextIn_backdrop` — where a frame draws its outline and its background.
* `Frame.gaps_are_uniform` — the gaps around the child, the outline and the whole frame.
-/

namespace SvgLayout

/-! ## One axis -/

/-- An interval reaches a gap further than another one on both ends. -/
structure Limit.Surrounds (outer inner : Limit ℝ) (gap : ℝ) : Prop where
  middle : outer.middle = inner.middle
  before : outer.upright.lo = inner.upright.lo - gap
  after : outer.upright.hi = inner.upright.hi + gap

/-- The unit interval, grown on both ends. -/
def Limit.grown (amount : ℝ) : Limit ℝ :=
  ⟨-amount, 1 + amount⟩

/-- In pixels it reaches as far from its middle on one end as on the other. -/
theorem AxisMap.upright_map_grown (axis : AxisMap ℝ) {amount : ℝ} (nonneg : 0 ≤ amount) :
    ((Limit.grown amount).map axis.apply).upright =
      ⟨axis.apply (1 / 2) - (1 / 2 + amount) * |axis.scale|,
        axis.apply (1 / 2) + (1 / 2 + amount) * |axis.scale|⟩ := by
  have kept : (Limit.grown amount).upright = Limit.grown amount := by
    apply Limit.upright_of_le
    simp only [Limit.grown]
    linarith
  rcases le_total 0 axis.scale with forward | backward
  · rw [Limit.upright_map_of_monotone (axis.monotone_apply forward), kept, abs_of_nonneg forward]
    simp only [Limit.map, Limit.grown, apply]
    apply Limit.ext
    · ring
    · ring
  · rw [Limit.upright_map_of_antitone (axis.antitone_apply backward), kept,
      abs_of_nonpos backward]
    simp only [Limit.map, Limit.reverse, Limit.grown, apply]
    apply Limit.ext
    · ring
    · ring

/-- Of two such intervals the one that is grown more surrounds the other. -/
theorem AxisMap.surrounds_grown (axis : AxisMap ℝ) {less more : ℝ} (nonneg : 0 ≤ less)
    (h : less ≤ more) :
    ((Limit.grown more).map axis.apply).Surrounds ((Limit.grown less).map axis.apply)
      ((more - less) * |axis.scale|) := by
  constructor
  · simp only [Limit.middle, Limit.map, Limit.grown, apply, Scalar.literal_two]
    ring
  · rw [axis.upright_map_grown nonneg, axis.upright_map_grown (nonneg.trans h)]
    ring
  · rw [axis.upright_map_grown nonneg, axis.upright_map_grown (nonneg.trans h)]
    ring

/-! ## Rectangles -/

/-- A rectangle reaches the same gap further than another one on all four sides. -/
structure Rect.Surrounds (outer inner : Rect ℝ) (gap : ℝ) : Prop where
  x : outer.xLimit.Surrounds inner.xLimit gap
  y : outer.yLimit.Surrounds inner.yLimit gap

section

variable {aspect : ℝ}

theorem xLimit_inset (amount aspect : ℝ) :
    (inset amount (some aspect)).xLimit = .grown amount := by
  simp [inset, insetSize, Rect.xLimit, Limit.grown]

theorem yLimit_inset (amount aspect : ℝ) :
    (inset amount (some aspect)).yLimit = .grown (amount * aspect) := by
  simp [inset, insetSize, Rect.yLimit, Limit.grown]

theorem inset_zero (aspect : ℝ) : inset 0 (some aspect) = .unit := by
  simp [inset, insetSize, Rect.unit]

variable {ctx : Context ℝ}

/-- If the unit square has the ratio of the insets in pixels, an inset that is larger is surrounded
by the same gap on all sides. -/
theorem Context.surrounds_inset (positive : 0 < aspect)
    (unit : (ctx.mapRect .unit).HasAspect aspect) {less more : ℝ} (nonneg : 0 ≤ less)
    (h : less ≤ more) :
    (ctx.mapRect (inset more (some aspect))).Surrounds (ctx.mapRect (inset less (some aspect)))
      ((more - less) * |(ctx.mapRect .unit).width|) := by
  have size : (ctx.mapRect .unit).size = ⟨ctx.xMap.scale, ctx.yMap.scale⟩ := by
    rw [ctx.size_mapRect]
    simp [Context.mapSize, Rect.size, Rect.unit, Rect.width, Rect.height]
  have width : (ctx.mapRect .unit).width = ctx.xMap.scale := congrArg Size.w size
  have height : (ctx.mapRect .unit).height = ctx.yMap.scale := congrArg Size.h size
  have x : ∀ amount, (ctx.mapRect (inset amount (some aspect))).xLimit =
      (Limit.grown amount).map ctx.xMap.apply := by
    intro amount
    rw [← xLimit_inset amount aspect]
    rfl
  have y : ∀ amount, (ctx.mapRect (inset amount (some aspect))).yLimit =
      (Limit.grown (amount * aspect)).map ctx.yMap.apply := by
    intro amount
    rw [← yLimit_inset amount aspect]
    rfl
  have vertical : (more - less) * |(ctx.mapRect .unit).width| =
      (more * aspect - less * aspect) * |ctx.yMap.scale| := by
    rw [unit.width, height]
    ring
  constructor
  · rw [x, x, width]
    exact ctx.xMap.surrounds_grown nonneg h
  · rw [y, y, vertical]
    exact ctx.yMap.surrounds_grown (by positivity) (by gcongr)

end

/-! ## Frames -/

section

variable {spec : Spec ℝ} {frame : Frame ℝ (Element ℝ)}

/-- A node that is only placed in a rectangle takes all of it. -/
theorem Context.pixels_child_ofRect (ctx : Context ℝ) (rect : Rect ℝ) :
    (ctx.child (.ofRect rect)).pixels = ctx.mapRect rect := by
  rw [Context.pixels_child (by simp [Spec.ofRect, Spec.plain, Spec.isRotated, Spec.isTurned]),
    Spec.boxIn_of_aspect (by simp [Spec.ofRect, Spec.plain, Spec.fixedAspect])]
  rfl

/-- The outline and the background of a frame, if it has any, are drawn in the rectangle around its
padding. -/
theorem Frame.contextIn_backdrop {aspect : Option ℝ}
    (planned : frame.child.layoutAspect = .ok aspect) (ctx : Context ℝ) :
    ∃ back, (frame.map Element.drawable).backdrop = .ok back ∧
      (back = [] ↔ frame.border = none ∧ frame.fill = none) ∧
      ∀ part ∈ back, ∃ own, part.contextIn ctx = .ok own ∧
        own.pixels = ctx.mapRect (frame.borderRect aspect) := by
  have measured : (frame.map Element.drawable).child.element.layoutAspect = .ok aspect := planned
  have bare : ((frame.map Element.drawable).border.isNone &&
      (frame.map Element.drawable).fill.isNone) = true ↔
        frame.border = none ∧ frame.fill = none := by
    simp [Frame.map]
  rw [Frame.backdrop, ← bare]
  by_cases bare : ((frame.map Element.drawable).border.isNone &&
      (frame.map Element.drawable).fill.isNone) = true
  · rw [if_pos bare]
    exact ⟨[], rfl, by simp [bare], by simp⟩
  · rw [if_neg bare, measured]
    refine ⟨_, rfl, by simp [bare], ?_⟩
    intro part hpart
    rw [List.mem_singleton.mp hpart]
    exact ⟨_, rfl, ctx.pixels_child_ofRect _⟩

/-- The pixels of a resolved frame have its ratio, whatever its rotation. -/
theorem Context.hasAspect_pixels_child {parent : Context ℝ} {ratio : ℝ} (positive : 0 < ratio)
    (coord : Option (Rect ℝ)) (width : (parent.slot spec).width ≠ 0)
    (height : (parent.slot spec).height ≠ 0) :
    (parent.child (spec.resolve ⟨some ratio, coord⟩)).pixels.HasAspect ratio := by
  have size : (parent.child (spec.resolve ⟨some ratio, coord⟩)).pixels.size =
      rotateFit (parent.slot spec).size spec.rotate (some ratio) spec.expand spec.invar
        parent.tolerance := parent.size_pixels_child _
  have high := rotateFit_h_ne_zero positive (parent.slot spec).size width height
    spec.rotate spec.expand spec.invar parent.tolerance
  have keeps := abs_rotateFit positive (parent.slot spec).size spec.rotate spec.expand spec.invar
    parent.tolerance
  rw [← size] at high keeps
  exact ⟨high, keeps⟩

/-- In the context in which a frame is drawn, its child, its outline and the whole frame lie around
the same point. The slot of the child has the ratio of the child, whose width is the unit of padding
and margin: the gap between it and the outline, and that between the outline and the edge of the
frame, is the same on all four sides. Whatever the frame draws behind its child is drawn in the
rectangle of the outline. -/
theorem Frame.gaps_are_uniform (style : Style ℝ) {aspect : ℝ} (free : spec.fixedAspect = none)
    (auto : spec.hasAutoCoord = true) (padding : 0 ≤ frame.padding) (margin : 0 ≤ frame.margin)
    (planned : frame.child.layoutAspect = .ok (some aspect)) (positive : 0 < aspect)
    {parent : Context ℝ} (width : (parent.slot spec).width ≠ 0)
    (height : (parent.slot spec).height ≠ 0) :
    ∃ ctx back,
      (Element.mk spec style (.frame frame)).drawable.contextIn parent = .ok ctx ∧
      (frame.map Element.drawable).parts =
        .ok (back ++ [(frame.child.withRect .unit).drawable]) ∧
      let inner := ctx.slot (frame.child.withRect .unit).spec
      let border := ctx.mapRect (frame.borderRect (some aspect))
      inner.HasAspect aspect ∧
      border.Surrounds inner (frame.padding * |inner.width|) ∧
      ctx.pixels.Surrounds border (frame.margin * |inner.width|) ∧
      (back = [] ↔ frame.border = none ∧ frame.fill = none) ∧
      ∀ part ∈ back, ∃ own, part.contextIn ctx = .ok own ∧ own.pixels = border := by
  have layout : (Element.mk spec style (.frame frame)).autoLayout = _ :=
    (Frame.measures free planned).2
  have resolved := Element.resolvedSpec_of_autoLayout layout
  obtain ⟨ctx, hctx⟩ : ∃ ctx, ctx = parent.child (spec.resolve
    ⟨some (frame.aspectAround aspect), some (frame.outerRect (some aspect))⟩) := ⟨_, rfl⟩
  have pixels : ctx.pixels.HasAspect (frame.aspectAround aspect) := by
    rw [hctx]
    exact Context.hasAspect_pixels_child (Frame.aspectAround_pos padding margin positive) _ width
      height
  have coord : ctx.coord = frame.outerRect (some aspect) := by
    simp [hctx, Context.child, Spec.resolve, auto, Spec.coordRect]
  have outer : ctx.mapRect (frame.outerRect (some aspect)) = ctx.pixels := by
    have wide := Frame.width_outerRect_pos padding margin aspect
    have high := Frame.height_outerRect_pos padding margin positive
    rw [← coord] at wide high ⊢
    exact Context.mapRect_coord wide.ne' high.ne'
  have seat := Frame.hasAspect_seat padding margin positive coord pixels
  obtain ⟨back, drawn, outlined⟩ := Frame.contextIn_backdrop planned ctx
  refine ⟨ctx, back, ?_, ?_, seat, ?_, ?_, outlined⟩
  · rw [Drawable.contextIn, hctx]
    exact congrArg (parent.child <$> ·) resolved
  · have child : frame.child.drawable.mapSpec (·.withRect .unit) =
        (frame.child.withRect .unit).drawable := frame.child.drawable_mapSpec rfl
    rw [Frame.parts, drawn, ← child]
    rfl
  · have gap := Context.surrounds_inset positive seat le_rfl padding
    rwa [inset_zero, sub_zero] at gap
  · have gap := Context.surrounds_inset positive seat padding (le_add_of_nonneg_right margin)
    rw [add_sub_cancel_left] at gap
    rw [← outer]
    exact gap

end

/-! ## A medallion -/

noncomputable section

/-- A tilted ellipse twice as wide as high. -/
def tiltedEllipse : Element ℝ :=
  ⟨{ Spec.ofAspect 2.0 with rotate := 30.0 }, .empty, .primitive .ellipse⟩

/-- A frame around it, on a background. -/
def medallion : Frame ℝ (Element ℝ) :=
  ⟨tiltedEllipse, 0.125, 0.25, none, some (.named "gold")⟩

/-- The frame covers its slot and is tilted as well. -/
def medallionSpec : Spec ℝ :=
  { Spec.plain with coord := some .auto, rotate := -15.0, expand := true }

/-- A canvas whose vertical axis runs up. -/
def upwards : Context ℝ :=
  .new ⟨0.0, 100.0, 300.0, 0.0⟩ .unit

end

theorem size_slot_upwards : (upwards.slot medallionSpec).size = ⟨300, -100⟩ := by
  have width : upwards.coord.width ≠ 0 := by
    simp [upwards, Context.new, Rect.unit, Rect.width]
  have height : upwards.coord.height ≠ 0 := by
    simp [upwards, Context.new, Rect.unit, Rect.height]
  have slot : upwards.slot medallionSpec = upwards.pixels := Context.mapRect_coord width height
  rw [slot]
  norm_num [upwards, Context.new, Rect.size, Rect.width, Rect.height, Scalar.ofScientific_eq]

/-- The gaps of the medallion are uniform although its axes are scaled differently and one of them
is reversed. -/
theorem Frame.gaps_are_uniform_medallion :
    ∃ aspect ctx,
      (medallionSpec.fixedAspect = none ∧ medallionSpec.hasAutoCoord = true ∧
        0 ≤ medallion.padding ∧ 0 ≤ medallion.margin ∧
        medallion.child.layoutAspect = .ok (some aspect) ∧ 0 < aspect ∧
        (upwards.slot medallionSpec).width ≠ 0 ∧ (upwards.slot medallionSpec).height ≠ 0) ∧
      (Element.mk medallionSpec .empty (.frame medallion)).drawable.contextIn upwards = .ok ctx ∧
      let inner := ctx.slot (medallion.child.withRect .unit).spec
      let border := ctx.mapRect (medallion.borderRect (some aspect))
      border.Surrounds inner (0.125 * |inner.width|) ∧
      ctx.pixels.Surrounds border (0.25 * |inner.width|) := by
  have padding : 0 ≤ medallion.padding := by
    norm_num [medallion, Scalar.ofScientific_eq]
  have margin : 0 ≤ medallion.margin := by
    norm_num [medallion, Scalar.ofScientific_eq]
  have measured : tiltedEllipse.aspect = .ok (some 2.0) := by
    rw [Element.aspect, Element.measured_eq]
    rfl
  have planned : medallion.child.layoutAspect = .ok (some (tiltedEllipse.spec.plannedAspect 2.0)) :=
    Element.layoutAspect_of_aspect measured
  have two : (0 : ℝ) < 2.0 := by
    norm_num
  have positive := plannedAspect_pos two tiltedEllipse.spec
  have width : (upwards.slot medallionSpec).width = 300 := congrArg Size.w size_slot_upwards
  have height : (upwards.slot medallionSpec).height = -100 := congrArg Size.h size_slot_upwards
  have wide : (upwards.slot medallionSpec).width ≠ 0 := by
    rw [width]
    norm_num
  have high : (upwards.slot medallionSpec).height ≠ 0 := by
    rw [height]
    norm_num
  obtain ⟨ctx, back, drawn, -, -, inner, outer, -⟩ :=
    Frame.gaps_are_uniform .empty rfl rfl padding margin planned positive wide high
  exact ⟨_, ctx, ⟨rfl, rfl, padding, margin, planned, positive, wide, high⟩, drawn, inner, outer⟩

end SvgLayout
