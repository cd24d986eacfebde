import SvgLayout.Proofs.Context.Composition
import SvgLayout.Proofs.Context.UprightChild
import SvgLayout.Proofs.Element.FrameInsets

/-!
# Where a node lands

The map of a context that extends on both axes has an inverse. So the rectangle in which a node says
that it lands, in the coordinates of its parent, covers exactly the pixels that the node is drawn
on, and anything that is placed there covers them as well. On an axis that is empty, in its space or
in its pixels, there is no inverse, and one coordinate stands for all pixels.

## Main definitions

* `AxisMap.IsInvertible`, `Context.IsInvertible` — maps to pixels and back undo each other.
* `AxisMap.Collapses` — what becomes of an axis that is empty.
* `Element.LandsIn` — a rectangle tells where a node is drawn.

## Main statements

* `Context.isInvertible_of_spacious` — contexts that extend on both axes are invertible.
* `Element.landsIn_unmapRect` — a node in an invertible context tells where it is drawn.
* `Context.maps_are_inverse` — both together, and what happens on an empty axis.
-/

namespace SvgLayout

/-! ## One axis -/

namespace AxisMap

/-- The maps to pixels and back undo each other. -/
structure IsInvertible {α : Type} [Scalar α] (m : AxisMap α) : Prop where
  invert_apply : ∀ c, m.invert (m.apply c) = c
  apply_invert : ∀ p, m.apply (m.invert p) = p

/-- What becomes of coordinates and pixels where the space or the pixels of an axis are empty. An
empty space is drawn in the middle of the pixels, and all of them have its only coordinate; if the
pixels alone are empty, they have the first coordinate. -/
structure Collapses (m : AxisMap ℝ) (coord pixels : Limit ℝ) : Prop where
  middle : coord.length = 0 → ∀ c, m.apply c = pixels.middle
  single : coord.length = 0 → coord.lo = coord.hi ∧ ∀ p, m.invert p = coord.lo
  start : coord.length ≠ 0 → pixels.length = 0 → ∀ p, m.invert p = coord.lo

/-- A map between intervals that are not empty is invertible. -/
theorem isInvertible_between {coord pixels : Limit ℝ} (space : coord.length ≠ 0)
    (extent : pixels.length ≠ 0) : (between coord pixels).IsInvertible where
  invert_apply c := by
    have scale : pixels.length / coord.length ≠ 0 := div_ne_zero extent space
    rw [between_of_length space, invert, apply, Scalar.literal_zero, Scalar.beq_eq,
      decide_eq_false scale]
    simp [mul_div_cancel_right₀ _ scale]
  apply_invert := apply_invert_between space extent

theorem collapses_between (coord pixels : Limit ℝ) :
    (between coord pixels).Collapses coord pixels := by
  constructor
  · intro empty c
    simp [between, empty, apply]
  · intro empty
    refine ⟨(sub_eq_zero.mp empty).symm, fun p => ?_⟩
    simp [between, empty, invert]
  · intro space empty p
    simp [between, space, empty, invert]

end AxisMap

namespace Extended

/-- A real map that is not constant brings back every coordinate, the infinite ones as well. -/
theorem invert_apply {m : AxisMap Extended} {c p s : ℝ} (h : m = ⟨real c, real p, real s⟩)
    (scale : s ≠ 0) (a : Extended) : m.invert (m.apply a) = a := by
  have invert (q : Extended) : m.invert q = real c + (q - real p) / real s := by
    simp [AxisMap.invert, h, scale]
  rw [invert, h, AxisMap.apply]
  cases a with
  | nan => rfl
  | infinite negative =>
    have product : (infinite negative - real c) * real s =
        if s = 0 then nan else infinite (negative != decide (s < 0)) := rfl
    rw [product, if_neg scale]
    have back : real c + (real p + infinite (negative != decide (s < 0)) - real p) / real s =
        infinite ((negative != decide (s < 0)) != decide (s < 0)) := rfl
    rw [back, Bool.bne_assoc, bne_self_eq_false, Bool.bne_false]
  | real x =>
    have value : c + (p + (x - c) * s - p) / s = x := by
      field_simp
      ring
    simpa [real_div scale] using value

theorem isInvertible_between {lo hi start stop : ℝ} (space : hi - lo ≠ 0)
    (extent : stop - start ≠ 0) :
    (AxisMap.between ⟨real lo, real hi⟩ ⟨real start, real stop⟩).IsInvertible where
  invert_apply := by
    apply invert_apply (c := lo) (p := start) (s := (stop - start) / (hi - lo))
    · simp [AxisMap.between, Limit.length, space, real_div]
    · exact div_ne_zero extent space
  apply_invert := apply_invert_between space extent

end Extended

/-! ## Contexts -/

namespace Context

/-- The maps of rectangles to pixels and back undo each other. -/
structure IsInvertible {α : Type} [Scalar α] (ctx : Context α) : Prop where
  unmapRect_mapRect : ∀ r, ctx.unmapRect (ctx.mapRect r) = r
  mapRect_unmapRect : ∀ q, ctx.mapRect (ctx.unmapRect q) = q

/-- A context is invertible if both of its axes are. -/
theorem isInvertible_of_axes {α : Type} [Scalar α] {ctx : Context α} (x : ctx.xMap.IsInvertible)
    (y : ctx.yMap.IsInvertible) : ctx.IsInvertible where
  unmapRect_mapRect r :=
    Rect.ext (x.invert_apply r.x1) (y.invert_apply r.y1) (x.invert_apply r.x2)
      (y.invert_apply r.y2)
  mapRect_unmapRect := mapRect_unmapRect x.apply_invert y.apply_invert

/-- A context that extends on both axes is invertible. -/
theorem isInvertible_of_spacious {ctx : Context ℝ} (h : ctx.Spacious) : ctx.IsInvertible := by
  have spaceX : ctx.coord.width ≠ 0 := by simpa using h.coordWidth
  have spaceY : ctx.coord.height ≠ 0 := by simpa using h.coordHeight
  have extentX : ctx.pixels.width ≠ 0 := by simpa using h.pixelWidth
  have extentY : ctx.pixels.height ≠ 0 := by simpa using h.pixelHeight
  exact isInvertible_of_axes (AxisMap.isInvertible_between spaceX extentX)
    (AxisMap.isInvertible_between spaceY extentY)

/-- So it is if a quotient by zero is an infinity or no number. -/
theorem isInvertible_of_finite {ctx : Context Extended} (pixels : ctx.pixels.isFinite = true)
    (coord : ctx.coord.isFinite = true) (h : ctx.Spacious) : ctx.IsInvertible := by
  obtain ⟨px1, py1, px2, py2, hp⟩ := Extended.isFinite_rect pixels
  obtain ⟨cx1, cy1, cx2, cy2, hc⟩ := Extended.isFinite_rect coord
  apply isInvertible_of_axes
  · rw [xMap, Rect.xLimit, Rect.xLimit, hp, hc]
    exact Extended.isInvertible_between (by simpa [hc, Rect.width] using h.coordWidth)
      (by simpa [hp, Rect.width] using h.pixelWidth)
  · rw [yMap, Rect.yLimit, Rect.yLimit, hp, hc]
    exact Extended.isInvertible_between (by simpa [hc, Rect.height] using h.coordHeight)
      (by simpa [hp, Rect.height] using h.pixelHeight)

end Context

/-! ## Placed in a rectangle only -/

namespace Extended

/-- A length that fills its interval is the interval. -/
theorem place_length (lo hi align : ℝ) :
    (Limit.mk (real lo) (real hi)).place (real (hi - lo)) (real align) = ⟨real lo, real hi⟩ := by
  have full := Limit.place_length ⟨lo, hi⟩ align
  simp only [Limit.place, Limit.upright, Limit.length, Limit.mk.injEq, Scalar.min_eq,
    Scalar.max_eq, Scalar.abs_eq, Scalar.literal_two] at full
  simp [Limit.place, Limit.upright, Limit.length, real_div, full]

/-- A node that is only placed in a rectangle takes all of it. -/
theorem pixels_child_ofRect {ctx : Context Extended} {rect : Rect Extended} {pixels : Rect ℝ}
    (slot : ctx.mapRect rect = realRect pixels) :
    (ctx.child (.ofRect rect)).pixels = realRect pixels := by
  have upright : (Spec.ofRect rect).isRotated = false := by
    simp [Spec.ofRect, Spec.plain, Spec.isRotated, Spec.isTurned]
  have own : ctx.slot (.ofRect rect) = realRect pixels := slot
  have all : embed (realRect pixels).size (Spec.ofRect rect).fixedAspect (Spec.ofRect rect).expand =
      ⟨real (pixels.x2 - pixels.x1), real (pixels.y2 - pixels.y1)⟩ := by
    have size : embed (realRect pixels).size none false = (realRect pixels).size := rfl
    refine size.trans ?_
    simp [realRect, Rect.size, Rect.width, Rect.height]
  have x := place_length pixels.x1 pixels.x2 0.5
  have y := place_length pixels.y1 pixels.y2 0.5
  rw [Context.pixels_child upright, own, Spec.boxIn, all, toRect_standIn]
  exact Rect.ext (congrArg Limit.lo x) (congrArg Limit.lo y) (congrArg Limit.hi x)
    (congrArg Limit.hi y)

end Extended

/-! ## Nodes -/

namespace Element

variable {α : Type} [Scalar α] [NumberText α] {e : Element α} {parent : Context α} {spec : Spec α}

/-- A rectangle of the parent's space that tells where a node is drawn: it covers the pixels of the
node's own context. -/
structure LandsIn (e : Element α) (parent own : Context α) (rect : Rect α) : Prop where
  told : e.rect parent = .ok rect
  drawn : e.drawIn parent = e.draw own
  covers : parent.mapRect rect = own.pixels

/-- A node is drawn in the context that its resolved spec makes. -/
theorem drawIn_eq (h : e.resolvedSpec = .ok spec) :
    e.drawIn parent = e.draw (parent.child spec) := by
  have own : e.drawable.contextIn parent = .ok (parent.child spec) :=
    congrArg (Except.map parent.child) h
  rw [drawIn, Drawable.drawIn, own]
  rfl

/-- A node in an invertible context tells where it is drawn. -/
theorem landsIn_unmapRect (invertible : parent.IsInvertible) (h : e.resolvedSpec = .ok spec) :
    e.LandsIn parent (parent.child spec) (parent.unmapRect (parent.child spec).pixels) where
  told := congrArg (Except.map fun spec => parent.unmapRect (parent.child spec).pixels) h
  drawn := drawIn_eq h
  covers := invertible.mapRect_unmapRect _

end Element

/-- In exact arithmetic the maps of a context that extends on both axes undo each other, a node
tells in which rectangle it is drawn, and a node that is only placed in that rectangle takes the
same pixels. This also holds if a quotient by zero is an infinity or no number, for the last of it
if the pixels are finite, as they must be for a node to be drawn. On an axis that does not extend
all coordinates share a pixel, or all pixels a coordinate. -/
theorem Context.maps_are_inverse :
    (∀ ctx : Context ℝ, ctx.Spacious → ctx.IsInvertible ∧
      ∀ (e : Element ℝ) (spec : Spec ℝ), e.resolvedSpec = .ok spec →
        ∃ rect, e.LandsIn ctx (ctx.child spec) rect ∧
          (ctx.child (.ofRect rect)).pixels = (ctx.child spec).pixels) ∧
      (∀ [NumberText Extended] (ctx : Context Extended), ctx.pixels.isFinite = true →
        ctx.coord.isFinite = true → ctx.Spacious → ctx.IsInvertible ∧
        ∀ (e : Element Extended) (spec : Spec Extended), e.resolvedSpec = .ok spec →
          ∃ rect, e.LandsIn ctx (ctx.child spec) rect ∧
            ((ctx.child spec).pixels.isFinite = true →
              (ctx.child (.ofRect rect)).pixels = (ctx.child spec).pixels)) ∧
      ∀ ctx : Context ℝ, ctx.xMap.Collapses ctx.coord.xLimit ctx.pixels.xLimit ∧
        ctx.yMap.Collapses ctx.coord.yLimit ctx.pixels.yLimit := by
  refine ⟨?_, ?_, ?_⟩
  · intro ctx spacious
    have invertible := isInvertible_of_spacious spacious
    refine ⟨invertible, fun e spec h => ?_⟩
    have lands := Element.landsIn_unmapRect invertible h
    exact ⟨_, lands, (ctx.pixels_child_ofRect _).trans lands.covers⟩
  · intro _ ctx pixels coord spacious
    have invertible := isInvertible_of_finite pixels coord spacious
    refine ⟨invertible, fun e spec h => ?_⟩
    have lands := Element.landsIn_unmapRect invertible h
    refine ⟨_, lands, fun finite => ?_⟩
    obtain ⟨x1, y1, x2, y2, own⟩ := Extended.isFinite_rect finite
    have slot : ctx.mapRect _ = Extended.realRect ⟨x1, y1, x2, y2⟩ := lands.covers.trans own
    exact (Extended.pixels_child_ofRect slot).trans own.symm
  · intro ctx
    exact ⟨AxisMap.collapses_between _ _, AxisMap.collapses_between _ _⟩

/-! ## A disc on a canvas that runs up -/

section

variable {α : Type} [Scalar α]

/-- A canvas whose vertical axis runs up. -/
def upwardContext : Context α :=
  .new ⟨10.0, 70.0, 110.0, 20.0⟩ ⟨-1.0, -1.0, 1.0, 1.0⟩

/-- A turned disc at the left edge. -/
def leftDisc : Element α :=
  ⟨{ Spec.ofAspect 1.0 with align := ⟨0.0, 0.5⟩, rotate := 30.0 }, .empty, .primitive .ellipse⟩

/-- A canvas whose space has no width. -/
def narrowContext : Context α :=
  .new ⟨0.0, 0.0, 100.0, 100.0⟩ ⟨1.0, 0.0, 1.0, 1.0⟩

end

/-- The disc tells where it is drawn on the canvas, in both kinds of exact arithmetic. On the canvas
without a width every coordinate is drawn in the middle. -/
theorem Context.maps_are_inverse_leftDisc :
    (upwardContext : Context ℝ).Spacious ∧ (upwardContext : Context Extended).Spacious ∧
      (∃ spec rect, (leftDisc : Element ℝ).resolvedSpec = .ok spec ∧
        leftDisc.LandsIn upwardContext (upwardContext.child spec) rect ∧
        (upwardContext.child (.ofRect rect)).pixels = (upwardContext.child spec).pixels) ∧
      (∀ [NumberText Extended], ∃ spec rect, (leftDisc : Element Extended).resolvedSpec = .ok spec ∧
        leftDisc.LandsIn upwardContext (upwardContext.child spec) rect) ∧
      (narrowContext : Context ℝ).xMap.apply 7 = 50 := by
  obtain ⟨exact, infinite, collapses⟩ := maps_are_inverse
  have spacious : (upwardContext : Context ℝ).Spacious := by
    constructor <;> norm_num [upwardContext, Context.new, Rect.width, Rect.height,
      Scalar.ofScientific_eq]
  have spacious' : (upwardContext : Context Extended).Spacious := by
    constructor <;> norm_num [upwardContext, Context.new, Rect.width, Rect.height]
  refine ⟨spacious, spacious', ?_, ?_, ?_⟩
  · obtain ⟨rect, lands, placed⟩ := (exact _ spacious).2 leftDisc _ rfl
    exact ⟨_, rect, rfl, lands, placed⟩
  · intro _
    have finite : (upwardContext : Context Extended).pixels.isFinite = true ∧
        (upwardContext : Context Extended).coord.isFinite = true := by
      simp [upwardContext, Context.new, Rect.isFinite]
    obtain ⟨rect, lands, -⟩ := (infinite _ finite.1 finite.2 spacious').2 leftDisc _ rfl
    exact ⟨_, rect, rfl, lands⟩
  · have empty : (narrowContext : Context ℝ).coord.xLimit.length = 0 := sub_self _
    rw [(collapses narrowContext).1.middle empty]
    norm_num [narrowContext, Context.new, Rect.xLimit, Limit.middle, Scalar.ofScientific_eq]

end SvgLayout
