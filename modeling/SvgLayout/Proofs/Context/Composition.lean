import SvgLayout.Proofs.Context.TurnedBounds

/-!
# Maps through several contexts

A child of a child is a child. Of the rectangle of a spec a context uses only the pixels that it
covers, so a spec can be read in any context that reaches the same pixels. A context that extends on
both axes reaches all of them, whatever lies between it and the child: flipped axes, turned boxes,
and contexts that are empty on an axis.

## Main definitions

* `Context.Spacious` — the pixels and the space of a context extend on both axes.
* `Context.Composes` — every chain of specs is one spec.

## Main statements

* `Context.child_withRect` — a spec in a rectangle of the same pixels gives the same child.
* `Context.composes_of_spacious` — maps compose in a context that extends on both axes.
-/

namespace SvgLayout

section

variable {α : Type} [Scalar α]

/-- The pixels and the space of a context extend on both axes, in either direction. -/
structure Context.Spacious (ctx : Context α) : Prop where
  pixelWidth : (ctx.pixels.width == 0.0) = false
  pixelHeight : (ctx.pixels.height == 0.0) = false
  coordWidth : (ctx.coord.width == 0.0) = false
  coordHeight : (ctx.coord.height == 0.0) = false

/-- Maps from a context compose. The child of a child is a child, in the rectangle whose pixels are
those of its slot, and so is whatever a chain of specs leads to. The contexts agree in all that they
hold, and so in the transformation that is written. -/
def Context.Composes (ctx : Context α) : Prop :=
  (∀ outer inner : Spec α,
    let between := ctx.child outer
    let slot := between.mapRect (inner.rect.getD between.coord)
    between.child inner = ctx.child (inner.withRect (ctx.unmapRect slot))) ∧
  ∀ (chain : List (Spec α)) (last : Spec α),
    let slot := (chain.foldl Context.child ctx).slot last
    (chain ++ [last]).foldl Context.child ctx =
      ctx.child (last.withRect (ctx.unmapRect slot))

/-! ## Slots -/

namespace Context

/-- A spec in a rectangle that covers the slot it has elsewhere gives the child it gives there. -/
theorem child_withRect {ctx other : Context α} {spec : Spec α} {rect : Rect α}
    (slot : ctx.mapRect rect = other.slot spec) (precision : other.precision = ctx.precision)
    (tolerance : other.tolerance = ctx.tolerance) :
    ctx.child (spec.withRect rect) = other.child spec := by
  have same : ctx.slot (spec.withRect rect) = other.slot spec := slot
  have box : ctx.box (spec.withRect rect) = other.box spec := by
    simp only [Context.box, same, tolerance]
    rfl
  simp only [Context.child, box, precision, tolerance]
  rfl

/-- A chain of children keeps the precision and the tolerance of its start. -/
theorem steady_foldl_child (ctx : Context α) (chain : List (Spec α)) :
    (chain.foldl child ctx).precision = ctx.precision ∧
      (chain.foldl child ctx).tolerance = ctx.tolerance := by
  induction chain generalizing ctx with
  | nil => exact ⟨rfl, rfl⟩
  | cons spec chain ih =>
    rw [List.foldl_cons]
    exact ih (ctx.child spec)

variable {ctx : Context α}

/-- Pixels that both axes bring back are covered by their coordinates. -/
theorem mapRect_unmapRect (x : ∀ p, ctx.xMap.apply (ctx.xMap.invert p) = p)
    (y : ∀ p, ctx.yMap.apply (ctx.yMap.invert p) = p) (r : Rect α) :
    ctx.mapRect (ctx.unmapRect r) = r :=
  Rect.ext (x r.x1) (y r.y1) (x r.x2) (y r.y2)

/-- Maps compose in a context that brings back all pixels. -/
theorem composes_of_mapRect_unmapRect (back : ∀ r, ctx.mapRect (ctx.unmapRect r) = r) :
    ctx.Composes := by
  have chains : ∀ (chain : List (Spec α)) (last : Spec α),
      (chain ++ [last]).foldl child ctx =
        ctx.child (last.withRect (ctx.unmapRect ((chain.foldl child ctx).slot last))) := by
    intro chain last
    obtain ⟨precision, tolerance⟩ := ctx.steady_foldl_child chain
    rw [List.foldl_append]
    exact (child_withRect (back _) precision tolerance).symm
  exact ⟨fun outer inner => chains [outer] inner, chains⟩

end Context

end

/-! ## Exact arithmetic -/

open Extended

/-- A map that is not constant reaches every pixel. -/
theorem AxisMap.apply_invert {m : AxisMap ℝ} (scale : m.scale ≠ 0) (p : ℝ) :
    m.apply (m.invert p) = p := by
  have invert : m.invert p = m.coordStart + (p - m.pixelStart) / m.scale := by
    simp [AxisMap.invert, scale]
  rw [invert, AxisMap.apply]
  field_simp
  ring

/-- The map between two intervals that are not empty reaches every pixel. -/
theorem AxisMap.apply_invert_between {coord pixels : Limit ℝ} (space : coord.length ≠ 0)
    (extent : pixels.length ≠ 0) (p : ℝ) :
    (between coord pixels).apply ((between coord pixels).invert p) = p := by
  apply AxisMap.apply_invert
  rw [AxisMap.between, Scalar.beq_eq, Scalar.literal_zero]
  simpa [space] using extent

namespace Extended

/-- A real map that is not constant reaches every pixel, the infinite ones as well. -/
theorem apply_invert {m : AxisMap Extended} {c p s : ℝ} (h : m = ⟨real c, real p, real s⟩)
    (scale : s ≠ 0) (q : Extended) : m.apply (m.invert q) = q := by
  have invert : m.invert q = real c + (q - real p) / real s := by
    simp [AxisMap.invert, h, scale]
  rw [invert, h, AxisMap.apply]
  cases q with
  | nan => rfl
  | infinite negative =>
    have product : real p + ((real c + (infinite negative - real p) / real s) - real c) * real s =
        real p + if s = 0 then nan
          else infinite ((negative != decide (s < 0)) != decide (s < 0)) := rfl
    rw [product, if_neg scale]
    cases negative <;> cases decide (s < 0) <;> rfl
  | real x =>
    have value : p + (x - p) / s * s = x := by
      field_simp
      ring
    simpa [real_div scale] using value

/-- The map between two real intervals that are not empty reaches every pixel. -/
theorem apply_invert_between {lo hi start stop : ℝ} (space : hi - lo ≠ 0)
    (extent : stop - start ≠ 0) (q : Extended) :
    let m := AxisMap.between ⟨real lo, real hi⟩ ⟨real start, real stop⟩
    m.apply (m.invert q) = q := by
  apply apply_invert (c := lo) (p := start) (s := (stop - start) / (hi - lo))
  · simp [AxisMap.between, Limit.length, space, real_div]
  · exact div_ne_zero extent space

end Extended

/-- In exact arithmetic maps compose from every context whose pixels and whose space extend on both
axes. This holds in the real numbers, and also if a quotient by zero is an infinity or no number,
whatever numbers the specs hold. -/
theorem Context.composes_of_spacious :
    (∀ ctx : Context ℝ, ctx.Spacious → ctx.Composes) ∧
      ∀ ctx : Context Extended, ctx.pixels.isFinite = true → ctx.coord.isFinite = true →
        ctx.Spacious → ctx.Composes := by
  constructor
  · intro ctx spacious
    have spaceX : ctx.coord.width ≠ 0 := by simpa using spacious.coordWidth
    have spaceY : ctx.coord.height ≠ 0 := by simpa using spacious.coordHeight
    have extentX : ctx.pixels.width ≠ 0 := by simpa using spacious.pixelWidth
    have extentY : ctx.pixels.height ≠ 0 := by simpa using spacious.pixelHeight
    apply composes_of_mapRect_unmapRect
    apply mapRect_unmapRect
    · exact AxisMap.apply_invert_between spaceX extentX
    · exact AxisMap.apply_invert_between spaceY extentY
  · intro ctx pixels coord spacious
    obtain ⟨px1, py1, px2, py2, hp⟩ := isFinite_rect pixels
    obtain ⟨cx1, cy1, cx2, cy2, hc⟩ := isFinite_rect coord
    apply composes_of_mapRect_unmapRect
    apply mapRect_unmapRect
    · intro p
      rw [xMap, Rect.xLimit, Rect.xLimit, hp, hc]
      exact Extended.apply_invert_between (by simpa [hc, Rect.width] using spacious.coordWidth)
        (by simpa [hp, Rect.width] using spacious.pixelWidth) p
    · intro p
      rw [yMap, Rect.yLimit, Rect.yLimit, hp, hc]
      exact Extended.apply_invert_between (by simpa [hc, Rect.height] using spacious.coordHeight)
        (by simpa [hp, Rect.height] using spacious.pixelHeight) p

/-! ## A mirrored canvas -/

/-- A canvas whose horizontal axis runs to the left and whose vertical one runs up. -/
noncomputable def mirroredContext : Context ℝ :=
  .new ⟨300.0, 200.0, 0.0, 0.0⟩ ⟨-1.0, -1.0, 1.0, 1.0⟩

/-- A turned child, and in it one that is empty on the horizontal axis. -/
noncomputable def turnedLine : List (Spec ℝ) :=
  [{ Spec.plain with rotate := 30.0 }, .ofRect ⟨0.25, 0.25, 0.25, 0.75⟩]

/-- On the mirrored canvas a child of that line is a child of the canvas. -/
theorem Context.composes_mirrored :
    mirroredContext.Spacious ∧
      (turnedLine ++ [Spec.ofAspect 2.0]).foldl child mirroredContext =
        mirroredContext.child ((Spec.ofAspect 2.0).withRect (mirroredContext.unmapRect
          ((turnedLine.foldl child mirroredContext).slot (Spec.ofAspect 2.0)))) := by
  have spacious : mirroredContext.Spacious := by
    constructor <;>
      norm_num [mirroredContext, Context.new, Rect.width, Rect.height, Scalar.ofScientific_eq]
  have composes := composes_of_spacious.1 mirroredContext spacious
  exact ⟨spacious, composes.2 turnedLine (Spec.ofAspect 2.0)⟩

end SvgLayout
