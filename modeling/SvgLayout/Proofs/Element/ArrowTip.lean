import SvgLayout.Proofs.Context.Composition
import SvgLayout.Proofs.Context.Placing
import SvgLayout.Proofs.Geometry.Direction
import SvgLayout.Proofs.Render.Outcome
import SvgLayout.Element.Draw

/-!
# The tip of an arrow

The shaft of an arrow is drawn in a unit square over all pixels of the arrow. Its head is placed by
a rectangle of the arrow's own space, and is drawn upright there. If the head is open, both end at a
tip that is pulled back by half of the outline, and both are pulled back by the same pixels. So they
meet exactly if their tips are the same point of the space: in a unit square whose axes are not
reversed they always are, in other spaces hardly ever.

## Main definitions

* `Context.ofUnit` — the point of a space that lies where a point of the unit square lies.
* `Arrow.shaftStop`, `Arrow.headPixels` — the pixels at which the shaft and the head end.
* `Arrow.headReach` — the point of the space in which the head ends.

## Main statements

* `Arrow.shaftStop_eq`, `Arrow.headPixels_tip` — both ends as points of the space.
* `Arrow.shaft_meets_head_iff` — what an arrow draws, and when its shaft meets its head.
-/

namespace SvgLayout

section

variable {α : Type} [Scalar α]

/-- The point of a space that lies where a point of the unit square lies. -/
def Context.ofUnit (ctx : Context α) (p : Point α) : Point α :=
  ⟨ctx.coord.x1 + p.x * ctx.coord.width, ctx.coord.y1 + p.y * ctx.coord.height⟩

/-- Ahead of a coordinate in pixels: on a reversed axis the lesser coordinates are ahead. -/
def AxisMap.ahead (axis : AxisMap α) (c distance : α) : α :=
  if axis.scale < 0.0 then c - distance else c + distance

namespace Arrow

variable (arrow : Arrow α) (style : Style α) (ctx : Context α)

/-- The pixel at which the shaft ends. -/
def shaftStop : Point α :=
  (ctx.child .plain).mapPoint (arrow.shaftEnd style ctx)

def headPixels : HeadCorners α :=
  headIn (ctx.child arrow.headSpec).pixels.upright arrow.direction arrow.head style.outlineWidth

/-- The point of the space in which the head ends: a head's radius ahead of its centre. -/
def headReach : Point α :=
  let forward := Point.atAngle arrow.direction * arrow.head.size
  ⟨ctx.xMap.ahead arrow.headCenter.x forward.x, ctx.yMap.ahead arrow.headCenter.y forward.y⟩

/-- How far an open head is pulled back. -/
def pullBack : Point α :=
  let scale := (ctx.mapSize ⟨1.0, 1.0⟩).abs
  ((Point.atAngle arrow.direction).stretch ⟨scale.w, scale.h⟩).normalizeOrOrigin *
    (style.outlineWidth / (2.0 : α))

variable [NumberText α]

/-- The line from the tail of an arrow to a pixel. -/
def shaftTag (stop : Point α) : Markup :=
  let start := (ctx.child .plain).mapPoint (.ofPoint arrow.tail)
  .empty "line" (Render.nodeEntries style (ctx.child .plain) (.ofList
    [("x1", ctx.format start.x), ("y1", ctx.format start.y),
     ("x2", ctx.format stop.x), ("y2", ctx.format stop.y)]))

/-- The path of an open head with a tip at a pixel. -/
def headTag (tip : Point α) : Markup :=
  let corners := arrow.headPixels style ctx
  .empty "path" (Render.nodeEntries style (ctx.child arrow.headSpec) (.ofList
    [("d", Path.text [.move corners.left, .line tip, .line corners.right] ctx.precision),
     ("stroke-linejoin", "round")]))

end Arrow

end

/-! ## One axis -/

namespace AxisMap

/-- The unit interval over the pixels of an axis. -/
theorem apply_unit (coord pixels : Limit ℝ) (nonzero : coord.length ≠ 0) (t : ℝ) :
    (between Limit.unit pixels).apply t =
      (between coord pixels).apply (coord.lo + t * coord.length) := by
  have unit : (Limit.unit : Limit ℝ).length = 1 := by
    simp [Limit.unit, Limit.length]
  rw [between_of_length nonzero, between_of_length (by rw [unit]; exact one_ne_zero), apply, apply,
    unit]
  have start : (Limit.unit : Limit ℝ).lo = 0 := Scalar.literal_zero
  simp only [start]
  field_simp
  ring

/-- An axis that is not constant has different pixels for different coordinates. -/
theorem apply_inj {axis : AxisMap ℝ} (nonzero : axis.scale ≠ 0) {a b : ℝ} :
    axis.apply a = axis.apply b ↔ a = b := by
  rw [← sub_eq_zero, apply_sub_apply, mul_eq_zero, or_iff_left nonzero, sub_eq_zero]

/-- The middle of an interval around a coordinate, in pixels. -/
theorem middle_upright_map (axis : AxisMap ℝ) (c radius : ℝ) :
    let pixels := ((Limit.mk (c - radius) (c + radius)).map axis.apply).upright
    (pixels.lo + pixels.hi) / 2 = axis.apply c := by
  simp only [Limit.upright_lo, Limit.upright_hi, min_add_max, Limit.map, apply]
  ring

/-- Half of the length of an interval around a coordinate, in pixels. -/
theorem radius_upright_map (axis : AxisMap ℝ) (c : ℝ) {radius : ℝ} (nonneg : 0 ≤ radius) :
    ((Limit.mk (c - radius) (c + radius)).map axis.apply).upright.length / 2 =
      |axis.scale| * radius := by
  have extent : ((Limit.mk (c - radius) (c + radius)).map axis.apply).length =
      2 * radius * axis.scale := by
    simp only [Limit.map, Limit.length, apply]
    ring
  rw [Limit.length_upright, extent, abs_mul, abs_of_nonneg (by positivity)]
  ring

/-- A distance to the right in pixels. -/
theorem apply_ahead (axis : AxisMap ℝ) (c distance : ℝ) :
    axis.apply (axis.ahead c distance) = axis.apply c + |axis.scale| * distance := by
  rw [ahead, Scalar.literal_zero]
  rcases lt_or_ge axis.scale 0 with backward | forward
  · rw [if_pos backward, abs_of_neg backward, apply, apply]
    ring
  · rw [if_neg forward.not_gt, abs_of_nonneg forward, apply, apply]
    ring

end AxisMap

namespace Context.Spacious

variable {ctx : Context ℝ}

theorem width_ne_zero (spacious : ctx.Spacious) : ctx.coord.width ≠ 0 := by
  simpa using spacious.coordWidth

theorem height_ne_zero (spacious : ctx.Spacious) : ctx.coord.height ≠ 0 := by
  simpa using spacious.coordHeight

theorem xScale_ne_zero (spacious : ctx.Spacious) : ctx.xMap.scale ≠ 0 := by
  rw [xMap_scale spacious.width_ne_zero]
  exact div_ne_zero (by simpa using spacious.pixelWidth) spacious.width_ne_zero

theorem yScale_ne_zero (spacious : ctx.Spacious) : ctx.yMap.scale ≠ 0 := by
  rw [yMap_scale spacious.height_ne_zero]
  exact div_ne_zero (by simpa using spacious.pixelHeight) spacious.height_ne_zero

end Context.Spacious

/-! ## The two tips -/

namespace Arrow

variable {arrow : Arrow ℝ} {ctx : Context ℝ}

/-- A child that asks for a space only takes all pixels of a context that extends on both axes. -/
theorem pixels_child_plain (spacious : ctx.Spacious) (coord : Option (Coord ℝ)) :
    (ctx.child { Spec.plain with coord := coord }).pixels = ctx.pixels := by
  have upright : ({ Spec.plain with coord := coord } : Spec ℝ).isRotated = false := by
    simp [Spec.plain, Spec.isRotated, Spec.isTurned]
  rw [Context.pixels_child upright, Spec.boxIn_of_aspect (by simp [Spec.plain, Spec.fixedAspect])]
  exact Context.mapRect_coord spacious.width_ne_zero spacious.height_ne_zero

/-- The shaft of an open arrow ends at the tip that it has in the unit square, pulled back. -/
theorem shaftStop_eq (unclosed : arrow.head.base = false) (spacious : ctx.Spacious)
    (style : Style ℝ) :
    let back := arrow.pullBack style ctx
    arrow.shaftStop style ctx =
      ctx.mapPoint (.nudge (ctx.ofUnit arrow.tip) ⟨-back.x, -back.y⟩) := by
  intro back
  have stop : arrow.shaftEnd style ctx = .nudge arrow.tip ⟨-back.x, -back.y⟩ := by
    rw [shaftEnd, unclosed]
    rfl
  have x : (ctx.child .plain).xMap.apply arrow.tip.x = ctx.xMap.apply (ctx.ofUnit arrow.tip).x := by
    rw [Context.xMap, show (ctx.child .plain).pixels = _ from pixels_child_plain spacious none]
    exact AxisMap.apply_unit ctx.coord.xLimit ctx.pixels.xLimit spacious.width_ne_zero arrow.tip.x
  have y : (ctx.child .plain).yMap.apply arrow.tip.y = ctx.yMap.apply (ctx.ofUnit arrow.tip).y := by
    rw [Context.yMap, show (ctx.child .plain).pixels = _ from pixels_child_plain spacious none]
    exact AxisMap.apply_unit ctx.coord.yLimit ctx.pixels.yLimit spacious.height_ne_zero arrow.tip.y
  rw [shaftStop, stop]
  exact Point.ext (congrArg (· + -back.x) x) (congrArg (· + -back.y) y)

/-- The head is drawn around the pixel of its centre, as far as its radius reaches on each axis. -/
theorem room_head (positive : 0 < arrow.head.size) (ctx : Context ℝ) :
    let room := (ctx.child arrow.headSpec).pixels.upright
    room.center = ⟨ctx.xMap.apply arrow.headCenter.x, ctx.yMap.apply arrow.headCenter.y⟩ ∧
      Point.mk (room.width / 2.0) (room.height / 2.0) =
        Point.mk |ctx.xMap.scale| |ctx.yMap.scale| * arrow.head.size := by
  intro room
  have upright : arrow.headSpec.isRotated = false := by
    simp [headSpec, Spec.ofRect, Spec.plain, Spec.isRotated, Spec.isTurned]
  have placed : room = (ctx.mapRect
      (RadialBox.mk arrow.headCenter arrow.head.size arrow.head.size).toRect).upright := by
    rw [show room = (ctx.child arrow.headSpec).pixels.upright from rfl,
      Context.pixels_child upright,
      Spec.boxIn_of_aspect (by simp [headSpec, Spec.ofRect, Spec.plain, Spec.fixedAspect])]
    rfl
  rw [placed]
  constructor
  · rw [Rect.center, Scalar.literal_two]
    exact Point.ext (ctx.xMap.middle_upright_map _ _) (ctx.yMap.middle_upright_map _ _)
  · rw [Scalar.literal_two]
    exact Point.ext (ctx.xMap.radius_upright_map _ positive.le)
      (ctx.yMap.radius_upright_map _ positive.le)

/-- The head of an open arrow ends a head's radius ahead of its centre, pulled back. -/
theorem headPixels_tip (positive : 0 < arrow.head.size) (style : Style ℝ) :
    let back := arrow.pullBack style ctx
    (arrow.headPixels style ctx).tip =
      ctx.mapPoint (.nudge (arrow.headReach ctx) ⟨-back.x, -back.y⟩) := by
  intro back
  obtain ⟨center, radius⟩ := room_head positive ctx
  have scale : (ctx.mapSize ⟨1.0, 1.0⟩).abs = ⟨|ctx.xMap.scale|, |ctx.yMap.scale|⟩ := by
    simp [Context.mapSize, Size.abs]
  obtain ⟨d, hd⟩ : ∃ d, d = Point.atAngle arrow.direction := ⟨_, rfl⟩
  obtain ⟨unit, hunit⟩ : ∃ unit, unit = Point.mk |ctx.xMap.scale| |ctx.yMap.scale| := ⟨_, rfl⟩
  have stretched : d.stretch (unit * arrow.head.size) = d.stretch unit * arrow.head.size :=
    Point.ext (mul_assoc _ _ _).symm (mul_assoc _ _ _).symm
  have pulled : (d.stretch (unit * arrow.head.size)).normalizeOrOrigin *
      (style.outlineWidth / (2.0 : ℝ)) = back := by
    rw [stretched, Point.normalizeOrOrigin_mul positive, hunit, hd,
      show back = arrow.pullBack style ctx from rfl, pullBack, scale]
  have tip : (arrow.headPixels style ctx).tip =
      (ctx.child arrow.headSpec).pixels.upright.center + d.stretch (unit * arrow.head.size) -
        back := by
    rw [← pulled, hunit, ← radius, hd]
    rfl
  have x : ctx.xMap.apply (arrow.headReach ctx).x =
      ctx.xMap.apply arrow.headCenter.x + |ctx.xMap.scale| * (d.x * arrow.head.size) := by
    rw [hd]
    exact ctx.xMap.apply_ahead _ _
  have y : ctx.yMap.apply (arrow.headReach ctx).y =
      ctx.yMap.apply arrow.headCenter.y + |ctx.yMap.scale| * (d.y * arrow.head.size) := by
    rw [hd]
    exact ctx.yMap.apply_ahead _ _
  rw [tip, center, hunit]
  apply Point.ext
  · show _ = ctx.xMap.apply (arrow.headReach ctx).x + -back.x
    rw [x]
    simp only [Point.sub_x, Point.add_x, Point.stretch, Point.mul_x]
    ring
  · show _ = ctx.yMap.apply (arrow.headReach ctx).y + -back.y
    rw [y]
    simp only [Point.sub_y, Point.add_y, Point.stretch, Point.mul_y]
    ring

/-- A context that extends on both axes has different pixels for different points. -/
theorem mapPoint_nudge_eq_iff (spacious : ctx.Spacious) (p q back : Point ℝ) :
    ctx.mapPoint (.nudge p back) = ctx.mapPoint (.nudge q back) ↔ p = q := by
  have same : ctx.mapPoint (.nudge p back) = ctx.mapPoint (.nudge q back) ↔
      ctx.xMap.apply p.x + back.x = ctx.xMap.apply q.x + back.x ∧
        ctx.yMap.apply p.y + back.y = ctx.yMap.apply q.y + back.y :=
    Point.ext_iff
  rw [same, add_left_inj, add_left_inj, AxisMap.apply_inj spacious.xScale_ne_zero,
    AxisMap.apply_inj spacious.yScale_ne_zero, Point.ext_iff]

/-- The shaft of an open arrow meets its head exactly if the tips are one point of the space. -/
theorem shaftStop_eq_tip_iff (unclosed : arrow.head.base = false)
    (positive : 0 < arrow.head.size) (spacious : ctx.Spacious) (style : Style ℝ) :
    arrow.shaftStop style ctx = (arrow.headPixels style ctx).tip ↔
      ctx.ofUnit arrow.tip = arrow.headReach ctx := by
  rw [shaftStop_eq unclosed spacious, headPixels_tip positive, mapPoint_nudge_eq_iff spacious]

/-- In a unit square whose axes are not reversed the shaft meets the head, whatever the direction of
the arrow, its size and its outline. -/
theorem shaft_meets_head_in_unit (unclosed : arrow.head.base = false)
    (positive : 0 < arrow.head.size) (unit : ctx.coord = .unit) (width : 0 < ctx.pixels.width)
    (height : 0 < ctx.pixels.height) (style : Style ℝ) :
    arrow.shaftStop style ctx = (arrow.headPixels style ctx).tip := by
  have spaceWidth : ctx.coord.width = 1 := by
    simp [unit, Rect.unit, Rect.width]
  have spaceHeight : ctx.coord.height = 1 := by
    simp [unit, Rect.unit, Rect.height]
  have spacious : ctx.Spacious := by
    constructor <;> simp [spaceWidth, spaceHeight, width.ne', height.ne']
  have x : ctx.xMap.scale = ctx.pixels.width := by
    rw [Context.xMap_scale (by simp [spaceWidth]), spaceWidth, div_one]
  have y : ctx.yMap.scale = ctx.pixels.height := by
    rw [Context.yMap_scale (by simp [spaceHeight]), spaceHeight, div_one]
  rw [shaftStop_eq_tip_iff unclosed positive spacious]
  have startX : ctx.coord.x1 = 0 := by
    simp [unit, Rect.unit]
  have startY : ctx.coord.y1 = 0 := by
    simp [unit, Rect.unit]
  apply Point.ext
  · simp [Context.ofUnit, headReach, AxisMap.ahead, headCenter, x, width.not_gt, spaceWidth, startX]
  · simp [Context.ofUnit, headReach, AxisMap.ahead, headCenter, y, height.not_gt, spaceHeight,
      startY]

end Arrow

/-! ## Drawings -/

/-- Children that are drawn without an effect are drawn one after another. -/
theorem returns_drawChildren {ctx : Context ℝ} {children : List (Drawable ℝ)} {drawn : List Markup}
    {r : Registry}
    (h : List.Forall₂ (fun child m => (child.drawIn ctx).Returns r m r) children drawn) :
    (drawChildren false ctx children).Returns r (Markup.lines drawn) r := by
  have pieces : (children.mapM fun child => (do
      let childCtx ← child.contextIn ctx
      let markup ← child.draw childCtx
      pure (if false then [markup, debugBox childCtx] else [markup]) :
        Render ℝ (List Markup))).Returns r (drawn.map ([·])) r := by
    induction h with
    | nil => exact Render.returns_pure.mpr ⟨rfl, rfl⟩
    | @cons child m children drawn hm _ ih =>
      obtain ⟨childCtx, s, placed, hm⟩ := Render.returns_bind.mp hm
      rw [List.mapM_cons]
      refine Render.returns_bind.mpr ⟨[m], r, ?_, Render.returns_bind.mpr ⟨_, r, ih, ?_⟩⟩
      · exact Render.returns_bind.mpr ⟨childCtx, s, placed, Render.returns_bind.mpr
          ⟨m, r, hm, Render.returns_pure.mpr ⟨rfl, rfl⟩⟩⟩
      · exact Render.returns_pure.mpr ⟨rfl, rfl⟩
  have flat : (drawn.map ([·])).flatten = drawn := by
    simp [List.flatten_eq_flatMap, List.flatMap_map]
  refine Render.returns_bind.mpr ⟨_, r, pieces, Render.returns_pure.mpr ⟨?_, rfl⟩⟩
  rw [flat]

/-- In exact arithmetic a shape of a single tag is always drawn. -/
theorem Drawable.returns_ofPrimitive {ctx : Context ℝ} {spec : Spec ℝ} {style : Style ℝ}
    {p : Primitive ℝ} (own : (Drawable.ofPrimitive spec style p).element.resolvedSpec = .ok spec)
    (r : Registry) :
    ((Drawable.ofPrimitive spec style p).drawIn ctx).Returns r
      (.element p.tag (Render.nodeEntries style (ctx.child spec) (p.attrs style (ctx.child spec)))
        p.content) r := by
  have finite : (ctx.child spec).pixels.isFinite = true := by
    simp [Rect.isFinite]
  have placed : (Drawable.ofPrimitive spec style p).contextIn ctx = .ok (ctx.child spec) :=
    congrArg (ctx.child <$> ·) own
  refine Render.returns_bind.mpr ⟨_, r, Render.returns_lift.mpr ⟨placed, rfl⟩, ?_⟩
  exact Render.returns_drawTag.mpr ⟨finite, _, _, _, Render.returns_pure.mpr ⟨rfl, rfl⟩,
    Render.returns_pure.mpr ⟨rfl, rfl⟩, rfl⟩

namespace Arrow

variable {arrow : Arrow ℝ} {ctx : Context ℝ}

/-- An open arrow is drawn as a line to the pixel at which its shaft ends, and a path over the
corners of its head. The two end at one pixel exactly if the tip of the unit square lies where the
upright head ends in the space of the arrow. -/
theorem shaft_meets_head_iff (unclosed : arrow.head.base = false)
    (positive : 0 < arrow.head.size) (spacious : ctx.Spacious) (spec : Spec ℝ) (style : Style ℝ)
    (r : Registry) :
    ((Shape.arrow arrow).content spec style ctx).Returns r
        (some (Markup.lines [arrow.shaftTag style ctx (arrow.shaftStop style ctx),
          arrow.headTag style ctx (arrow.headPixels style ctx).tip])) r ∧
      (arrow.shaftStop style ctx = (arrow.headPixels style ctx).tip ↔
        ctx.ofUnit arrow.tip = arrow.headReach ctx) := by
  refine ⟨?_, shaftStop_eq_tip_iff unclosed positive spacious style⟩
  have shaft : ((Drawable.ofPrimitive .plain style
      (.line (.ofPoint arrow.tail) (arrow.shaftEnd style ctx))).drawIn ctx).Returns r
        (arrow.shaftTag style ctx (arrow.shaftStop style ctx)) r :=
    Drawable.returns_ofPrimitive rfl r
  have head : ((Drawable.ofPrimitive arrow.headSpec style
      (.arrowHead arrow.direction arrow.head)).drawIn ctx).Returns r
        (arrow.headTag style ctx (arrow.headPixels style ctx).tip) r := by
    have entries : (Primitive.arrowHead arrow.direction arrow.head).entries style
        (ctx.child arrow.headSpec) =
          [("d", Path.text [.move (arrow.headPixels style ctx).left,
              .line (arrow.headPixels style ctx).tip,
              .line (arrow.headPixels style ctx).right] ctx.precision),
            ("stroke-linejoin", "round")] := by
      simp only [Primitive.entries, headFill, headPath, unclosed]
      rfl
    rw [headTag, ← entries]
    exact Drawable.returns_ofPrimitive rfl r
  exact Render.returns_map.mpr ⟨_, returns_drawChildren (.cons shaft (.cons head .nil)), rfl⟩

/-! ### An arrow to the right -/

/-- An arrow to the right with an open head. -/
noncomputable def toRight : Arrow ℝ :=
  ⟨0, .plain⟩

noncomputable def canvas : Context ℝ :=
  .root ⟨100.0, 100.0⟩

/-- The context of a node that lays a space of two by two over the canvas. -/
noncomputable def wideCanvas : Context ℝ :=
  canvas.child { Spec.plain with coord := some (.rect ⟨0, 0, 2.0, 2.0⟩) }

theorem toRight_size_pos : 0 < toRight.head.size := by
  norm_num [toRight, HeadStyle.plain, Defaults.arrowHead, Scalar.ofScientific_eq]

theorem canvas_eq : canvas = .root ⟨100, 100⟩ := by
  norm_num [canvas, Scalar.ofScientific_eq]

theorem spacious_canvas : canvas.Spacious := by
  constructor <;>
    norm_num [canvas_eq, Context.root, Context.new, Rect.width, Rect.height, Rect.unit]

/-- On the canvas the arrow is drawn, and its shaft meets its head. -/
theorem shaft_meets_head_toRight :
    canvas.Spacious ∧ 0 < toRight.head.size ∧ ∀ r : Registry,
      (∃ drawn, ((Shape.arrow toRight).content .plain .empty canvas).Returns r (some drawn) r) ∧
        toRight.shaftStop .empty canvas = (toRight.headPixels .empty canvas).tip := by
  refine ⟨spacious_canvas, toRight_size_pos, fun r => ?_⟩
  obtain ⟨drawn, meets⟩ :=
    shaft_meets_head_iff rfl toRight_size_pos spacious_canvas .plain .empty r
  refine ⟨⟨_, drawn⟩, meets.mpr ?_⟩
  apply Point.ext
  · simp [Context.ofUnit, headReach, AxisMap.ahead, headCenter, canvas_eq, Context.root,
      Context.new, Context.xMap, AxisMap.between, Rect.xLimit, Limit.length, Rect.unit, Rect.width]
  · simp [Context.ofUnit, headReach, AxisMap.ahead, headCenter, canvas_eq, Context.root,
      Context.new, Context.yMap, AxisMap.between, Rect.yLimit, Limit.length, Rect.unit, Rect.height]

theorem direction_toRight : Point.atAngle toRight.direction = ⟨1, 0⟩ := by
  simp [Point.atAngle, toRight, Scalar.radians]

theorem tip_toRight : toRight.tip = ⟨1, 1 / 2⟩ := by
  apply Point.ext
  · simp [tip, middle, direction_toRight]
    norm_num
  · simp [tip, middle, direction_toRight]

/-- In a space of two by two the head stands in a quarter of the canvas, but the shaft crosses all
of it. -/
theorem shaft_misses_head_toRight :
    toRight.shaftStop .empty wideCanvas = ⟨199 / 2, 50⟩ ∧
      (toRight.headPixels .empty wideCanvas).tip = ⟨99 / 2, 25⟩ := by
  have pixels : wideCanvas.pixels = ⟨0, 0, 100, 100⟩ := by
    rw [wideCanvas, pixels_child_plain spacious_canvas]
    simp [canvas_eq, Context.root, Context.new]
  have coord : wideCanvas.coord = ⟨0, 0, 2, 2⟩ := by
    simp [wideCanvas, Context.child, Spec.coordRect]
  have spacious : wideCanvas.Spacious := by
    constructor <;> simp [pixels, coord, Rect.width, Rect.height]
  have x : wideCanvas.xMap = ⟨0, 0, 50⟩ := by
    simp [Context.xMap, pixels, coord, AxisMap.between, Rect.xLimit, Limit.length]
    norm_num
  have y : wideCanvas.yMap = ⟨0, 0, 50⟩ := by
    simp [Context.yMap, pixels, coord, AxisMap.between, Rect.yLimit, Limit.length]
    norm_num
  have forward : (Point.mk 1 0 : Point ℝ).normalizeOrOrigin = ⟨1, 0⟩ := by
    have length : (Point.mk 1 0 : Point ℝ).length = 1 := by
      show √((1 : ℝ) * 1 + 0 * 0) = 1
      norm_num
    apply Point.ext <;> simp [Point.normalizeOrOrigin, Point.normalize?, length]
  have back : toRight.pullBack .empty wideCanvas = ⟨1 / 2, 0⟩ := by
    have stretched : (Point.mk 1 0).stretch ⟨50, 50⟩ = (Point.mk 1 0 : Point ℝ) * (50 : ℝ) := by
      apply Point.ext <;> simp [Point.stretch]
    have scale : (wideCanvas.mapSize ⟨1.0, 1.0⟩).abs = ⟨50, 50⟩ := by
      simp [Context.mapSize, Size.abs, x, y]
    simp only [pullBack, direction_toRight, scale, stretched]
    rw [Point.normalizeOrOrigin_mul (by norm_num), forward]
    apply Point.ext <;> simp [Style.outlineWidth, Style.empty, Defaults.strokeWidth]
  constructor
  · rw [shaftStop_eq rfl spacious, back, tip_toRight]
    simp [Context.mapPoint, x, y, AxisMap.applyNudged, AxisMap.apply, NudgedPoint.nudge,
      Context.ofUnit, coord, Rect.width, Rect.height]
    norm_num
  · rw [headPixels_tip toRight_size_pos, back]
    simp [Context.mapPoint, x, y, AxisMap.applyNudged, AxisMap.apply, NudgedPoint.nudge,
      headReach, AxisMap.ahead, headCenter, tip_toRight, direction_toRight]
    norm_num

end Arrow

end SvgLayout
