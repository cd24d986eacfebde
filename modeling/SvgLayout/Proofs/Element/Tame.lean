import SvgLayout.Proofs.Element.Parts
import SvgLayout.Proofs.Markup.Numeric

/-!
# Numbers outside of pixels

A tag is only drawn in a context whose pixels are finite. That covers all numbers of boxes, ellipses
and texts. Other numbers of a tag are computed from what the shape brings along, and nothing looks
at them: mapped points, the tension of a spline, the angles and the outline of an arrow head, the
radius where a rounded rectangle starts, and the angle of a rotation. A shape is tame if these are
finite.

## Main definitions

* `Primitive.Tame`, `Shape.Tame` — all numbers of a shape that are not its pixels are finite.
* `Element.TameIn` — a node brings along finite numbers only.

## Main statements

* `Primitive.showsNumbers_attrs` — a tag shows finite numbers exactly if its shape is tame.
* `Context.isNumeric_transform` — a rotation shows finite numbers exactly if its angle is finite.
-/

namespace SvgLayout

section

variable {α : Type} [Scalar α]

/-! ## Shapes -/

/-- All numbers of a shape that are not the pixels of its context are finite. -/
def Primitive.Tame (style : Style α) (ctx : Context α) : Primitive α → Prop
  | rectangle rounded => ∀ corners ∈ roundedCorners rounded,
    Scalar.isNaN
      (corners.topLeft * Scalar.min ctx.pixels.upright.width ctx.pixels.upright.height) = false
  | ellipse | text .. => True
  | line start stop => (ctx.mapPoint start).IsFinite ∧ (ctx.mapPoint stop).IsFinite
  | polyline points _ => ∀ p ∈ points, (ctx.mapPoint p).IsFinite
  | spline points options =>
    (∀ p ∈ points, (ctx.mapPoint p).IsFinite) ∧
      (2 ≤ points.length → Scalar.isFinite options.curve = true)
  | arrowHead direction head =>
    Scalar.isFinite direction = true ∧ Scalar.isFinite head.arc = true ∧
      Scalar.isFinite style.outlineWidth = true

/-- The tags of a node's own are tame, where the node is drawn in a context. -/
def Shape.Tame (style : Style α) (ctx : Context α) : Shape α (Element α) → Prop
  | primitive p => p.Tame style ctx
  | arrow a =>
    (Primitive.line (.ofPoint a.tail) (a.shaftEnd style ctx)).Tame style (ctx.child .plain) ∧
      (Primitive.arrowHead a.direction a.head).Tame style (ctx.child a.headSpec)
  | frame f => ∀ aspect, f.child.layoutAspect = .ok aspect →
    ∀ trim ∈ f.trim, trim.2.Tame trim.1 (ctx.child (.ofRect (f.borderRect aspect)))
  | group _ | stack _ | grid _ => True

/-- A node in the context of its parent is turned by a finite angle, and is tame in the context that
it is drawn in. -/
def Element.TameIn (parent : Context α) (e : Element α) : Prop :=
  ∀ spec, e.resolvedSpec = .ok spec →
    Scalar.isFinite spec.rotate = true ∧ e.shape.Tame e.style (parent.child spec)

theorem Element.tameIn_iff {parent : Context α} {e : Element α} {spec : Spec α}
    (resolved : e.resolvedSpec = .ok spec) :
    e.TameIn parent ↔
      Scalar.isFinite spec.rotate = true ∧ e.shape.Tame e.style (parent.child spec) := by
  rw [TameIn, resolved]
  simp only [Except.ok.injEq, forall_eq']

end

/-! ## Geometry in pixels -/

section

variable {ctx : Context Extended}

/-- A box around a centre that is not finite is not finite. -/
theorem CenterBox.isFinite_center {box : CenterBox Extended} (h : box.toRect.isFinite = true) :
    box.center.IsFinite := by
  obtain ⟨⟨x, y⟩, -⟩ := Rect.isFinite_iff.mp h
  simp only [CenterBox.toRect, Extended.isFinite_sub, Bool.and_eq_true] at x y
  exact ⟨x.1, y.1⟩

/-- The path of an arrow head in finite pixels. -/
theorem headPath_isFinite_iff (finite : ctx.pixels.isFinite = true) {style : Style Extended}
    {direction : Extended} {head : HeadStyle Extended} :
    Path.IsFinite (headPath ctx style direction head) ↔
      (Primitive.arrowHead direction head).Tame style ctx := by
  have upright := Rect.isFinite_upright finite
  have two : (2.0 : ℝ) ≠ 0 := by norm_num
  have radius : Point.IsFinite
      ⟨ctx.pixels.upright.width / .real 2.0, ctx.pixels.upright.height / .real 2.0⟩ := by
    simp only [Point.IsFinite, Extended.isFinite_div_real _ two, Rect.isFinite_width upright,
      Rect.isFinite_height upright, and_self]
  have closing : Path.IsFinite (if head.base then [PathCommand.close] else [] : Path Extended) := by
    cases head.base <;> simp [Path.IsFinite, PathCommand.IsFinite]
  rw [headPath]
  simp only [Path.isFinite_append, Path.isFinite_cons, Path.isFinite_nil, PathCommand.IsFinite,
    headIn, headCorners, HeadCorners.map, Point.isFinite_sub, Point.isFinite_add,
    Point.isFinite_stretch, Point.isFinite_mul, Point.isFinite_atAngle, radius,
    Rect.isFinite_center upright, Point.isFinite_normalizeOrOrigin, Extended.ofScientific_eq,
    Extended.isFinite_real, Extended.isFinite_div_real _ two, Extended.isFinite_add,
    Extended.isFinite_sub, Extended.isFinite_mul, Bool.and_eq_true, closing, Primitive.Tame]
  tauto

end

section

variable [NumberText Extended] [NumberText.Spells Extended] {ctx : Context Extended}

theorem Context.isNumeric_format {x : Extended} :
    IsNumeric (ctx.format x) ↔ Scalar.isFinite x = true :=
  isNumeric_formatNumber

/-- The box of finite pixels. -/
theorem Context.pairsNumeric_boxEntries (finite : ctx.pixels.isFinite = true) :
    PairsNumeric ctx.boxEntries := by
  have upright := Rect.isFinite_upright finite
  obtain ⟨⟨x, y⟩, -⟩ := Rect.isFinite_iff.mp upright
  simp only [boxEntries, pairsNumeric_cons, pairsNumeric_nil, isNumeric_format, x, y,
    Rect.isFinite_width upright, Rect.isFinite_height upright, implies_true, and_true]

namespace Primitive

omit [NumberText.Spells Extended] in
/-- No attribute of a shape is set twice, and its rotation is not one of them. -/
theorem nodup_entries (style : Style Extended) (ctx : Context Extended) (p : Primitive Extended) :
    ("transform" :: (p.entries style ctx).map Prod.fst).Nodup := by
  cases p with
  | rectangle rounded =>
    rw [entries]
    cases roundedCorners rounded <;> simp [Context.boxEntries]
  | arrowHead direction head =>
    rw [entries, headFill]
    split <;> simp
  | _ => simp [entries]

omit [NumberText.Spells Extended] in
theorem transform_notMem_attrs (style : Style Extended) (ctx : Context Extended)
    (p : Primitive Extended) : "transform" ∉ (p.attrs style ctx).keys := by
  rw [attrs, Attrs.mem_keys_ofList]
  exact (List.nodup_cons.mp (p.nodup_entries style ctx)).1

/-- A tag in finite pixels shows finite numbers exactly if its shape is tame. -/
theorem showsNumbers_attrs (finite : ctx.pixels.isFinite = true) {style : Style Extended}
    {p : Primitive Extended} : (p.attrs style ctx).ShowsNumbers ↔ p.Tame style ctx := by
  have upright := Rect.isFinite_upright finite
  have width := Rect.isFinite_width upright
  have height := Rect.isFinite_height upright
  obtain ⟨centerX, centerY⟩ := Rect.isFinite_center upright
  have geometry : isGeometryKey "points" = true ∧ isGeometryKey "d" = true ∧
      isGeometryKey "x1" = true ∧ isGeometryKey "y1" = true ∧ isGeometryKey "x2" = true ∧
      isGeometryKey "y2" = true := by decide
  have paint : isGeometryKey "fill" = false ∧ isGeometryKey "stroke-linejoin" = false ∧
      isGeometryKey "text-anchor" = false ∧ isGeometryKey "dominant-baseline" = false := by decide
  rw [attrs, Attrs.showsNumbers_ofList (List.nodup_cons.mp (p.nodup_entries style ctx)).2]
  cases p with
  | rectangle rounded =>
    rw [entries, Tame]
    cases roundedCorners rounded with
    | none => simpa using Context.pairsNumeric_boxEntries finite
    | some corners =>
      simp only [pairsNumeric_cons, pairsNumeric_nil, and_true, isNumeric_pathText,
        roundedRect_isFinite_iff upright, geometry, true_imp_iff, Option.mem_some_iff, forall_eq']
      rfl
  | ellipse =>
    have two : (2.0 : ℝ) ≠ 0 := by norm_num
    simp only [entries, Tame, pairsNumeric_cons, pairsNumeric_nil, Context.isNumeric_format,
      Extended.ofScientific_eq, Extended.isFinite_div_real _ two, width, height, centerX, centerY,
      implies_true, and_true]
  | line start stop =>
    simp only [entries, Tame, pairsNumeric_cons, pairsNumeric_nil, Context.isNumeric_format,
      Point.IsFinite, geometry, true_imp_iff, and_true, and_assoc]
  | polyline points closed =>
    simp only [entries, Tame, pairsNumeric_cons, pairsNumeric_nil, geometry, true_imp_iff, and_true,
      isNumeric_pointsText]
  | spline points options =>
    simp only [entries, Tame, pairsNumeric_cons, pairsNumeric_nil, geometry, true_imp_iff, and_true,
      isNumeric_pathText, splinePath, spline_isFinite_iff, List.forall_mem_map, List.length_map]
  | arrowHead direction head =>
    have head : PairsNumeric (headFill style head) := by
      rw [headFill]
      split <;> simp [pairsNumeric_cons, pairsNumeric_nil, paint]
    simp only [entries, pairsNumeric_append, pairsNumeric_cons, pairsNumeric_nil, geometry,
      true_imp_iff, isNumeric_pathText, headPath_isFinite_iff finite, paint, head,
      Bool.false_eq_true, false_imp_iff, and_true, true_and]
  | text content w =>
    simp only [entries, Tame, pairsNumeric_cons, pairsNumeric_nil, Context.isNumeric_format, paint,
      height, centerX, centerY, implies_true, Bool.false_eq_true, false_imp_iff, and_true]

end Primitive

/-- A rotation shows finite numbers exactly if its angle is finite. -/
theorem Context.isNumeric_transform {parent : Context Extended} {spec : Spec Extended}
    (finite : (parent.child spec).pixels.isFinite = true) :
    (∀ text ∈ (parent.child spec).transform?, IsNumeric text) ↔
      Scalar.isFinite spec.rotate = true := by
  have center : (parent.box spec).center.IsFinite := CenterBox.isFinite_center finite
  rw [transform?, child]
  cases turned : spec.isTurned with
  | true =>
    simp only [if_true, Option.map_some, Option.mem_some_iff, forall_eq', isNumeric_turnText,
      center, and_true]
  | false =>
    have zero : (spec.rotate == (0.0 : Extended)) = true := by simpa [Spec.isTurned] using turned
    have angle : Scalar.isFinite spec.rotate = true := Extended.isFinite_of_beq zero
    simp [angle]

end

end SvgLayout
