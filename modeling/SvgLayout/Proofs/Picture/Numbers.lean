import SvgLayout.Proofs.Element.Guarded
import SvgLayout.Proofs.Element.Numbers
import SvgLayout.Proofs.Picture.Failures
import SvgLayout.Proofs.Scalar.Real

/-!
# Which numbers of a document are finite

A document is only rendered if the pixels of every node are finite. So its boxes, ellipses and texts
show finite numbers, and so do the rectangles that clip and the size of the document. Other numbers
are not looked at. They are all finite exactly if every node is tame: a line to an infinity is
drawn, and so is a line so long that its pixels overflow.

## Main definitions

* `Picture.ShowsNumbers` — the document of a picture shows finite numbers only.

## Main statements

* `showsNumbers_document` — a document shows finite numbers exactly if its parts do.
* `renderSvg_shows_numbers_iff` — a rendered document shows finite numbers exactly if every node of
  its tree is tame.
-/

namespace SvgLayout

/-! ## Documents -/

/-- The document of a picture shows finite numbers only. -/
def Picture.ShowsNumbers {α : Type} [NumberText α] (picture : Picture α) (precision : Nat) : Prop :=
  (document picture.canvas picture.registry picture.body precision).ShowsNumbers

instance {α : Type} [NumberText α] (picture : Picture α) (precision : Nat) :
    Decidable (picture.ShowsNumbers precision) :=
  inferInstanceAs (Decidable (Markup.ShowsNumbers _))

section

variable {α : Type} [Scalar α] [NumberText α] [NumberText.Spells α]

theorem showsNumbers_documentAttrs {size : Size α} {precision : Nat} :
    (documentAttrs size precision).ShowsNumbers ↔
      Scalar.isFinite size.w = true ∧ Scalar.isFinite size.h = true := by
  have geometry : isGeometryKey "viewBox" = true ∧ isGeometryKey "width" = true ∧
      isGeometryKey "height" = true := by decide
  have other : isGeometryKey "xmlns" = false ∧ isGeometryKey "stroke" = false ∧
      isGeometryKey "fill" = false := by decide
  have corner : IsNumeric "0 0 " ∧ IsNumeric " " := by decide
  rw [documentAttrs, Attrs.showsNumbers_ofList (by simp)]
  simp only [pairsNumeric_cons, pairsNumeric_nil, geometry, other, corner, isNumeric_append,
    isNumeric_formatNumber, true_imp_iff, Bool.false_eq_true, false_imp_iff, true_and, and_true]
  tauto

/-- The block of definitions shows what they show. -/
theorem forall_definitionBlock {defs : List Markup} :
    (∀ piece ∈ definitionBlock defs, piece.ShowsNumbers) ↔
      ∀ definition ∈ defs, definition.ShowsNumbers := by
  have line : Markup.newline.ShowsNumbers := Markup.showsNumbers_text _
  cases defs with
  | nil => simp [definitionBlock]
  | cons first defs =>
    rw [definitionBlock, List.forall_mem_cons, List.forall_mem_singleton, Markup.showsNumbers_tag,
      List.forall_mem_cons, List.forall_mem_flatMap]
    · simp only [List.forall_mem_cons, List.not_mem_nil, false_imp_iff, implies_true, line,
        Attrs.showsNumbers_empty, and_true, true_and]
    · simp

/-- A document shows finite numbers exactly if its size is finite and its definitions and its body
show finite numbers. -/
theorem showsNumbers_document {size : Size α} {registry : Registry} {body : Markup}
    {precision : Nat} :
    (document size registry body precision).ShowsNumbers ↔
      (Scalar.isFinite size.w = true ∧ Scalar.isFinite size.h = true) ∧
        body.ShowsNumbers ∧ registry.ShowsNumbers := by
  have line : Markup.newline.ShowsNumbers := Markup.showsNumbers_text _
  rw [document, Markup.showsNumbers_tag, showsNumbers_documentAttrs, documentContent,
    List.forall_mem_append, List.forall_mem_cons, forall_definitionBlock]
  simp only [line, List.forall_mem_cons, List.not_mem_nil, false_imp_iff, implies_true, true_and,
    and_true]
  rw [Registry.ShowsNumbers, and_comm (a := body.ShowsNumbers)]

end

/-! ## The canvas -/

/-- A finite size stays finite when it is brought to a ratio. -/
theorem embed_isFinite {size : Size Extended} (w : Scalar.isFinite size.w = true)
    (h : Scalar.isFinite size.h = true) (aspect : Option Extended) (expand : Bool) :
    Scalar.isFinite (embed size aspect expand).w = true ∧
      Scalar.isFinite (embed size aspect expand).h = true := by
  rw [embed]
  cases usable : usableAspect aspect with
  | none => exact ⟨w, h⟩
  | some a =>
    obtain ⟨-, positive⟩ := Option.filter_eq_some_iff.mp usable
    obtain ⟨ratio, rfl, above⟩ := Extended.isPositive_iff.mp positive
    obtain ⟨x, hx⟩ := Extended.isFinite_iff.mp w
    obtain ⟨y, hy⟩ := Extended.isFinite_iff.mp h
    cases expand <;>
      simp [hx, hy, bindingLength, signedLike, Extended.real_div above.ne']

/-- A canvas is finite. -/
theorem RenderOptions.isFinite_canvas {options : RenderOptions Extended} {root : Element Extended}
    {canvas : Size Extended} (h : options.canvas root = .ok canvas) :
    Scalar.isFinite canvas.w = true ∧ Scalar.isFinite canvas.h = true := by
  obtain ⟨size, hsize, h⟩ := Except.bind_eq_ok.mp h
  obtain ⟨aspect, -, h⟩ := Except.bind_eq_ok.mp h
  rw [← Except.pure_eq_ok.mp h]
  rw [options.size_eq] at hsize
  split at hsize
  next positive =>
    cases hsize
    obtain ⟨w, hw, -⟩ := Extended.isPositive_iff.mp positive.1
    obtain ⟨y, hy, -⟩ := Extended.isPositive_iff.mp positive.2
    exact embed_isFinite (by rw [hw, Extended.isFinite_real]) (by rw [hy, Extended.isFinite_real])
      aspect false
  next => cases hsize

/-! ## Numbers as texts -/

section

/-- The decimals of real numbers, and the names of the others. -/
noncomputable instance : NumberText Extended where
  fixed
    | .nan, _ => nanText
    | .infinite negative, _ => infinityText negative
    | .real x, places => realDecimal x places
  shortest
    | .nan => nanText
    | .infinite negative => infinityText negative
    | .real x => NumberText.shortest x

theorem isNumeric_realDecimal (x : ℝ) (places : ℕ) : IsNumeric (realDecimal x places) := by
  have digits {d : Char} (letter : d.isDigit = false) (n : ℕ) : d ∉ decimalDigits n := by
    intro h
    rw [Nat.isDigit_of_mem_toDigits (by decide) (by decide) h] at letter
    cases letter
  have sign {d : Char} (other : d ≠ '-') (negative : Bool) : d ∉ signChars negative := by
    cases negative <;> simp [signChars, other]
  have never {d : Char} (letter : d.isDigit = false) (point : d ≠ '.') (minus : d ≠ '-')
      (zero : d ≠ '0') : d ∉ (realDecimal x places).toList := by
    rw [realDecimal, String.toList_ofList, fixedDigits]
    by_cases whole : places = 0 <;>
      simp [whole, paddedDigits, digits letter, sign minus, point, zero]
  exact ⟨never (by decide) (by decide) (by decide) (by decide),
    never (by decide) (by decide) (by decide) (by decide)⟩

instance : NumberText.Spells Extended where
  isNumeric_fixed x places := by
    cases x with
    | nan => exact iff_of_false (by decide : ¬IsNumeric nanText) Bool.false_ne_true
    | infinite negative =>
      have letters : ¬IsNumeric (infinityText negative) := by cases negative <;> decide
      exact iff_of_false letters Bool.false_ne_true
    | real x => exact iff_of_true (isNumeric_realDecimal x places) rfl

end

/-! ## Rendering -/

/-- In a tree whose styles only paint, what is rendered shows finite numbers exactly if every node
of the tree is tame, in the context of its parent. The pixels of every node are finite either way: a
tree is not rendered otherwise. -/
theorem renderSvg_shows_numbers_iff [NumberText Extended] [NumberText.Spells Extended]
    {root : Element Extended} {options : RenderOptions Extended} {svg : String}
    (paints : root.EveryStyle Style.PaintsOnly) (rendered : renderSvg root options = .ok svg) :
    ∃ picture, Picture.draw root options = .ok picture ∧ svg = picture.text options.precision ∧
      root.Everywhere Element.Guarded (options.context picture.canvas) ∧
      (picture.ShowsNumbers options.precision ↔
        root.Everywhere Element.TameIn (options.context picture.canvas)) := by
  obtain ⟨picture, hdraw, hsvg⟩ := renderSvg_eq_ok.mp rendered
  obtain ⟨hcanvas, hbody⟩ := Picture.draw_eq_ok.mp hdraw
  refine ⟨picture, hdraw, hsvg.symm, Element.everywhere_guarded hbody, ?_⟩
  rw [Picture.ShowsNumbers, showsNumbers_document, root.tells paints _ hbody,
    and_iff_right (RenderOptions.isFinite_canvas hcanvas),
    and_iff_right Registry.showsNumbers_empty]

/-! ## Lines to far away -/

/-- A line from the left of a square to another point at half of its height. -/
def lineTo {α : Type} [Scalar α] (x : α) : Element α :=
  .line (.ofPoint ⟨0.0, 0.5⟩) (.ofPoint ⟨x, 0.5⟩)

/-- A canvas of a hundred pixels. -/
def hundred {α : Type} [Scalar α] : RenderOptions α :=
  { RenderOptions.plain with width := 100.0, height := 100.0 }

section

variable (x : Extended)

theorem resolvedSpec_lineTo : (lineTo x).resolvedSpec = .ok .plain := by
  rw [Element.resolvedSpec, Element.measured_eq]
  rfl

theorem canvas_lineTo :
    (hundred : RenderOptions Extended).canvas (lineTo x) = .ok ⟨100.0, 100.0⟩ := by
  have positive : Scalar.isPositive (100.0 : Extended) = true := by
    rw [Extended.ofScientific_eq, Extended.isPositive_real]
    norm_num
  have size : (hundred : RenderOptions Extended).size = .ok ⟨100.0, 100.0⟩ :=
    (RenderOptions.size_eq _).trans (if_pos ⟨positive, positive⟩)
  have aspect : (lineTo x).layoutAspect = .ok none := by
    rw [Element.layoutAspect, Element.measured_eq]
    rfl
  rw [RenderOptions.canvas, size, aspect]
  rfl

/-- The context that a line is drawn in. -/
noncomputable def lineContext : Context Extended :=
  (hundred.context ⟨100.0, 100.0⟩).child .plain

theorem pixels_lineContext : lineContext.pixels = ⟨.real 0, .real 0, .real 100, .real 100⟩ := by
  have zero : (0.0 : Extended) = .real 0 := by rw [Extended.ofScientific_eq]; norm_num
  have half : (0.5 : Extended) = .real (1 / 2) := by rw [Extended.ofScientific_eq]; norm_num
  have one : (1.0 : Extended) = .real 1 := by rw [Extended.ofScientific_eq]; norm_num
  have two : (2.0 : Extended) = .real 2 := by rw [Extended.ofScientific_eq]; norm_num
  have wide : (100.0 : Extended) = .real 100 := by rw [Extended.ofScientific_eq]; norm_num
  have box : (hundred.context ⟨100.0, 100.0⟩ : Context Extended).box .plain =
      ⟨⟨.real 50, .real 50⟩, ⟨.real 100, .real 100⟩⟩ := by
    have slot : (hundred.context ⟨100.0, 100.0⟩ : Context Extended).slot .plain =
        ⟨.real 0, .real 0, .real 100, .real 100⟩ := by
      simp [Context.slot, Spec.plain, Context.mapRect, Context.xMap, Context.yMap, AxisMap.between,
        AxisMap.apply, RenderOptions.context, Context.root, Context.new, Rect.unit, Rect.xLimit,
        Rect.yLimit, Limit.length, zero, one, wide, Extended.real_div]
    rw [Context.box, slot]
    simp [rotateFit, standIn, Spec.plain, Spec.fixedAspect, embed, usableAspect, Align.center,
      Rect.upright, Rect.size, Rect.width, Rect.height, zero, half, two, Extended.real_div]
    norm_num
  rw [lineContext, Context.child, box]
  simp [CenterBox.toRect, two, Extended.real_div]
  norm_num

theorem isFinite_lineContext : lineContext.pixels.isFinite = true := by
  rw [pixels_lineContext]
  rfl

/-- Every line is rendered. -/
theorem exists_renderSvg_lineTo : ∃ svg, renderSvg (lineTo x) hundred = .ok svg := by
  have context : (lineTo x).drawable.contextIn (hundred.context ⟨100.0, 100.0⟩) =
      .ok lineContext := by
    rw [Drawable.contextIn, Element.drawable, resolvedSpec_lineTo]
    rfl
  have drawn : ((lineTo x).drawIn (hundred.context ⟨100.0, 100.0⟩)).Returns .empty _ .empty :=
    Render.returns_bind.mpr ⟨lineContext, .empty, Render.returns_lift.mpr ⟨context, rfl⟩,
      Render.returns_drawTag.mpr ⟨isFinite_lineContext, _, _, _, Render.returns_pure.mpr ⟨rfl, rfl⟩,
        Render.returns_pure.mpr ⟨rfl, rfl⟩, rfl⟩⟩
  exact ⟨_, renderSvg_eq_ok.mpr
    ⟨⟨_, _, _⟩, Picture.draw_eq_ok.mpr ⟨canvas_lineTo x, drawn⟩, rfl⟩⟩

/-- A line is tame if the point it leads to is finite. -/
theorem everywhere_tameIn_lineTo :
    (lineTo x).Everywhere Element.TameIn (hundred.context ⟨100.0, 100.0⟩) ↔
      Scalar.isFinite x = true := by
  have one : (1.0 : Extended) = .real 1 := by rw [Extended.ofScientific_eq]; norm_num
  have zero : (0.0 : Extended) = .real 0 := by rw [Extended.ofScientific_eq]; norm_num
  have xMap : lineContext.xMap = ⟨.real 0, .real 0, .real 100⟩ := by
    rw [Context.xMap, pixels_lineContext]
    simp [lineContext, Context.child, Spec.plain, Spec.coordRect, AxisMap.between, Rect.unit,
      Rect.xLimit, Limit.length, zero, one, Extended.real_div]
  have yMap : lineContext.yMap = ⟨.real 0, .real 0, .real 100⟩ := by
    rw [Context.yMap, pixels_lineContext]
    simp [lineContext, Context.child, Spec.plain, Spec.coordRect, AxisMap.between, Rect.unit,
      Rect.yLimit, Limit.length, zero, one, Extended.real_div]
  have tame : (lineTo x).TameIn (hundred.context ⟨100.0, 100.0⟩) ↔ _ :=
    Element.tameIn_iff (resolvedSpec_lineTo x)
  refine Element.everywhere_primitive.trans (tame.trans ?_)
  have shape : (lineTo x).shape.Tame (lineTo x).style lineContext ↔ Scalar.isFinite x = true := by
    simp [lineTo, Element.line, Element.ofPrimitive, Element.ofShape, Shape.Tame, Primitive.Tame,
      Context.mapPoint, xMap, yMap, AxisMap.applyNudged, AxisMap.apply, NudgedPoint.ofPoint,
      Nudged.ofNumber, Point.IsFinite]
  exact (and_iff_right rfl).trans shape

end

/-- A line to a point of the canvas shows finite numbers, and one to an infinity is drawn too. -/
theorem lineTo_shows_numbers :
    (∃ picture, Picture.draw (lineTo (1.0 : Extended)) hundred = .ok picture ∧
      picture.ShowsNumbers Defaults.precision) ∧
    ∃ picture, Picture.draw (lineTo (.infinite false : Extended)) hundred = .ok picture ∧
      ¬picture.ShowsNumbers Defaults.precision := by
  have paints (x : Extended) : (lineTo x).EveryStyle Style.PaintsOnly :=
    Element.everyStyle_leaf rfl (by simp [Style.PaintsOnly, lineTo, Element.line,
      Element.ofPrimitive, Element.ofShape, Style.empty])
  have canvas {x : Extended} {picture : Picture Extended}
      (drawn : Picture.draw (lineTo x) hundred = .ok picture) : picture.canvas = ⟨100.0, 100.0⟩ :=
    Except.ok.inj ((Picture.draw_eq_ok.mp drawn).1.symm.trans (canvas_lineTo x))
  constructor
  · obtain ⟨svg, rendered⟩ := exists_renderSvg_lineTo 1.0
    obtain ⟨picture, drawn, -, -, shows⟩ := renderSvg_shows_numbers_iff (paints 1.0) rendered
    rw [canvas drawn, everywhere_tameIn_lineTo] at shows
    exact ⟨picture, drawn, shows.mpr rfl⟩
  · obtain ⟨svg, rendered⟩ := exists_renderSvg_lineTo (.infinite false)
    obtain ⟨picture, drawn, -, -, shows⟩ :=
      renderSvg_shows_numbers_iff (paints (.infinite false)) rendered
    rw [canvas drawn, everywhere_tameIn_lineTo] at shows
    exact ⟨picture, drawn, fun h => Bool.false_ne_true (shows.mp h)⟩

/-- A line to an infinity is rendered to an infinity, and so is a line to a point so far away that
its pixels overflow. -/
theorem lineTo_shows_infinity :
    (∃ picture, Picture.draw (lineTo (1.0 / 0.0 : Float)) hundred = .ok picture ∧
      renderSvg (lineTo (1.0 / 0.0 : Float)) hundred = .ok (picture.text Defaults.precision) ∧
      ¬picture.ShowsNumbers Defaults.precision) ∧
    ∃ picture, Picture.draw (lineTo (1e308 : Float)) hundred = .ok picture ∧
      renderSvg (lineTo (1e308 : Float)) hundred = .ok (picture.text Defaults.precision) ∧
      ¬picture.ShowsNumbers Defaults.precision := by
  have shows (root : Element Float) (h : ((Picture.draw root hundred).toOption.any
      fun picture : Picture Float => !decide (picture.ShowsNumbers Defaults.precision)) = true) :
      ∃ picture, Picture.draw root hundred = .ok picture ∧
        renderSvg root hundred = .ok (picture.text Defaults.precision) ∧
        ¬picture.ShowsNumbers Defaults.precision := by
    cases drawn : Picture.draw root hundred with
    | error e => simp [drawn, Except.toOption] at h
    | ok picture =>
      refine ⟨picture, rfl, renderSvg_eq_ok.mpr ⟨picture, drawn, rfl⟩, ?_⟩
      simpa [drawn, Except.toOption] using h
  exact ⟨shows _ (by decide +kernel), shows _ (by decide +kernel)⟩

end SvgLayout
