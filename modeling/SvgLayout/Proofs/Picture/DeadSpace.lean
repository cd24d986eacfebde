import SvgLayout.Proofs.Element.Snug
import SvgLayout.Proofs.Picture.Drawn
import SvgLayout.Proofs.Render.Success

/-!
# Pictures without dead space

In exact arithmetic a tree whose ratios are all determined by its leaves is drawn without dead space
on every canvas: the slot of every node has the ratio that the node wants, and the node takes all of
it. The canvas is the slot of the root.

## Main statements

* `Element.Everywhere.drawIn_succeeds` — a tree that can be measured and seated is drawn.
* `renderSvg_leaves_no_dead_space` — it is drawn without dead space.
-/

namespace SvgLayout

/-! ## Drawing -/

section

variable [NumberText ℝ]

/-- A tag is drawn wherever it is placed. -/
theorem Drawable.IsTag.drawIn_succeeds {d : Drawable ℝ} (tag : d.IsTag) (parent : Context ℝ) :
    (d.drawIn parent).Succeeds := by
  obtain ⟨spec, style, p, rfl⟩ := tag
  have context : (Drawable.ofPrimitive spec style p).contextIn parent =
      .ok (parent.child (spec.resolve ⟨p.aspect spec, none⟩)) := by
    have auto : (Element.mk spec style (.primitive p)).autoLayout = .ok ⟨p.aspect spec, none⟩ := by
      rw [Element.autoLayout, Element.measured_eq]
      rfl
    have resolved := Element.resolvedSpec_of_autoLayout auto
    rw [Drawable.contextIn, Drawable.ofPrimitive, resolved]
    rfl
  exact .lift_bind context (Primitive.draw_succeeds rfl)

/-- A tree that can be measured and seated is drawn: exact arithmetic leaves no other failures. -/
theorem Element.Everywhere.drawIn_succeeds {P : Context ℝ → Element ℝ → Prop}
    (planned : ∀ ctx e, P ctx e → ∃ aspect, e.layoutAspect = .ok aspect) {parent : Context ℝ}
    {e : Element ℝ} (h : e.Everywhere P parent) : (e.drawIn parent).Succeeds := by
  induction h with
  | @node parent e spec seats here resolved seated below ih =>
    obtain ⟨spec', own, drawn, resolved', seated', context, parts, tags, -⟩ :=
      (Element.Everywhere.node here resolved seated below).follows_drawing planned
    obtain rfl := Except.ok.inj (resolved.symm.trans resolved')
    obtain rfl := Except.ok.inj (seated.symm.trans seated')
    refine .lift_bind context ?_
    have step : e.drawable.draw = e.drawableShape.draw e.spec e.style := e.draw_eq
    rw [step]
    apply Shape.draw_succeeds rfl parts
    · intro part hpart
      rcases List.mem_append.mp hpart with hpart | hpart
      · exact (tags part hpart).drawIn_succeeds _
      · obtain ⟨child, hchild, rfl⟩ := List.mem_map.mp hpart
        exact ih child (List.mem_append_right _ hchild)
    · intro mask hmask
      have mem : mask ∈ (e.shape.map Element.drawable).masks := hmask
      rw [Shape.masks_map] at mem
      obtain ⟨child, hchild, rfl⟩ := List.mem_map.mp mem
      exact ih child (List.mem_append_left _ hchild)

end

/-! ## The root -/

/-- Without a rectangle of its own the root takes the canvas. -/
theorem RenderOptions.slot_context (options : RenderOptions ℝ) (canvas : Size ℝ) {spec : Spec ℝ}
    (free : spec.rect = none) :
    (options.context canvas).slot spec = ⟨0, 0, canvas.w, canvas.h⟩ := by
  simp [Context.slot, free, RenderOptions.context, Context.root, Context.new, Context.mapRect,
    Context.xMap, Context.yMap, AxisMap.between, AxisMap.apply, Rect.unit, Rect.xLimit, Rect.yLimit,
    Limit.length]

/-- A positive size is shrunk to the ratio that the root wants. -/
theorem RenderOptions.canvas_eq_ok {root : Element ℝ} {options : RenderOptions ℝ}
    {aspect : Option ℝ} (width : 0 < options.width) (height : 0 < options.height)
    (planned : root.layoutAspect = .ok aspect) :
    options.canvas root = .ok (embed ⟨options.width, options.height⟩ aspect false) := by
  have size : options.size = .ok ⟨options.width, options.height⟩ := by
    simp [RenderOptions.size, Size.checked, checkPositive, checkFinite, width.ne', height.ne',
      width.not_gt, height.not_gt, bind, Except.bind, pure, Except.pure, Except.mapError]
  rw [RenderOptions.canvas, size, planned]
  rfl

/-- In the slot of the canvas the root has the ratio that the canvas was made for. -/
theorem RenderOptions.hasAspect_slot {options : RenderOptions ℝ} {spec : Spec ℝ} {aspect : ℝ}
    (width : 0 < options.width) (height : 0 < options.height) (positive : 0 < aspect)
    (free : spec.rect = none) :
    ((options.context (embed ⟨options.width, options.height⟩ (some aspect) false)).slot
      spec).HasAspect aspect := by
  let size : Size ℝ := ⟨options.width, options.height⟩
  have w : size.w ≠ 0 := width.ne'
  have h : size.h ≠ 0 := height.ne'
  obtain ⟨nonzero, ratio⟩ := embed_keeps_aspect positive w h false
  rw [RenderOptions.slot_context _ _ free]
  constructor
  · simpa [Rect.height] using nonzero
  · simpa [Rect.height, Rect.width] using ratio

/-- A tree whose ratios are all determined by its leaves is drawn on every canvas, and nowhere in
the picture is there dead space: the canvas has the ratio of the root, and in the context of its
parent the slot of every node has the ratio that the node wants and is as large as the node. -/
theorem renderSvg_leaves_no_dead_space [NumberText ℝ] {root : Element ℝ} {options : RenderOptions ℝ}
    (snug : root.Snug) (free : root.spec.rect = none) (width : 0 < options.width)
    (height : 0 < options.height) :
    ∃ aspect picture, root.layoutAspect = .ok (some aspect) ∧
      Picture.draw root options = .ok picture ∧
      renderSvg root options = .ok (picture.text options.precision) ∧
      picture.canvas = embed ⟨options.width, options.height⟩ (some aspect) false ∧
      (options.context picture.canvas).slot root.spec =
        ⟨0, 0, picture.canvas.w, picture.canvas.h⟩ ∧
      root.Everywhere FillsSlot (options.context picture.canvas) := by
  obtain ⟨own, positive, measured⟩ := snug.exists_aspect
  have planned := Element.layoutAspect_of_aspect measured
  have canvas := RenderOptions.canvas_eq_ok width height planned
  have slot := RenderOptions.hasAspect_slot width height (plannedAspect_pos positive root.spec) free
  generalize shrunk : embed ⟨options.width, options.height⟩ _ false = size at canvas slot
  have here : root.moved none root.spec.align = root := by
    obtain ⟨⟨rect, coord, aspect, expand, align, rotate, invar⟩, style, shape⟩ := root
    obtain rfl : rect = none := free
    rfl
  have full : root.Everywhere FillsSlot (options.context size) := by
    rw [← here] at slot ⊢
    exact snug.everywhere planned slot
  have known : ∀ ctx e, FillsSlot ctx e → ∃ aspect, e.layoutAspect = .ok aspect := by
    rintro ctx e ⟨aspect, spec, layout, -⟩
    exact ⟨_, layout⟩
  obtain ⟨body, registry, drawn⟩ := full.drawIn_succeeds known .empty
  have picture : Picture.draw root options = .ok ⟨size, registry, body⟩ :=
    Picture.draw_eq_ok.mpr ⟨canvas, drawn⟩
  exact ⟨_, _, planned, picture, renderSvg_eq_ok.mpr ⟨_, picture, rfl⟩, shrunk.symm,
    RenderOptions.slot_context options size free, full⟩

/-! ## A signpost -/

noncomputable section

/-- A turned sign in a frame. -/
def turnedSign : Element ℝ :=
  let sign : Element ℝ := ⟨.ofAspect 2.0, .empty, .primitive (.rectangle none)⟩
  ⟨{ Spec.plain with coord := some .auto, rotate := 30.0, expand := true }, .empty,
    .frame ⟨sign, 0.125, 0.0625, none, none⟩⟩

/-- That sign beside a text from bottom to top. -/
def signpost : Element ℝ :=
  let name : Element ℝ :=
    ⟨{ Spec.plain with rotate := -90.0 }, .empty, .primitive (.text "north" 4.0)⟩
  ⟨.plain, .empty,
    .stack ⟨.horizontal, [⟨name, none, true⟩, ⟨turnedSign, none, true⟩], 0.1, none, false⟩⟩

/-- A canvas that does not have the ratio of the signpost. -/
def poster : RenderOptions ℝ :=
  { RenderOptions.plain with width := 300.0, height := 200.0 }

end

theorem turnedSign_snug : turnedSign.Snug := by
  refine .frame rfl rfl ?_ ?_ (.of_primitive rfl ?_)
  · norm_num [Scalar.ofScientific_eq]
  · norm_num [Scalar.ofScientific_eq]
  · norm_num

theorem signpost_snug : signpost.Snug := by
  refine .stack rfl rfl ?_ ?_ ?_ ?_
  · simp
  · simp
  · norm_num [Scalar.ofScientific_eq]
  · intro child hchild
    rcases List.mem_cons.mp hchild with rfl | hchild
    · have wide : (0 : ℝ) < 4 := by
        norm_num
      apply Element.Snug.of_primitive _ wide
      norm_num [Primitive.aspect, Spec.fixedAspect, Spec.plain, Scalar.ofScientific_eq]
    · rw [List.mem_singleton.mp hchild]
      exact turnedSign_snug

/-- The signpost is drawn without dead space. -/
theorem signpost_leaves_no_dead_space :
    signpost.Snug ∧ ∃ picture, Picture.draw signpost poster = .ok picture ∧
      signpost.Everywhere FillsSlot (poster.context picture.canvas) := by
  have width : 0 < poster.width := by
    norm_num [poster, Scalar.ofScientific_eq]
  have height : 0 < poster.height := by
    norm_num [poster, Scalar.ofScientific_eq]
  obtain ⟨_, picture, -, drawn, -, -, -, full⟩ :=
    renderSvg_leaves_no_dead_space signpost_snug rfl width height
  exact ⟨signpost_snug, picture, drawn, full⟩

end SvgLayout
