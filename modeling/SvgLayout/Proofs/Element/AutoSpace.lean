import SvgLayout.Proofs.Context.Placing
import SvgLayout.Proofs.Element.Resolved

/-!
# Spaces derived from children

A group may lay a space over itself that just holds its children. The space is derived from where
the children land in the unit square, and drawn over the pixels of the group, which need not be
upright. Children that keep no ratio and are not turned then fill the pixels of the group exactly. A
child with a ratio does so if the group takes its ratio from it as well, except that it is aligned
in upright pixels: on a reversed axis its free space is divided the other way round than it was when
the space was derived.

## Main definitions

* `Spec.unturned` — a spec without its rotation.

## Main statements

* `Element.autoCoord_group`, `Element.resolvedSpec_group` — the space that a group derives.
* `Group.derived_space_is_tight` — children without a ratio fill their group exactly.
* `Group.automatic_group_fits_child` — where the only child of an automatic group is drawn.
-/

namespace SvgLayout

section

variable {α : Type} [Scalar α]

/-- A spec without its rotation. -/
def Spec.unturned (spec : Spec α) : Spec α :=
  { spec with rotate := 0.0 }

/-! ## Measures -/

variable {spec : Spec α} {style : Style α} {group : Group (Element α)} {specs : List (Spec α)}

/-- The specs by which a group measures its children are the resolved ones without rotations. -/
theorem Group.uprightSpecs_measured
    (resolved : group.children.mapM Element.resolvedSpec = .ok specs) :
    (group.map Element.measured).uprightSpecs = .ok (specs.map Spec.unturned) := by
  rw [Except.mapM_eq_ok] at resolved
  rw [Group.uprightSpecs, Except.mapM_eq_ok, Group.map, List.forall₂_map_left_iff,
    List.forall₂_map_right_iff]
  refine resolved.imp fun c s h => ?_
  rw [Measured.uprightSpec, show c.measured.resolvedSpec = .ok s from h]
  rfl

/-- A group whose space is derived lays over itself the bounding box of where its children land in
the unit square. -/
theorem Element.autoCoord_group (resolved : group.children.mapM resolvedSpec = .ok specs) :
    (Element.mk spec style (.group group)).autoCoord =
      .ok (specBounds (specs.map Spec.unturned)) := by
  rw [autoCoord, measured_eq]
  show specBounds <$> (group.map measured).uprightSpecs = _
  rw [Group.uprightSpecs_measured resolved]
  rfl

/-- What such a group resolves to. A derived ratio takes exactly one child. -/
theorem Element.resolvedSpec_group (auto : spec.hasAutoCoord = true)
    (only : spec.hasAutoAspect = true → group.children.length = 1)
    (resolved : group.children.mapM resolvedSpec = .ok specs) {bounds : Option (Rect α)}
    (derived : specBounds (specs.map Spec.unturned) = bounds) (style : Style α) :
    (Element.mk spec style (.group group)).resolvedSpec =
      .ok (spec.resolve ⟨Group.aspectOf spec (specs.map Spec.unturned) bounds, bounds⟩) := by
  refine resolvedSpec_eq_ok.mpr ⟨_, ?_, rfl⟩
  show (group.map measured).autoLayout spec true = _
  have counted : (spec.hasAutoAspect && (group.map measured).children.length != 1) = false := by
    cases aspect : spec.hasAutoAspect with
    | true => simp [Group.map, only aspect]
    | false => rfl
  simp [Group.autoLayout, counted, auto, Group.uprightSpecs_measured resolved, derived]

/-- Nodes are drawn in the contexts of their resolved specs. -/
theorem Element.mapM_contextIn [NumberText α] {es : List (Element α)}
    (resolved : es.mapM resolvedSpec = .ok specs) (parent : Context α) :
    es.mapM (fun e => e.drawable.contextIn parent) = .ok (specs.map parent.child) := by
  rw [Except.mapM_eq_ok] at resolved ⊢
  rw [List.forall₂_map_right_iff]
  refine resolved.imp fun e s h => ?_
  rw [Drawable.contextIn, show e.drawable.element.resolvedSpec = .ok s from h]
  rfl

end

variable {spec : Spec ℝ} {group : Group (Element ℝ)} {specs : List (Spec ℝ)}

theorem Spec.coordRect_resolve (auto : spec.hasAutoCoord = true) (aspect : Option ℝ)
    (space : Rect ℝ) : (spec.resolve ⟨aspect, some space⟩).coordRect = some space := by
  simp [resolve, coordRect, auto]

/-- The context in which a group whose space is derived is drawn. -/
theorem Element.contextIn_group (auto : spec.hasAutoCoord = true)
    (only : spec.hasAutoAspect = true → group.children.length = 1)
    (resolved : group.children.mapM resolvedSpec = .ok specs) {space : Rect ℝ}
    (derived : specBounds (specs.map Spec.unturned) = some space) (style : Style ℝ)
    (parent : Context ℝ) :
    (Element.mk spec style (.group group)).drawable.contextIn parent =
      .ok (parent.child (spec.resolve
        ⟨Group.aspectOf spec (specs.map Spec.unturned) (some space), some space⟩)) :=
  congrArg (parent.child <$> ·) (Element.resolvedSpec_group auto only resolved derived style)

/-! ## The unit square -/

theorem Rect.unit_width_ne_zero : (Rect.unit : Rect ℝ).width ≠ 0 := by
  simp [Rect.unit, Rect.width]

theorem Rect.unit_height_ne_zero : (Rect.unit : Rect ℝ).height ≠ 0 := by
  simp [Rect.unit, Rect.height]

theorem Spec.isRotated_unturned (s : Spec ℝ) : s.unturned.isRotated = false := by
  simp [unturned, isRotated, isTurned]

/-- Without its rotation a node lands in the unit square as it stands in its rectangle. -/
theorem placedRect_unturned (s : Spec ℝ) :
    placedRect s.unturned .unit = s.boxIn (s.rect.getD .unit) :=
  placedRect_eq s.isRotated_unturned Rect.unit_width_ne_zero Rect.unit_height_ne_zero

/-! ## Children without a ratio -/

/-- A node that keeps no ratio fills its slot. -/
theorem Spec.boxIn_of_free {s : Spec ℝ} (free : s.fixedAspect = none) (slot : Rect ℝ) :
    s.boxIn slot = slot :=
  s.boxIn_of_aspect (by simp [free])

/-- Measured in the unit square, children that keep no ratio take their rectangles, or all of it. -/
theorem specBounds_of_free {specs : List (Spec ℝ)} (free : ∀ s ∈ specs, s.fixedAspect = none) :
    specBounds (specs.map Spec.unturned) =
      Rect.bounding (specs.map fun s => s.rect.getD .unit) := by
  rw [specBounds, List.map_map]
  refine congrArg Rect.bounding (List.map_congr_left fun s hs => ?_)
  exact (placedRect_unturned s).trans (Spec.boxIn_of_free (free s hs) _)

/-- The space that a group derives from children that keep no ratio and are not turned is tight:
whatever slot the group is given, no child sticks out of the pixels of the group, and each of their
four sides is touched by a child. -/
theorem Group.derived_space_is_tight (auto : spec.hasAutoCoord = true)
    (nonempty : group.children ≠ [])
    (only : spec.hasAutoAspect = true → group.children.length = 1)
    (resolved : group.children.mapM Element.resolvedSpec = .ok specs)
    (free : ∀ s ∈ specs, s.fixedAspect = none ∧ s.isRotated = false) (style : Style ℝ) :
    let e : Element ℝ := ⟨spec, style, .group group⟩
    ∃ space, e.autoCoord = .ok (some space) ∧
      (space.width ≠ 0 → space.height ≠ 0 → ∀ parent : Context ℝ, ∃ ctx drawn,
        e.drawable.contextIn parent = .ok ctx ∧ ctx.coord = space ∧
        group.children.mapM (fun c => c.drawable.contextIn ctx) = .ok drawn ∧
        Rect.bounding (drawn.map Context.pixels) = some ctx.pixels.upright ∧
        ctx.pixels.upright.Hugs (drawn.map Context.pixels)) := by
  intro e
  obtain ⟨space, derived⟩ : ∃ space, specBounds (specs.map Spec.unturned) = some space := by
    rw [Except.mapM_eq_ok] at resolved
    cases specs with
    | nil => exact absurd (List.forall₂_nil_right_iff.mp resolved) nonempty
    | cons s specs => exact ⟨_, rfl⟩
  have hugs : space.Hugs (specs.map fun s => s.rect.getD .unit) := by
    rw [← Rect.bounding_eq_some, ← specBounds_of_free fun s hs => (free s hs).1]
    exact derived
  refine ⟨space, by rw [Element.autoCoord_group resolved, derived], fun width height parent => ?_⟩
  obtain ⟨ctx, placed, laid⟩ :
      ∃ ctx, e.drawable.contextIn parent = .ok ctx ∧ ctx.coord = space := by
    refine ⟨_, Element.contextIn_group auto only resolved derived style parent, ?_⟩
    rw [Context.child, Spec.coordRect_resolve auto, Option.getD_some]
  -- A child without a rectangle was measured in the unit square, but is drawn in the space.
  have filled : space.Hugs (specs.map fun s => s.rect.getD space) := by
    refine hugs.fill fun s _ => ?_
    cases s.rect with
    | none => exact .inr rfl
    | some r => exact .inl rfl
  have drawn : (specs.map ctx.child).map Context.pixels =
      (specs.map fun s => s.rect.getD space).map ctx.mapRect := by
    rw [List.map_map, List.map_map]
    refine List.map_congr_left fun s hs => ?_
    obtain ⟨noRatio, upright⟩ := free s hs
    rw [Function.comp_apply, Context.pixels_child upright, Spec.boxIn_of_free noRatio, ← laid]
    rfl
  have pixels : ctx.pixels.upright.Hugs ((specs.map ctx.child).map Context.pixels) := by
    rw [drawn, ← Context.mapRect_coord (laid ▸ width) (laid ▸ height), laid]
    exact filled.mapRect ctx
  refine ⟨ctx, _, placed, laid, Element.mapM_contextIn resolved ctx, ?_, pixels⟩
  exact Rect.bounding_eq_some.mpr pixels

/-! ### Two panes -/

/-- A rectangle in the left part of a group, and one in the right part whose axes are both
reversed. -/
noncomputable def paneSpecs : List (Spec ℝ) :=
  [.ofRect ⟨0, 0, 2.0, 1⟩, .ofRect ⟨4.0, 3.0, 1, 1⟩]

noncomputable def panes : Group (Element ℝ) :=
  ⟨paneSpecs.map fun s => ⟨s, .empty, .primitive .ellipse⟩, false, none, false⟩

/-- The panes derive a space of four by three, which they fill wherever the group is drawn. -/
theorem Group.derived_space_is_tight_panes :
    let e : Element ℝ := ⟨Spec.plain.withAutoCoord, .empty, .group panes⟩
    e.autoCoord = .ok (some ⟨0, 0, 4, 3⟩) ∧ ∀ parent : Context ℝ, ∃ ctx drawn,
      e.drawable.contextIn parent = .ok ctx ∧
      panes.children.mapM (fun c => c.drawable.contextIn ctx) = .ok drawn ∧
      Rect.bounding (drawn.map Context.pixels) = some ctx.pixels.upright := by
  intro e
  have auto : (Spec.plain.withAutoCoord : Spec ℝ).hasAutoCoord = true := rfl
  have resolved : panes.children.mapM Element.resolvedSpec = .ok paneSpecs := rfl
  have free : ∀ s ∈ paneSpecs, s.fixedAspect = none ∧ s.isRotated = false := by
    simp [paneSpecs, Spec.ofRect, Spec.plain, Spec.fixedAspect, Spec.isRotated, Spec.isTurned]
  obtain ⟨space, derived, tight⟩ := Group.derived_space_is_tight auto
    (by simp [panes, paneSpecs]) (fun h => by cases h) resolved free .empty
  have lands : specBounds (paneSpecs.map Spec.unturned) = some ⟨0, 0, 4, 3⟩ := by
    rw [specBounds_of_free fun s hs => (free s hs).1]
    norm_num [paneSpecs, Spec.ofRect, Rect.bounding, Rect.union, Rect.upright]
  have known : space = ⟨0, 0, 4, 3⟩ := by
    have both := derived.symm.trans (Element.autoCoord_group resolved)
    rw [lands] at both
    simpa using both
  rw [known] at derived tight
  refine ⟨derived, fun parent => ?_⟩
  obtain ⟨ctx, drawn, placed, -, seated, bounding, -⟩ :=
    tight (by norm_num [Rect.width]) (by norm_num [Rect.height]) parent
  exact ⟨ctx, drawn, placed, seated, bounding⟩

/-! ## The only child of an automatic group -/

/-- Rectangles of one size are equal if they start at the same point. -/
theorem Rect.eq_iff_of_size {r s : Rect ℝ} (size : r.size = s.size) :
    r = s ↔ r.x1 = s.x1 ∧ r.y1 = s.y1 := by
  have width : r.x2 - r.x1 = s.x2 - s.x1 := congrArg Size.w size
  have height : r.y2 - r.y1 = s.y2 - s.y1 := congrArg Size.h size
  refine ⟨by rintro rfl; exact ⟨rfl, rfl⟩, fun ⟨x, y⟩ => ?_⟩
  exact Rect.ext x y (by linarith) (by linarith)

theorem Rect.upright_width (r : Rect ℝ) : r.upright.width = |r.width| :=
  r.xLimit.length_upright

theorem Rect.upright_height (r : Rect ℝ) : r.upright.height = |r.height| :=
  r.yLimit.length_upright

/-- The ratio of a rectangle is that of its upright sides. -/
theorem Rect.aspect_eq_of_upright {r : Rect ℝ} (nonzero : r.upright.height ≠ 0) :
    r.aspect = .some (r.upright.width / r.upright.height) := by
  have width := r.upright_width
  have height := r.upright_height
  have tall : |r.height| ≠ 0 := height ▸ nonzero
  apply HasAspect.aspect_eq
  constructor
  · exact abs_ne_zero.mp tall
  · rw [width, height, div_mul_cancel₀ _ tall]

/-- The space that an automatic group takes from its only child, and the ratio. -/
theorem Group.aspectOf_only {s : Spec ℝ} (aspect : spec.hasAutoAspect = true)
    (auto : spec.hasAutoCoord = true) (rect : ∀ r ∈ s.rect, r.width ≠ 0 ∧ r.height ≠ 0)
    (positive : ∀ a ∈ s.fixedAspect, 0 < a) :
    let space := (placedRect s.unturned .unit).upright
    0 < space.width ∧ 0 < space.height ∧ (s.boxIn (s.rect.getD space)).upright = space ∧
      Group.aspectOf spec [s.unturned] (some space) = some (space.width / space.height) := by
  intro space
  obtain ⟨width, height, taken⟩ := upright_boxIn_placedRect s.isRotated_unturned
    Rect.unit_width_ne_zero Rect.unit_height_ne_zero rect positive
  refine ⟨lt_of_le_of_ne (Rect.upright_width _ ▸ abs_nonneg _) width.symm,
    lt_of_le_of_ne (Rect.upright_height _ ▸ abs_nonneg _) height.symm, taken, ?_⟩
  have known : (spec.coordRect.or (some space)).getD .unit = space := by
    have free : spec.coordRect = none := by
      cases coord : spec.coord with
      | none => simp [Spec.coordRect, coord]
      | some c => cases c <;> simp_all [Spec.coordRect, Spec.hasAutoCoord]
    rw [free]
    rfl
  have whole : (placedRect s.unturned space).upright = space := by
    rw [placedRect_eq s.isRotated_unturned width height, taken]
  simp only [Group.aspectOf, aspect, known]
  rw [Rect.aspect_eq_of_upright (by rw [whole]; exact height), whole]

/-- A node whose ratio is that of its own space has one scale on both axes. -/
theorem Context.scales_child {ctx parent : Context ℝ} {own : Spec ℝ}
    (drawn : ctx = parent.child own) (width : 0 < ctx.coord.width) (height : 0 < ctx.coord.height)
    (square : own.fixedAspect = some (ctx.coord.width / ctx.coord.height)) :
    |ctx.pixels.width / ctx.coord.width| = |ctx.pixels.height / ctx.coord.height| := by
  have size := parent.size_pixels_child own
  have fit := abs_rotateFit (div_pos width height) (parent.slot own).size own.rotate own.expand
    own.invar parent.tolerance
  rw [← square, ← size, ← drawn] at fit
  have kept : |ctx.pixels.width| = ctx.coord.width / ctx.coord.height * |ctx.pixels.height| := fit
  rw [abs_div, abs_div, kept, abs_of_pos width, abs_of_pos height]
  field_simp

/-- A share of free space is no displacement if it is a half, or if there is none. -/
theorem displacement_eq_zero_iff {flipped : Bool} {align free : ℝ} :
    (if flipped then (2 * align - 1) * free else 0) = 0 ↔
      (flipped = true → align = 1 / 2 ∨ free = 0) := by
  cases flipped with
  | false => simp
  | true =>
    have half : 2 * align - 1 = 0 ↔ align = 1 / 2 := by
      constructor <;> intro h <;> linarith
    simp [half]

/-- The only child of a group that takes both its ratio and its space from it is drawn as large as
the group. It starts where the group starts on every axis that is not reversed, and on a reversed
one the free space of its slot, which was divided by its alignment, is divided the other way round.
So it fills the group exactly if on each reversed axis it is centred or has no free space. -/
theorem Group.automatic_group_fits_child {child : Element ℝ} {s : Spec ℝ}
    (aspect : spec.hasAutoAspect = true) (auto : spec.hasAutoCoord = true)
    (only : group.children = [child]) (resolved : child.resolvedSpec = .ok s)
    (upright : s.isRotated = false) (rect : ∀ r ∈ s.rect, r.width ≠ 0 ∧ r.height ≠ 0)
    (positive : ∀ a ∈ s.fixedAspect, 0 < a) (style : Style ℝ) (parent : Context ℝ) :
    let e : Element ℝ := ⟨spec, style, .group group⟩
    ∃ ctx childCtx, e.drawable.contextIn parent = .ok ctx ∧
      child.drawable.contextIn ctx = .ok childCtx ∧
      let room := (ctx.slot s).upright
      let own := ctx.pixels.upright
      let drawn := childCtx.pixels.upright
      drawn.size = own.size ∧
        (drawn.x1 = own.x1 + if ctx.pixels.isFlippedX then
          (2 * s.align.x - 1) * (room.width - drawn.width) else 0) ∧
        (drawn.y1 = own.y1 + if ctx.pixels.isFlippedY then
          (2 * s.align.y - 1) * (room.height - drawn.height) else 0) ∧
        (drawn = own ↔
          (ctx.pixels.isFlippedX = true → s.align.x = 1 / 2 ∨ room.width = drawn.width) ∧
          (ctx.pixels.isFlippedY = true → s.align.y = 1 / 2 ∨ room.height = drawn.height)) := by
  intro e
  have specs : group.children.mapM Element.resolvedSpec = .ok [s] := by
    simp [only, resolved]
  have derived : specBounds ([s].map Spec.unturned) =
      some (placedRect s.unturned .unit).upright := rfl
  obtain ⟨width, height, taken, ratio⟩ := Group.aspectOf_only aspect auto rect positive
  obtain ⟨space, hspace⟩ : ∃ space, space = (placedRect s.unturned .unit).upright := ⟨_, rfl⟩
  rw [← hspace] at width height taken ratio derived
  obtain ⟨own, hown⟩ : ∃ own, own = spec.resolve
    ⟨Group.aspectOf spec [s.unturned] (some space), some space⟩ := ⟨_, rfl⟩
  obtain ⟨ctx, hctx⟩ : ∃ ctx, ctx = parent.child own := ⟨_, rfl⟩
  have placed : e.drawable.contextIn parent = .ok ctx := by
    rw [hctx, hown]
    exact Element.contextIn_group auto (by simp [only]) specs derived style parent
  have laid : ctx.coord = space := by
    rw [hctx, Context.child, hown, Spec.coordRect_resolve auto, Option.getD_some]
  have square : own.fixedAspect = some (ctx.coord.width / ctx.coord.height) := by
    rw [laid, hown, Spec.fixedAspect_resolve, ratio]
  have alike := Context.scales_child hctx (laid ▸ width) (laid ▸ height) square
  obtain ⟨size, x, y⟩ := Context.upright_pixels_child upright (by rw [Context.slot, laid])
    (laid.trans taken.symm) (laid ▸ width.ne') (laid ▸ height.ne') alike
  have seated : child.drawable.contextIn ctx = .ok (ctx.child s) :=
    congrArg (ctx.child <$> ·) resolved
  refine ⟨ctx, ctx.child s, placed, seated, size, x, y, ?_⟩
  rw [Rect.eq_iff_of_size size, x, y, add_eq_left, add_eq_left, displacement_eq_zero_iff,
    displacement_eq_zero_iff, sub_eq_zero, sub_eq_zero]

/-! ## A plaque on a rising canvas -/

/-- A canvas whose vertical axis runs up. -/
noncomputable def risingCanvas : Context ℝ :=
  .new ⟨0, 0, 100.0, 100.0⟩ ⟨0, 1, 1, 0⟩

/-- The spec of a rectangle that is twice as wide as it is high. -/
noncomputable def plaqueSpec (align : Align ℝ) : Spec ℝ :=
  { Spec.ofAspect 2.0 with rect := some .unit, align := align }

noncomputable def plaque (align : Align ℝ) : Element ℝ :=
  ⟨plaqueSpec align, .empty, .primitive (.rectangle none)⟩

/-- The spec of a group that takes both its ratio and its space from its child. -/
noncomputable def automaticSpec : Spec ℝ :=
  { Spec.ofRect .unit with aspect := some .auto, coord := some .auto }

/-- A group of this kind around a plaque. -/
noncomputable def plaqueGroup (align : Align ℝ) : Element ℝ :=
  ⟨automaticSpec, .empty, .group ⟨[plaque align], false, none, false⟩⟩

section

variable (align : Align ℝ)

theorem fixedAspect_plaqueSpec : (plaqueSpec align).fixedAspect = some 2 := by
  simp [plaqueSpec, Spec.ofAspect, Spec.fixedAspect]

theorem isRotated_plaqueSpec : (plaqueSpec align).isRotated = false := by
  simp [plaqueSpec, Spec.ofAspect, Spec.plain, Spec.isRotated, Spec.isTurned]

theorem rect_plaqueSpec : ∀ r ∈ (plaqueSpec align).rect, r.width ≠ 0 ∧ r.height ≠ 0 := by
  rintro r ⟨rfl⟩
  exact ⟨Rect.unit_width_ne_zero, Rect.unit_height_ne_zero⟩

theorem ratio_plaqueSpec : ∀ a ∈ (plaqueSpec align).fixedAspect, 0 < a := by
  simp [fixedAspect_plaqueSpec]

end

/-- On the rising canvas a group around a centred plaque is filled by it. -/
theorem Group.automatic_group_fits_plaque :
    ∃ ctx childCtx, (plaqueGroup .center).drawable.contextIn risingCanvas = .ok ctx ∧
      (plaque .center).drawable.contextIn ctx = .ok childCtx ∧
      childCtx.pixels.upright = ctx.pixels.upright := by
  have aspect : automaticSpec.hasAutoAspect = true := rfl
  have only : (Group.mk [plaque .center] false none false).children = [plaque .center] := rfl
  have resolved : (plaque .center).resolvedSpec = .ok (plaqueSpec .center) := rfl
  obtain ⟨ctx, childCtx, placed, seated, -, -, -, fits⟩ :=
    Group.automatic_group_fits_child aspect rfl only resolved (isRotated_plaqueSpec _)
      (rect_plaqueSpec _) (ratio_plaqueSpec _) .empty risingCanvas
  refine ⟨ctx, childCtx, placed, seated, fits.mpr ⟨fun _ => .inl ?_, fun _ => .inl ?_⟩⟩
  · exact Scalar.literal_half
  · exact Scalar.literal_half

/-- The box of a spec of ratio two. -/
theorem Spec.boxIn_of_two {s : Spec ℝ} (ratio : s.fixedAspect = some 2) (shrinks : s.expand = false)
    (slot : Rect ℝ) :
    s.boxIn slot = (standIn slot (signedLike slot.size (min (|slot.width| / 2) |slot.height| * 2)
      (min (|slot.width| / 2) |slot.height|)) s.align).toRect := by
  have usable : usableAspect (some (2 : ℝ)) = some 2 := usableAspect_of_pos (by norm_num)
  simp only [Spec.boxIn, embed, ratio, usable, shrinks]
  simp [bindingLength, Rect.size]

/-- The box of a plaque at the top of its rectangle. -/
theorem boxIn_plaqueSpec (slot : Rect ℝ) : (plaqueSpec ⟨1 / 2, 0⟩).boxIn slot =
    (standIn slot (signedLike slot.size (min (|slot.width| / 2) |slot.height| * 2)
      (min (|slot.width| / 2) |slot.height|)) ⟨1 / 2, 0⟩).toRect :=
  Spec.boxIn_of_two (fixedAspect_plaqueSpec _) rfl slot

theorem space_plaqueSpec :
    (placedRect (plaqueSpec ⟨1 / 2, 0⟩).unturned .unit).upright = ⟨0, 0, 1, 1 / 2⟩ := by
  rw [placedRect_unturned, show (plaqueSpec ⟨1 / 2, 0⟩).rect.getD .unit = .unit from rfl,
    boxIn_plaqueSpec]
  simp [standIn, signedLike, Rect.size, Rect.width, Rect.height, CenterBox.toRect, Rect.upright,
    Rect.unit, Scalar.copySign_eq]
  norm_num

/-- The spec of a group around a plaque that stands at the top of its rectangle. -/
noncomputable def resolvedPlaqueGroup : Spec ℝ :=
  automaticSpec.resolve ⟨some 2.0, some ⟨0, 0, 1, 0.5⟩⟩

theorem resolvedPlaqueGroup_eq :
    resolvedPlaqueGroup = automaticSpec.resolve ⟨some 2, some ⟨0, 0, 1, 1 / 2⟩⟩ := by
  simp [resolvedPlaqueGroup]

theorem contextIn_plaqueGroup (parent : Context ℝ) :
    (plaqueGroup ⟨1 / 2, 0⟩).drawable.contextIn parent =
      .ok (parent.child resolvedPlaqueGroup) := by
  have auto : automaticSpec.hasAutoCoord = true := rfl
  have resolved : (Group.mk [plaque ⟨1 / 2, 0⟩] false none false).children.mapM
      Element.resolvedSpec = .ok [plaqueSpec ⟨1 / 2, 0⟩] := rfl
  have derived : specBounds ([plaqueSpec ⟨1 / 2, 0⟩].map Spec.unturned) =
      some ⟨0, 0, 1, 1 / 2⟩ := congrArg some space_plaqueSpec
  have aspect : Group.aspectOf automaticSpec [(plaqueSpec ⟨1 / 2, 0⟩).unturned]
      (some ⟨0, 0, 1, 1 / 2⟩) = some 2 := by
    obtain ⟨-, -, -, aspect⟩ := Group.aspectOf_only (rfl : automaticSpec.hasAutoAspect = true) auto
      (rect_plaqueSpec ⟨1 / 2, 0⟩) (ratio_plaqueSpec _)
    rw [space_plaqueSpec] at aspect
    rw [aspect]
    norm_num [Rect.width, Rect.height]
  have placed := Element.contextIn_group auto (fun _ => rfl) resolved derived .empty parent
  rw [List.map_singleton, aspect] at placed
  rw [resolvedPlaqueGroup_eq]
  exact placed

/-- A group around a plaque that stands at the top of its rectangle takes the middle of the rising
canvas, and the plaque is drawn above it, away by the free space of its rectangle. -/
theorem Group.automatic_group_misses_plaque :
    ∃ ctx childCtx, (plaqueGroup ⟨1 / 2, 0⟩).drawable.contextIn risingCanvas = .ok ctx ∧
      (plaque ⟨1 / 2, 0⟩).drawable.contextIn ctx = .ok childCtx ∧
      ctx.pixels.upright = ⟨0, 25, 100, 75⟩ ∧ childCtx.pixels.upright = ⟨0, -25, 100, 25⟩ := by
  have rising : risingCanvas.slot resolvedPlaqueGroup = ⟨0, 100, 100, 0⟩ := by
    show risingCanvas.mapRect .unit = _
    simp [risingCanvas, Context.new, Context.mapRect, Context.xMap, Context.yMap, Rect.xLimit,
      Rect.yLimit, AxisMap.between, AxisMap.apply, Limit.length, Rect.unit]
    norm_num
  have upright : resolvedPlaqueGroup.isRotated = false := by
    simp [resolvedPlaqueGroup, automaticSpec, Spec.resolve, Spec.ofRect, Spec.plain,
      Spec.isRotated, Spec.isTurned]
  have ratio : resolvedPlaqueGroup.fixedAspect = some 2 := by
    rw [resolvedPlaqueGroup_eq]
    rfl
  have pixels : (risingCanvas.child resolvedPlaqueGroup).pixels = ⟨0, 75, 100, 25⟩ := by
    rw [Context.pixels_child upright, rising, Spec.boxIn_of_two ratio rfl]
    simp [standIn, signedLike, Rect.size, Rect.width, Rect.height, CenterBox.toRect, Rect.upright,
      Scalar.copySign_eq, resolvedPlaqueGroup, automaticSpec, Spec.resolve, Spec.ofRect,
      Spec.plain, Align.center]
    norm_num
  obtain ⟨ctx, hctx⟩ : ∃ ctx, ctx = risingCanvas.child resolvedPlaqueGroup := ⟨_, rfl⟩
  rw [← hctx] at pixels
  have coord : ctx.coord = ⟨0, 0, 1, 1 / 2⟩ := by
    rw [hctx, resolvedPlaqueGroup_eq]
    rfl
  have slot : ctx.slot (plaqueSpec ⟨1 / 2, 0⟩) = ⟨0, 75, 100, -25⟩ := by
    show ctx.mapRect .unit = _
    simp [Context.mapRect, Context.xMap, Context.yMap, coord, pixels, Rect.xLimit,
      Rect.yLimit, AxisMap.between, AxisMap.apply, Limit.length, Rect.unit]
    norm_num
  refine ⟨ctx, ctx.child (plaqueSpec ⟨1 / 2, 0⟩), hctx ▸ contextIn_plaqueGroup risingCanvas, rfl,
    ?_, ?_⟩
  · rw [pixels]
    norm_num [Rect.upright]
  · rw [Context.pixels_child (isRotated_plaqueSpec _), slot, boxIn_plaqueSpec]
    simp [standIn, signedLike, Rect.size, Rect.width, Rect.height, CenterBox.toRect, Rect.upright,
      Scalar.copySign_eq]
    norm_num

end SvgLayout
