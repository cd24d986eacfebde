import SvgLayout.Proofs.Context.Slots
import SvgLayout.Proofs.Layout.Shares
import SvgLayout.Proofs.Element.Seats

/-!
# Trees without dead space

A tree of leaves with a ratio, of frames that take theirs from their child, and of stacks that take
theirs from expanding children is laid out without dead space: if the slot of the root has the ratio
that the root wants, then so it is for every node, and every node takes all of its slot.

## Main definitions

* `Element.Snug` — these trees.
* `FillsSlot` — the slot of a node has its ratio, and the node takes all of it.

## Main statements

* `Element.Snug.exists_aspect` — such a tree has a positive ratio.
* `Element.Snug.everywhere` — every node fills its slot.
-/

namespace SvgLayout

/-- A tree whose ratios are all determined by its leaves. A leaf seats no children and has a
positive ratio; a frame takes its ratio and its space from its child; a stack takes its ratio from
its children, all of which expand, with gaps that leave room for them. -/
inductive Element.Snug : Element ℝ → Prop
  | leaf {e : Element ℝ} {aspect : ℝ} (childless : e.seats = .ok [])
      (measured : e.aspect = .ok (some aspect)) (positive : 0 < aspect) : Snug e
  | frame {spec : Spec ℝ} {style : Style ℝ} {frame : Frame ℝ (Element ℝ)}
      (free : spec.fixedAspect = none) (auto : spec.hasAutoCoord = true)
      (padding : 0 ≤ frame.padding) (margin : 0 ≤ frame.margin) (child : Snug frame.child) :
      Snug ⟨spec, style, .frame frame⟩
  | stack {spec : Spec ℝ} {style : Style ℝ} {stack : Stack ℝ (Element ℝ)}
      (free : spec.fixedAspect = none) (plain : spec.coord = none) (nonempty : stack.children ≠ [])
      (expanding : ∀ child ∈ stack.children, child.size = none ∧ child.expand = true)
      (room : stack.spacing * (stack.children.length - 1 : ℕ) < 1)
      (children : ∀ child ∈ stack.children, Snug child.element) : Snug ⟨spec, style, .stack stack⟩

/-- The slot of a node has the ratio that its parent plans with, and the node takes all of it. -/
def FillsSlot (parent : Context ℝ) (e : Element ℝ) : Prop :=
  ∃ aspect spec, e.layoutAspect = .ok (some aspect) ∧ e.resolvedSpec = .ok spec ∧
    (parent.slot spec).aspect = some aspect ∧
    spec.footprint (parent.child spec).pixels.size = (parent.slot spec).size.abs

/-! ## Measures -/

section

variable {α : Type} [Scalar α] {aspect : α}

omit [Scalar α] in
theorem Sizing.autoLayout_ofAspect {measured : Except (LayoutError α) (Option α)}
    {aspect : Option α} (h : (Sizing.ofAspect measured).aspect = .ok aspect) :
    (Sizing.ofAspect measured).autoLayout = .ok ⟨aspect, none⟩ := by
  have same : measured = .ok aspect := h
  rw [Sizing.ofAspect, same]
  rfl

/-- A group without children derives the ratio that it wants. -/
theorem Group.autoLayout_of_childless {spec : Spec α} {group : Group (Measured α)}
    (childless : group.children = []) (h : (group.sizing spec).aspect = .ok (some aspect)) :
    ∃ coord, (group.sizing spec).autoLayout = .ok ⟨some aspect, coord⟩ := by
  simp only [Group.sizing, Group.autoLayout, childless, Group.uprightSpecs] at h ⊢
  cases auto : spec.hasAutoAspect with
  | true => simp [auto] at h
  | false =>
    have fixed : spec.fixedAspect = some aspect := by
      simpa [auto] using h
    cases coord : spec.hasAutoCoord with
    | true => simp [fixed, Group.aspectOf]
    | false => simp [fixed]

namespace Element

variable {e : Element α}

theorem children_of_seats (childless : e.seats = .ok []) : e.shape.children = [] := by
  simpa using (Shape.map_seats childless).symm

theorem layoutAspect_of_aspect (h : e.aspect = .ok (some aspect)) :
    e.layoutAspect = .ok (some (e.spec.plannedAspect aspect)) := by
  rw [layoutAspect, Measured.layoutAspect_eq, measured_spec, ← Element.aspect, h]
  rfl

theorem resolvedSpec_of_autoLayout {layout : AutoLayout α} (h : e.autoLayout = .ok layout) :
    e.resolvedSpec = .ok (e.spec.resolve layout) := by
  rw [resolvedSpec, Measured.resolvedSpec, measured_spec, ← Element.autoLayout, h]
  rfl

/-- A node without children derives the ratio that it wants. -/
theorem autoLayout_of_childless (childless : e.shape.children = [])
    (h : e.aspect = .ok (some aspect)) : ∃ coord, e.autoLayout = .ok ⟨some aspect, coord⟩ := by
  obtain ⟨spec, style, shape⟩ := e
  rw [Element.aspect, measured_eq] at h
  rw [Element.autoLayout, measured_eq]
  cases shape with
  | primitive p => exact ⟨none, Sizing.autoLayout_ofAspect h⟩
  | arrow a => exact ⟨none, Sizing.autoLayout_ofAspect h⟩
  | group g =>
    have empty : g.children = [] := (List.append_eq_nil_iff.mp childless).2
    apply Group.autoLayout_of_childless
    · simp [Group.map, empty]
    · exact h
  | frame f => exact absurd childless (List.cons_ne_nil _ _)
  | stack s => exact ⟨none, Sizing.autoLayout_ofAspect h⟩
  | grid g => exact ⟨none, Sizing.autoLayout_ofAspect h⟩

end Element

end

/-! ## Frames -/

section

variable {spec : Spec ℝ} {style : Style ℝ} {frame : Frame ℝ (Element ℝ)} {aspect : ℝ}

/-- The ratio of a frame around a child of ratio `aspect`. -/
noncomputable def Frame.aspectAround (frame : Frame ℝ (Element ℝ)) (aspect : ℝ) : ℝ :=
  aspect * (1 + 2 * (frame.padding + frame.margin)) /
    (1 + 2 * ((frame.padding + frame.margin) * aspect))

theorem Frame.outerAspect_eq (free : spec.fixedAspect = none) :
    frame.outerAspect spec (some aspect) = some (frame.aspectAround aspect) := by
  simp [Frame.outerAspect, free, insetSize, Frame.aspectAround]

/-- A frame measures its child. -/
theorem Frame.measures (free : spec.fixedAspect = none)
    (child : frame.child.layoutAspect = .ok (some aspect)) :
    (Element.mk spec style (.frame frame)).aspect = .ok (some (frame.aspectAround aspect)) ∧
      (Element.mk spec style (.frame frame)).autoLayout =
        .ok ⟨some (frame.aspectAround aspect), some (frame.outerRect (some aspect))⟩ := by
  have inner : (frame.map Element.measured).child.layoutAspect = .ok (some aspect) := child
  have own : (frame.map Element.measured).outerAspect spec (some aspect) =
      some (frame.aspectAround aspect) := Frame.outerAspect_eq free
  rw [Element.aspect, Element.autoLayout, Element.measured_eq]
  simp only [Element.measuredShape, Shape.map, Shape.sizing, Frame.sizing, free, inner,
    Except.map_eq_ok]
  exact ⟨⟨_, rfl, own⟩, _, rfl, congrArg (AutoLayout.mk · _) own⟩

theorem Frame.aspectAround_pos (padding : 0 ≤ frame.padding) (margin : 0 ≤ frame.margin)
    (positive : 0 < aspect) : 0 < frame.aspectAround aspect := by
  rw [Frame.aspectAround]
  positivity

/-- The space of a frame is as wide and as high as its child with the insets on both sides. -/
theorem Frame.size_outerRect (frame : Frame ℝ (Element ℝ)) (aspect : ℝ) :
    (frame.outerRect (some aspect)).size = ⟨1 + 2 * (frame.padding + frame.margin),
      1 + 2 * ((frame.padding + frame.margin) * aspect)⟩ := by
  simp only [Frame.outerRect, inset, insetSize, Rect.size, Rect.width, Rect.height,
    Scalar.literal_one, Option.getD_some]
  apply Size.ext
  · ring
  · ring

theorem Frame.width_outerRect_pos (padding : 0 ≤ frame.padding) (margin : 0 ≤ frame.margin)
    (aspect : ℝ) : 0 < (frame.outerRect (some aspect)).width := by
  have width : (frame.outerRect (some aspect)).width = 1 + 2 * (frame.padding + frame.margin) :=
    congrArg Size.w (frame.size_outerRect aspect)
  rw [width]
  positivity

theorem Frame.height_outerRect_pos (padding : 0 ≤ frame.padding) (margin : 0 ≤ frame.margin)
    (positive : 0 < aspect) : 0 < (frame.outerRect (some aspect)).height := by
  have height : (frame.outerRect (some aspect)).height =
      1 + 2 * ((frame.padding + frame.margin) * aspect) :=
    congrArg Size.h (frame.size_outerRect aspect)
  rw [height]
  positivity

/-- The child of a frame has a slot of its ratio. -/
theorem Frame.hasAspect_seat {ctx : Context ℝ} (padding : 0 ≤ frame.padding)
    (margin : 0 ≤ frame.margin) (positive : 0 < aspect)
    (coord : ctx.coord = frame.outerRect (some aspect))
    (pixels : ctx.pixels.HasAspect (frame.aspectAround aspect)) :
    (ctx.mapRect .unit).HasAspect aspect := by
  have width : ctx.coord.width = 1 + 2 * (frame.padding + frame.margin) := by
    rw [coord]
    exact congrArg Size.w (frame.size_outerRect aspect)
  have height : ctx.coord.height = 1 + 2 * ((frame.padding + frame.margin) * aspect) := by
    rw [coord]
    exact congrArg Size.h (frame.size_outerRect aspect)
  have hw : 0 < ctx.coord.width := by
    rw [coord]
    exact Frame.width_outerRect_pos padding margin aspect
  have hh : 0 < ctx.coord.height := by
    rw [coord]
    exact Frame.height_outerRect_pos padding margin positive
  have unit : (Rect.unit : Rect ℝ).width = 1 ∧ (Rect.unit : Rect ℝ).height = 1 := by
    simp [Rect.unit, Rect.width, Rect.height]
  apply Context.hasAspect_mapRect pixels hw.ne' hh.ne'
  · rw [unit.2]
    exact one_ne_zero
  · rw [abs_of_pos hw, abs_of_pos hh, Frame.aspectAround, ← width, ← height, unit.1, unit.2,
      abs_one]
    field_simp

end

/-! ## Stacks -/

section

variable {spec : Spec ℝ} {style : Style ℝ} {stack : Stack ℝ (Element ℝ)}

theorem Direction.mainRatio_pos (direction : Direction) {aspect : ℝ} (positive : 0 < aspect) :
    0 < direction.mainRatio aspect := by
  cases direction with
  | horizontal => exact positive
  | vertical =>
    rw [Direction.mainRatio, Scalar.literal_one]
    positivity

variable {ratio : StackChild ℝ (Element ℝ) → ℝ}

/-- An expanding child of a ratio asks for that ratio and nothing else. -/
theorem Stack.mapM_item
    (expanding : ∀ child ∈ stack.children, child.size = none ∧ child.expand = true)
    (positive : ∀ child ∈ stack.children, 0 < ratio child)
    (planned : ∀ child ∈ stack.children, child.element.layoutAspect = .ok (some (ratio child))) :
    (stack.map Element.measured).children.mapM (stack.map Element.measured).item =
      .ok ((stack.children.map fun child => stack.direction.mainRatio (ratio child)).map
        StackItem.ofAspect) := by
  rw [Except.mapM_eq_ok, List.map_map, Stack.map, List.forall₂_map_left_iff,
    List.forall₂_map_right_iff, List.forall₂_same]
  intro child hchild
  obtain ⟨size, expand⟩ := expanding child hchild
  have measured : (child.map Element.measured).element.layoutAspect = .ok (some (ratio child)) :=
    planned child hchild
  have kept : (child.map Element.measured).expand = true := expand
  have free : (child.map Element.measured).size = none := size
  rw [Stack.item, if_pos kept, measured]
  simp [free, positive child hchild, StackItem.ofAspect, Option.filter, bind, Except.bind, pure,
    Except.pure]

/-- A stack of expanding children seats each of them in a range as long as its ratio asks for. -/
theorem Stack.exists_layout (free : spec.fixedAspect = none) (nonempty : stack.children ≠ [])
    (expanding : ∀ child ∈ stack.children, child.size = none ∧ child.expand = true)
    (room : stack.spacing * (stack.children.length - 1 : ℕ) < 1)
    (positive : ∀ child ∈ stack.children, 0 < ratio child)
    (planned : ∀ child ∈ stack.children, child.element.layoutAspect = .ok (some (ratio child))) :
    ∃ length layout, 0 < length ∧
      (stack.map Element.measured).layout spec = .ok layout ∧ layout.length = some length ∧
      layout.ranges.map Limit.length =
        stack.children.map fun child => stack.direction.mainRatio (ratio child) / length := by
  have items := Stack.mapM_item expanding positive planned
  generalize wishes : stack.children.map (fun child => stack.direction.mainRatio (ratio child)) = ws
    at items
  have main : ∀ w ∈ ws, 0 < w := by
    intro w hw
    rw [← wishes] at hw
    obtain ⟨child, hchild, rfl⟩ := List.mem_map.mp hw
    exact stack.direction.mainRatio_pos (positive child hchild)
  obtain ⟨length, long, solved⟩ :=
    solveStack_expanding (by simpa [← wishes] using nonempty) main (by simpa [← wishes] using room)
  refine ⟨length, ⟨tracks (ws.map (· / length)) stack.spacing, some length⟩, long, ?_, rfl, ?_⟩
  · rw [Stack.layout, items]
    simp only [free, Option.map_none]
    exact congrArg Except.ok solved
  · rw [map_length_tracks, ← wishes, List.map_map]
    rfl

/-- The ratio of a stack is its length, seen from outside. -/
theorem Stack.measures (free : spec.fixedAspect = none) {layout : StackLayout ℝ} {length : ℝ}
    (long : 0 < length) (solved : (stack.map Element.measured).layout spec = .ok layout)
    (derived : layout.length = some length) :
    (Element.mk spec style (.stack stack)).aspect =
        .ok (some (stack.direction.mainRatio length)) ∧
      (Element.mk spec style (.stack stack)).autoLayout =
        .ok ⟨some (stack.direction.mainRatio length), none⟩ := by
  have aspect : (Element.mk spec style (.stack stack)).aspect =
      .ok (some (stack.direction.mainRatio length)) := by
    have seen : (stack.map Element.measured).aspectOf layout =
        some (stack.direction.mainRatio length) := by
      rw [Stack.aspectOf, derived]
      simp [Option.filter, long, Stack.map]
    rw [Element.aspect, Element.measured_eq]
    simp only [Element.measuredShape, Shape.map, Shape.sizing, Stack.sizing, Sizing.ofAspect, free,
      solved]
    exact congrArg Except.ok seen
  refine ⟨aspect, ?_⟩
  rw [Element.aspect, Element.measured_eq] at aspect
  rw [Element.autoLayout, Element.measured_eq]
  exact Sizing.autoLayout_ofAspect aspect

/-- A child of a stack has a slot of its ratio if its range is as long as the ratio asks for. -/
theorem Stack.hasAspect_seat {ctx : Context ℝ} {direction : Direction} {length aspect : ℝ}
    {range : Limit ℝ} (long : 0 < length) (positive : 0 < aspect) (coord : ctx.coord = .unit)
    (pixels : ctx.pixels.HasAspect (direction.mainRatio length))
    (fits : range.length = direction.mainRatio aspect / length) :
    (ctx.mapRect (direction.slot range)).HasAspect aspect := by
  have unit : ctx.coord.width = 1 ∧ ctx.coord.height = 1 := by
    rw [coord]
    simp [Rect.unit, Rect.width, Rect.height]
  have extent : 0 < range.length := by
    rw [fits]
    exact div_pos (direction.mainRatio_pos positive) long
  cases direction with
  | horizontal =>
    have width : (Direction.horizontal.slot range).width = range.length := rfl
    have height : (Direction.horizontal.slot range).height = 1 := by
      simp [Direction.slot, Rect.height]
    apply Context.hasAspect_mapRect pixels
    · simp [unit.1]
    · simp [unit.2]
    · simp [height]
    · rw [width, height, unit.1, unit.2, abs_of_pos extent, fits, abs_one]
      simp only [Direction.mainRatio]
      field_simp
  | vertical =>
    have width : (Direction.vertical.slot range).width = 1 := by
      simp [Direction.slot, Rect.width]
    have height : (Direction.vertical.slot range).height = range.length := rfl
    apply Context.hasAspect_mapRect pixels
    · simp [unit.1]
    · simp [unit.2]
    · rw [height]
      exact extent.ne'
    · rw [width, height, unit.1, unit.2, abs_of_pos extent, fits, abs_one]
      simp only [Direction.mainRatio, Scalar.literal_one]
      field_simp

/-- A seat of a stack is a child, moved into a range of the size that is meant for it. -/
theorem Stack.exists_of_mem_seated {layout : StackLayout ℝ} {size : StackChild ℝ (Element ℝ) → ℝ}
    (ranges : layout.ranges.map Limit.length = stack.children.map size) {seat : Element ℝ}
    (h : seat ∈ stack.seated Element.mapSpec layout) :
    ∃ child ∈ stack.children, ∃ range align, range.length = size child ∧
      seat = child.element.moved (some (stack.direction.slot range)) align := by
  obtain ⟨child, range, hzip, rfl⟩ := Stack.mem_seated h
  have fits : List.Forall₂ (· = ·) (layout.ranges.map Limit.length) (stack.children.map size) := by
    rw [List.forall₂_eq_eq_eq]
    exact ranges
  rw [List.forall₂_map_left_iff, List.forall₂_map_right_iff] at fits
  exact ⟨child, (List.of_mem_zip hzip).1, range, (stack.seat range child.element.spec).align,
    (List.forall₂_iff_zip.mp fits.flip).2 hzip, rfl⟩

end

/-! ## Trees -/

namespace Element

variable {parent : Context ℝ} {aspect : ℝ}

/-- A node in a slot of its planned ratio fills it, and so does everything below it if its children
do in the space that the node lays over its pixels. -/
theorem everywhere_of_seats {e : Element ℝ} {own : ℝ} {coord : Option (Rect ℝ)}
    {seats : List (Element ℝ)} (planned : e.layoutAspect = .ok (some aspect))
    (slot : (parent.slot e.spec).HasAspect aspect) (positive : 0 < own)
    (measured : e.aspect = .ok (some own)) (auto : e.autoLayout = .ok ⟨some own, coord⟩)
    (seated : e.seats = .ok seats)
    (below : (parent.child (e.spec.resolve ⟨some own, coord⟩)).pixels.HasAspect own →
      ∀ child ∈ seats, child.Everywhere FillsSlot
        (parent.child (e.spec.resolve ⟨some own, coord⟩))) :
    e.Everywhere FillsSlot parent := by
  obtain rfl : e.spec.plannedAspect own = aspect := by
    simpa [layoutAspect_of_aspect measured] using planned
  have resolved := resolvedSpec_of_autoLayout auto
  have fixed : (e.spec.resolve ⟨some own, coord⟩).fixedAspect = some own := rfl
  obtain ⟨pixels, full⟩ := Context.child_of_hasAspect positive fixed slot
  exact .node ⟨_, _, planned, resolved, slot.aspect_eq, full⟩ resolved seated (below pixels)

/-- A frame fills its slot, and so does everything in it if its child does. -/
theorem everywhere_frame {spec : Spec ℝ} {style : Style ℝ} {frame : Frame ℝ (Element ℝ)} {inner : ℝ}
    (planned : (Element.mk spec style (.frame frame)).layoutAspect = .ok (some aspect))
    (slot : (parent.slot spec).HasAspect aspect) (free : spec.fixedAspect = none)
    (auto : spec.hasAutoCoord = true) (padding : 0 ≤ frame.padding) (margin : 0 ≤ frame.margin)
    (positive : 0 < inner) (measured : frame.child.layoutAspect = .ok (some inner))
    (below : ∀ ctx : Context ℝ, (ctx.mapRect .unit).HasAspect inner →
      (frame.child.withRect .unit).Everywhere FillsSlot ctx) :
    (Element.mk spec style (.frame frame)).Everywhere FillsSlot parent := by
  obtain ⟨own, derived⟩ := Frame.measures free measured
  have around := Frame.aspectAround_pos padding margin positive
  apply everywhere_of_seats planned slot around own derived rfl
  intro pixels seat hseat
  obtain rfl := List.mem_singleton.mp hseat
  apply below
  apply Frame.hasAspect_seat padding margin positive _ pixels
  simp [Context.child, Spec.resolve, auto, Spec.coordRect]

/-- A stack of expanding children fills its slot, and so does everything in it if its children
do. -/
theorem everywhere_stack {spec : Spec ℝ} {style : Style ℝ} {stack : Stack ℝ (Element ℝ)}
    {inner : StackChild ℝ (Element ℝ) → ℝ}
    (planned : (Element.mk spec style (.stack stack)).layoutAspect = .ok (some aspect))
    (slot : (parent.slot spec).HasAspect aspect) (free : spec.fixedAspect = none)
    (plain : spec.coord = none) (nonempty : stack.children ≠ [])
    (expanding : ∀ child ∈ stack.children, child.size = none ∧ child.expand = true)
    (room : stack.spacing * (stack.children.length - 1 : ℕ) < 1)
    (positive : ∀ child ∈ stack.children, 0 < inner child)
    (measured : ∀ child ∈ stack.children, child.element.layoutAspect = .ok (some (inner child)))
    (below : ∀ child ∈ stack.children, ∀ (ctx : Context ℝ) (rect : Rect ℝ) (align : Align ℝ),
      (ctx.mapRect rect).HasAspect (inner child) →
        (child.element.moved (some rect) align).Everywhere FillsSlot ctx) :
    (Element.mk spec style (.stack stack)).Everywhere FillsSlot parent := by
  obtain ⟨length, layout, long, solved, derived, ranges⟩ :=
    Stack.exists_layout free nonempty expanding room positive measured
  obtain ⟨own, auto⟩ := Stack.measures free long solved derived
  have seated : (Element.mk spec style (.stack stack)).seats =
      .ok (stack.seated Element.mapSpec layout) := by
    rw [Element.seats, Shape.seats, solved]
    rfl
  apply everywhere_of_seats planned slot (stack.direction.mainRatio_pos long) own auto seated
  intro pixels seat hseat
  obtain ⟨child, hchild, range, align, fits, rfl⟩ := Stack.exists_of_mem_seated ranges hseat
  apply below child hchild
  apply Stack.hasAspect_seat long (positive child hchild) _ pixels fits
  simp [Context.child, Spec.resolve, plain, Spec.hasAutoCoord, Spec.coordRect]

/-- A tree whose ratios are all determined by its leaves has a positive ratio. -/
theorem Snug.exists_aspect {e : Element ℝ} (snug : e.Snug) :
    ∃ aspect, 0 < aspect ∧ e.aspect = .ok (some aspect) := by
  induction snug with
  | leaf childless measured positive => exact ⟨_, positive, measured⟩
  | @frame spec style frame free auto padding margin child ih =>
    obtain ⟨aspect, positive, measured⟩ := ih
    have around := plannedAspect_pos positive frame.child.spec
    exact ⟨_, Frame.aspectAround_pos padding margin around,
      (Frame.measures free (layoutAspect_of_aspect measured)).1⟩
  | stack free plain nonempty expanding room children ih =>
    choose! aspect positive measured using ih
    obtain ⟨length, layout, long, solved, derived, -⟩ := Stack.exists_layout free nonempty expanding
      room (fun child hchild => plannedAspect_pos (positive child hchild) child.element.spec)
      (fun child hchild => layoutAspect_of_aspect (measured child hchild))
    exact ⟨_, Direction.mainRatio_pos _ long, (Stack.measures free long solved derived).1⟩

/-- A shape of a single tag with a positive ratio is such a tree. -/
theorem Snug.of_primitive {spec : Spec ℝ} {style : Style ℝ} {p : Primitive ℝ}
    (measured : p.aspect spec = some aspect) (positive : 0 < aspect) :
    Snug ⟨spec, style, .primitive p⟩ := by
  refine .leaf rfl ?_ positive
  rw [Element.aspect, measured_eq]
  exact congrArg Except.ok measured

/-- In a slot of the ratio that its parent plans with, every node of such a tree fills its slot. -/
theorem Snug.everywhere {e : Element ℝ} (snug : e.Snug) {rect : Option (Rect ℝ)} {align : Align ℝ}
    (planned : e.layoutAspect = .ok (some aspect))
    (slot : (parent.slot (e.moved rect align).spec).HasAspect aspect) :
    (e.moved rect align).Everywhere FillsSlot parent := by
  rw [← layoutAspect_moved e rect align] at planned
  induction snug generalizing parent rect align aspect with
  | leaf childless measured positive =>
    have same := measured
    rw [Element.aspect, ← sizing_moved _ rect align] at same
    have seatless := childless
    rw [← seats_moved _ rect align] at seatless
    obtain ⟨coord, auto⟩ := autoLayout_of_childless (children_of_seats seatless) same
    exact everywhere_of_seats planned slot positive same auto seatless (by simp)
  | @frame spec style frame free auto padding margin child ih =>
    obtain ⟨own, positive, measured⟩ := child.exists_aspect
    apply everywhere_frame planned slot free auto padding margin (plannedAspect_pos positive _)
      (layoutAspect_of_aspect measured)
    intro ctx inner
    have seated : (frame.child.withRect .unit).layoutAspect =
        .ok (some (frame.child.spec.plannedAspect own)) := by
      rw [← layoutAspect_of_aspect measured]
      exact layoutAspect_moved frame.child (some .unit) frame.child.spec.align
    exact ih seated inner
  | stack free plain nonempty expanding room children ih =>
    have aspects := fun child hchild => (children child hchild).exists_aspect
    choose! own positive measured using aspects
    apply everywhere_stack planned slot free plain nonempty expanding room
      (fun child hchild => plannedAspect_pos (positive child hchild) child.element.spec)
      (fun child hchild => layoutAspect_of_aspect (measured child hchild))
    intro child hchild ctx rect align inner
    have seated : (child.element.moved (some rect) align).layoutAspect =
        .ok (some (child.element.spec.plannedAspect (own child))) := by
      rw [layoutAspect_moved]
      exact layoutAspect_of_aspect (measured child hchild)
    exact ih child hchild seated inner

end Element

end SvgLayout
