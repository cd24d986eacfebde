import SvgLayout.Proofs.Element.Parts
import SvgLayout.Proofs.Geometry.FullFit
import SvgLayout.Proofs.Scalar.Extended

/-!
# Resolved specs

A resolved spec holds everything that is derived from the content of its node: the ratio, and the
space. A node that is given its own resolved spec measures what it measured before, derives nothing
any more, and is drawn as before. Of all shapes only a stack reads its ratio again when it is drawn,
where it is the length of the stack. That length is the one that the division of the stack derives
by itself, as long as the reciprocal of a reciprocal is exact.

## Main definitions

* `ExactReciprocals` — a positive number is the reciprocal of its reciprocal.
* `Element.replaceSpec` — a node with another spec, as it stands.

## Main statements

* `solveStack_length` — a stack that is given its own length is divided as before.
* `Shape.sizing_resolve` — by its resolved spec a shape wants the ratio that was resolved.
* `Stack.layout_resolve` — by its resolved spec a stack is divided as before.
* `resolved_spec_is_neutral` — resolving is idempotent, and changes nothing that is drawn.
-/

namespace SvgLayout

variable {α ε : Type}

/-! ## Resolved specs -/

namespace Spec

variable (spec : Spec α) (layout : AutoLayout α)

/-- A resolved ratio is given. -/
@[simp] theorem fixedAspect_resolve : (spec.resolve layout).fixedAspect = layout.aspect := by
  cases h : layout.aspect <;> simp [resolve, fixedAspect, h]

@[simp] theorem hasAutoAspect_resolve : (spec.resolve layout).hasAutoAspect = false := by
  cases h : layout.aspect <;> simp [resolve, hasAutoAspect, h]

@[simp] theorem hasAutoCoord_resolve : (spec.resolve layout).hasAutoCoord = false := by
  rw [resolve, hasAutoCoord]
  cases auto : spec.hasAutoCoord with
  | true => cases h : layout.coord <;> simp
  | false => simpa [hasAutoCoord] using auto

/-- A resolved spec is resolved by its own ratio, whatever space is derived. -/
theorem resolve_resolve {other : AutoLayout α} (same : other.aspect = layout.aspect) :
    (spec.resolve layout).resolve other = spec.resolve layout := by
  have given := spec.hasAutoCoord_resolve layout
  rw [resolve, given, same]
  rfl

end Spec

variable [Scalar α]

/-! ## Stacks -/

/-- Shares that are divided by a length they have are the same shares. -/
theorem divideStack_length (items : List (StackItem α)) (room : α) (length : Option α) :
    divideStack items room (divideStack items room length).2 = divideStack items room length := by
  cases settled : isSettled items (Scalar.sum (items.map StackItem.share)) with
  | true => simp [divideStack, settled, Option.or_assoc]
  | false =>
    cases length with
    | some l => simp [divideStack, settled]
    | none =>
      cases fitting : fittingLength items room with
      | some l => simp [divideStack, settled, fitting]
      | none => simp [divideStack, settled, fitting]

/-- A stack that is given the length it has is divided as before. -/
theorem solveStack_length (items : List (StackItem α)) (gap : α) (length : Option α) :
    let layout := solveStack items gap length
    solveStack items gap layout.length = layout := by
  cases empty : items.isEmpty with
  | true => simp [solveStack, empty]
  | false => simp [solveStack, empty, divideStack_length]

/-- So it is if that length is only given when it is of some kind. -/
theorem solveStack_filter_length (items : List (StackItem α)) (gap : α) (kind : α → Bool) :
    let layout := solveStack items gap none
    solveStack items gap (layout.length.filter kind) = layout := by
  intro layout
  cases length : layout.length with
  | none => rfl
  | some l =>
    cases given : kind l with
    | true =>
      rw [Option.filter_some, if_pos given, ← length]
      exact solveStack_length items gap none
    | false =>
      rw [Option.filter_some, if_neg (by simp [given])]

variable (α) in
/-- The reciprocal of the reciprocal of a positive number is that number. -/
def ExactReciprocals : Prop :=
  ∀ x : α, 0.0 < x → 1.0 / (1.0 / x) = x

/-- The reciprocals of the real numbers are exact. -/
theorem exactReciprocals_real : ExactReciprocals ℝ := by
  intro x _
  simp

/-- So are those of the real numbers with infinities. -/
theorem exactReciprocals_extended : ExactReciprocals Extended := by
  intro x positive
  cases x with
  | nan => exact False.elim positive
  | infinite negative =>
    obtain rfl : negative = false := by simpa using positive
    have reciprocal : (1.0 : Extended) / .infinite false = .real 0 := by
      rw [Extended.ofScientific_eq]
      rfl
    rw [reciprocal, Extended.ofScientific_eq]
    exact Extended.real_div_zero (by norm_num)
  | real x =>
    have nonzero : x ≠ 0 := ne_of_gt (by simpa using positive)
    simp [Extended.real_div, nonzero]

/-! ## Measures -/

variable {spec : Spec α} {layout : AutoLayout α}

omit [Scalar α] in
theorem Sizing.autoLayout_ofAspect_eq_ok {aspect : Except (LayoutError α) (Option α)} :
    (Sizing.ofAspect aspect).autoLayout = .ok layout ↔
      aspect = .ok layout.aspect ∧ layout.coord = none := by
  rw [Sizing.ofAspect, Except.map_eq_ok]
  constructor
  · rintro ⟨ratio, rfl, rfl⟩
    exact ⟨rfl, rfl⟩
  · rintro ⟨known, spaceless⟩
    exact ⟨layout.aspect, known, AutoLayout.ext rfl spaceless.symm⟩

/-- Of its spec a stack is divided by the given ratio only. -/
theorem Stack.layout_congr {a b : Spec α} (h : a.fixedAspect = b.fixedAspect)
    (stack : Stack α (Measured α)) : stack.layout a = stack.layout b := by
  rw [Stack.layout, Stack.layout, h]

/-- A group wants the same ratio whether or not its space is derived. -/
theorem Group.aspect_of_autoLayout {group : Group (Measured α)}
    (h : group.autoLayout spec true = .ok layout) :
    AutoLayout.aspect <$> group.autoLayout spec false = .ok layout.aspect := by
  cases derived : spec.hasAutoAspect with
  | true =>
    have same : group.autoLayout spec false = group.autoLayout spec true := by
      simp [Group.autoLayout, derived]
    rw [same, h]
    rfl
  | false =>
    have given : layout.aspect = spec.fixedAspect := by
      cases auto : spec.hasAutoCoord with
      | true =>
        simp only [Group.autoLayout, derived, auto, Bool.false_and, Bool.true_and, Bool.or_false,
          Bool.false_eq_true, if_false, Bool.not_true, Bool.and_false, Except.bind_eq_ok,
          Except.pure_eq_ok] at h
        obtain ⟨specs, -, rfl⟩ := h
        simp [Group.aspectOf, derived]
      | false =>
        simp only [Group.autoLayout, derived, auto, Bool.false_and, Bool.false_eq_true, if_false,
          Bool.not_false, Bool.and_self, if_true, Except.pure_eq_ok] at h
        rw [← h]
    simp [Group.autoLayout, derived, given]

/-- What a node wants and derives in one step is what it wants by itself. -/
theorem Shape.aspect_of_autoLayout {shape : Shape α (Measured α)}
    (h : (shape.sizing spec).autoLayout = .ok layout) :
    (shape.sizing spec).aspect = .ok layout.aspect := by
  cases shape with
  | group g => exact Group.aspect_of_autoLayout h
  | frame f =>
    simp only [Shape.sizing, Frame.sizing, Except.map_eq_ok] at h ⊢
    obtain ⟨child, measured, rfl⟩ := h
    cases given : spec.fixedAspect with
    | some ratio => simp [Frame.outerAspect, given]
    | none => exact Except.map_eq_ok.mpr ⟨child, measured, rfl⟩
  | _ => exact (Sizing.autoLayout_ofAspect_eq_ok.mp h).1

/-- A shape of a single tag wants the ratio that it wanted. -/
theorem Primitive.aspect_resolve {p : Primitive α} (h : p.aspect spec = layout.aspect) :
    p.aspect (spec.resolve layout) = layout.aspect := by
  cases p with
  | text content width =>
    rw [Primitive.aspect] at h ⊢
    rw [Spec.fixedAspect_resolve, ← h, Option.or_assoc, Option.or_self]
  | _ => exact Spec.fixedAspect_resolve spec layout

omit [Scalar α] in
/-- A ratio that was derived as none was not given. -/
private theorem not_given {given : Option α} {derived : Except (LayoutError α) (Option α)}
    (h : (match given with | some ratio => pure (some ratio) | none => derived) = .ok none) :
    given = none ∧ derived = .ok none := by
  cases given with
  | some ratio => simp at h
  | none => exact ⟨rfl, h⟩

/-- By its resolved spec a shape wants the ratio that was resolved. -/
theorem Shape.sizing_resolve {shape : Shape α (Measured α)}
    (h : (shape.sizing spec).autoLayout = .ok layout) :
    ∃ other, (shape.sizing (spec.resolve layout)).autoLayout = .ok other ∧
      other.aspect = layout.aspect := by
  cases shape with
  | group g =>
    refine ⟨⟨layout.aspect, none⟩, ?_, rfl⟩
    simp [Shape.sizing, Group.sizing, Group.autoLayout]
  | frame f =>
    simp only [Shape.sizing, Frame.sizing, Except.map_eq_ok] at h ⊢
    obtain ⟨child, measured, rfl⟩ := h
    refine ⟨_, ⟨child, measured, rfl⟩, ?_⟩
    simp [Frame.outerAspect, Option.or_assoc]
  | primitive p =>
    obtain ⟨aspect, -⟩ := Sizing.autoLayout_ofAspect_eq_ok.mp h
    refine ⟨⟨layout.aspect, none⟩, Sizing.autoLayout_ofAspect_eq_ok.mpr ⟨?_, rfl⟩, rfl⟩
    rw [Except.pure_eq_ok] at aspect ⊢
    exact Primitive.aspect_resolve aspect
  | arrow a =>
    refine ⟨⟨layout.aspect, none⟩, Sizing.autoLayout_ofAspect_eq_ok.mpr ⟨?_, rfl⟩, rfl⟩
    rw [Spec.fixedAspect_resolve]
    rfl
  | stack s =>
    obtain ⟨aspect, -⟩ := Sizing.autoLayout_ofAspect_eq_ok.mp h
    refine ⟨⟨layout.aspect, none⟩, Sizing.autoLayout_ofAspect_eq_ok.mpr ⟨?_, rfl⟩, rfl⟩
    rw [Spec.fixedAspect_resolve]
    cases unknown : layout.aspect with
    | some ratio => rfl
    | none =>
      rw [unknown] at aspect
      obtain ⟨given, derived⟩ := not_given aspect
      have same : (spec.resolve layout).fixedAspect = spec.fixedAspect := by
        rw [Spec.fixedAspect_resolve, unknown, given]
      rw [← derived, s.layout_congr same]
  | grid g =>
    obtain ⟨aspect, -⟩ := Sizing.autoLayout_ofAspect_eq_ok.mp h
    refine ⟨⟨layout.aspect, none⟩, Sizing.autoLayout_ofAspect_eq_ok.mpr ⟨?_, rfl⟩, rfl⟩
    rw [Spec.fixedAspect_resolve]
    cases unknown : layout.aspect with
    | some ratio => rfl
    | none =>
      rw [unknown] at aspect
      exact (not_given aspect).2

/-! ## Drawings -/

/-- The length that a stack takes from its ratio is the one it was derived from. -/
theorem Direction.mainRatio_mainRatio (exact : ExactReciprocals α) (direction : Direction)
    {length : α} (positive : 0.0 < length) :
    direction.mainRatio (direction.mainRatio length) = length := by
  cases direction with
  | horizontal => rfl
  | vertical => exact exact length positive

/-- The ratio of a stack, taken as a length, is the length it comes from. -/
theorem Stack.map_mainRatio_aspectOf (exact : ExactReciprocals α) (stack : Stack α ε)
    (layout : StackLayout α) :
    (stack.aspectOf layout).map stack.direction.mainRatio =
      layout.length.filter fun l => decide (0.0 < l) := by
  rw [Stack.aspectOf, Option.map_map]
  refine (Option.map_congr ?_).trans (congrFun Option.map_id _)
  intro length hlength
  have positive : 0.0 < length := by
    simpa using (Option.mem_filter_iff.mp hlength).2
  exact stack.direction.mainRatio_mainRatio exact positive

/-- By its resolved spec a stack is divided as before. -/
theorem Stack.layout_resolve (exact : ExactReciprocals α) {stack : Stack α (Measured α)}
    (h : (stack.sizing spec).aspect = .ok layout.aspect) :
    stack.layout (spec.resolve layout) = stack.layout spec := by
  cases given : spec.fixedAspect with
  | some ratio =>
    have known : some ratio = layout.aspect := by
      simpa [Stack.sizing, Sizing.ofAspect, given] using h
    exact stack.layout_congr (by rw [Spec.fixedAspect_resolve, given, known])
  | none =>
    simp only [Stack.sizing, Sizing.ofAspect, given, Except.map_eq_ok] at h
    obtain ⟨divided, hdivided, derived⟩ := h
    have measured := hdivided
    simp only [Stack.layout, given, Except.bind_eq_ok, Except.pure_eq_ok] at measured
    obtain ⟨items, hitems, rfl⟩ := measured
    rw [hdivided, Stack.layout, hitems, Spec.fixedAspect_resolve, ← derived,
      stack.map_mainRatio_aspectOf exact]
    exact congrArg Except.ok (solveStack_filter_length items stack.spacing _)

variable [NumberText α]

/-- Of its spec a node draws only how it divides itself, if it is a stack. -/
theorem Shape.draw_eq_of_layout {a b : Spec α} {style : Style α} {shape : Shape α (Drawable α)}
    (h : ∀ stack, shape = .stack stack →
      (stack.map (·.element.measured)).layout a = (stack.map (·.element.measured)).layout b) :
    shape.draw a style = shape.draw b style := by
  funext ctx
  cases shape with
  | stack stack => simp [Shape.draw, Shape.content, Stack.parts, h stack rfl]
  | _ => rfl

/-! ## Trees -/

namespace Element

def replaceSpec (e : Element α) (spec : Spec α) : Element α :=
  e.mapSpec fun _ => spec

variable {e : Element α} {resolved : Spec α}

omit [NumberText α] in
/-- What a node derives is what its shape derives by its spec. -/
theorem resolvedSpec_eq_ok :
    e.resolvedSpec = .ok resolved ↔
      ∃ layout, (e.measuredShape.sizing e.spec).autoLayout = .ok layout ∧
        e.spec.resolve layout = resolved := by
  rw [resolvedSpec, Measured.resolvedSpec, Except.map_eq_ok, measured_eq]

omit [NumberText α] in
/-- A resolved spec is resolved to itself. -/
theorem resolvedSpec_replaceSpec (h : e.resolvedSpec = .ok resolved) :
    (e.replaceSpec resolved).resolvedSpec = .ok resolved := by
  obtain ⟨layout, derived, rfl⟩ := resolvedSpec_eq_ok.mp h
  obtain ⟨other, again, same⟩ := Shape.sizing_resolve derived
  exact resolvedSpec_eq_ok.mpr ⟨other, again, e.spec.resolve_resolve layout same⟩

omit [NumberText α] in
/-- A parent plans with the same ratio. -/
theorem layoutAspect_replaceSpec (h : e.resolvedSpec = .ok resolved) :
    (e.replaceSpec resolved).layoutAspect = e.layoutAspect := by
  obtain ⟨layout, derived, rfl⟩ := resolvedSpec_eq_ok.mp h
  obtain ⟨other, again, same⟩ := Shape.sizing_resolve derived
  have before : e.measured.sizing.aspect = .ok layout.aspect := by
    rw [measured_eq]
    exact Shape.aspect_of_autoLayout derived
  have after : (e.replaceSpec (e.spec.resolve layout)).measured.sizing.aspect =
      .ok layout.aspect := by
    rw [measured_eq, ← same]
    exact Shape.aspect_of_autoLayout again
  rw [layoutAspect, layoutAspect, Measured.layoutAspect_eq, Measured.layoutAspect_eq, before, after,
    measured_eq, measured_eq]
  rfl

/-- A node is drawn as before. -/
theorem draw_replaceSpec (exact : ExactReciprocals α) (h : e.resolvedSpec = .ok resolved) :
    (e.replaceSpec resolved).draw = e.draw := by
  obtain ⟨layout, derived, rfl⟩ := resolvedSpec_eq_ok.mp h
  have aspect := Shape.aspect_of_autoLayout derived
  rw [draw_eq, draw_eq]
  refine Shape.draw_eq_of_layout ?_
  intro stack drawn
  have shape : e.measuredShape = .stack (stack.map (·.element.measured)) := by
    have again := congrArg (Shape.map fun d : Drawable α => d.element.measured) drawn
    rw [drawableShape, Shape.map_map] at again
    exact again
  rw [shape] at aspect
  exact Stack.layout_resolve exact aspect

end Element

/-- Resolving a spec is idempotent: a node with its whole spec replaced by the resolved one resolves
to the same spec, and its parent plans with the same ratio. Where reciprocals are exact it is also
drawn as before, in every context and from every registry, however drawing ends. A stack in
particular that is given the length that its division derives has the same ranges and length. -/
theorem resolved_spec_is_neutral :
    (∀ (e : Element α) (resolved : Spec α), e.resolvedSpec = .ok resolved →
      let again := e.replaceSpec resolved
      again.resolvedSpec = .ok resolved ∧ again.layoutAspect = e.layoutAspect ∧
        (ExactReciprocals α → ∀ (ctx : Context α) (r : Registry),
          (again.draw ctx).outcome r = (e.draw ctx).outcome r)) ∧
    ∀ (items : List (StackItem α)) (gap : α) (length : Option α),
      let layout := solveStack items gap length
      solveStack items gap layout.length = layout := by
  constructor
  · intro e resolved h again
    refine ⟨Element.resolvedSpec_replaceSpec h, Element.layoutAspect_replaceSpec h, ?_⟩
    intro exact ctx r
    rw [Element.draw_replaceSpec exact h]
  · exact solveStack_length

/-! ## A tower -/

omit [NumberText α] in
/-- A frame above a text, which the width of the text makes a tower. -/
def tower : Element α :=
  let text : Element α := ⟨.plain, .empty, .primitive (.text "tower" 3.0)⟩
  let frame : Element α := ⟨Spec.plain.withAutoCoord, .empty, .frame ⟨text, 0.5, 0.0, none, none⟩⟩
  ⟨.plain, .empty,
    .stack ⟨.vertical, [⟨frame, none, true⟩, ⟨text, some 0.25, true⟩], 0.1, none, false⟩⟩

/-- In both exact number systems reciprocals are exact. The ratio of the tower is derived, and given
to it as its own ratio it changes nothing. -/
theorem resolved_spec_is_neutral_tower :
    ExactReciprocals Extended ∧ ExactReciprocals ℝ ∧
      ∃ resolved : Spec ℝ, tower.resolvedSpec = .ok resolved ∧
      (tower.replaceSpec resolved).resolvedSpec = .ok resolved ∧
      (tower.replaceSpec resolved).layoutAspect = tower.layoutAspect ∧
      ∀ (ctx : Context ℝ) (r : Registry),
        ((tower.replaceSpec resolved).draw ctx).outcome r = (tower.draw ctx).outcome r := by
  obtain ⟨resolved, h⟩ : ∃ resolved : Spec ℝ, tower.resolvedSpec = .ok resolved := ⟨_, rfl⟩
  obtain ⟨again, planned, drawn⟩ := resolved_spec_is_neutral.1 tower resolved h
  exact ⟨exactReciprocals_extended, exactReciprocals_real, resolved, h, again, planned,
    drawn exactReciprocals_real⟩

end SvgLayout
