import SvgLayout.Proofs.Element.Nodes
import SvgLayout.Proofs.Element.Resolved

/-!
# Measuring in a single pass

A node is resolved in one pass, which derives its ratio and its space together. The two can also be
asked for one after the other. Both ways agree wherever the single pass succeeds. The single pass
fails where one of the two questions fails, and for one more reason: a frame always looks at its
child, although a frame of a given ratio whose space is not derived needs nothing of it.

That the two ways agree at a node does not make them agree on a tree, since a node that asks twice
also has children that ask twice, and these may fail in another order. What carries over is that
every result of the one is a result of the other.

## Main definitions

* `Except.Refines` — every result of one computation is a result of another.
* `Sizing.separately` — the ratio and the space, asked for one after the other.
* `Element.measuredApart` — a tree measured with two questions at every node.

## Main statements

* `Shape.separately_of_autoLayout`, `Shape.autoLayout_of_separately` — the two ways at one node.
* `Shape.sizing_refines` — a node measures whatever it measures from children that measure less.
* `Element.measured_refines_apart`, `Element.apart_refines_measured` — the two ways on a tree.
* `single_pass_agrees` — the single pass as a whole.
-/

/-! ## Results in common -/

namespace Except

variable {ε α β γ : Type}

/-- Every result of the first computation is a result of the second. Errors may differ. -/
def Refines (x y : Except ε α) : Prop :=
  ∀ a, x = .ok a → y = .ok a

namespace Refines

theorem refl (x : Except ε α) : x.Refines x :=
  fun _ h => h

theorem trans {x y z : Except ε α} (h : x.Refines y) (k : y.Refines z) : x.Refines z :=
  fun a hx => k a (h a hx)

theorem bind {x y : Except ε α} {f g : α → Except ε β} (h : x.Refines y)
    (k : ∀ a, (f a).Refines (g a)) : (x >>= f).Refines (y >>= g) := by
  intro b result
  obtain ⟨a, hx, hf⟩ := bind_eq_ok.mp result
  exact bind_eq_ok.mpr ⟨a, h a hx, k a b hf⟩

theorem map {x y : Except ε α} (h : x.Refines y) (f : α → β) : (f <$> x).Refines (f <$> y) := by
  intro b result
  obtain ⟨a, hx, hf⟩ := map_eq_ok.mp result
  exact map_eq_ok.mpr ⟨a, h a hx, hf⟩

theorem mapM {f g : γ → Except ε α} {xs : List γ} (h : ∀ x ∈ xs, (f x).Refines (g x)) :
    (xs.mapM f).Refines (xs.mapM g) := by
  induction xs with
  | nil => exact refl _
  | cons x xs ih =>
    obtain ⟨head, tail⟩ := List.forall_mem_cons.mp h
    rw [List.mapM_cons, List.mapM_cons]
    exact head.bind fun _ => (ih tail).bind fun _ => refl _

end Refines

theorem map_eq_error {f : α → β} {x : Except ε α} {e : ε} : f <$> x = .error e ↔ x = .error e := by
  cases x <;> simp [Functor.map, Except.map]

end Except

namespace SvgLayout

open Except (Refines)

variable {α : Type}

/-! ## The two ways at one node -/

/-- The ratio and, if the spec asks for it, the space, asked for one after the other. -/
def Sizing.separately (spec : Spec α) (sizing : Sizing α) :
    Except (LayoutError α) (AutoLayout α) := do
  let coord ← if spec.hasAutoCoord then sizing.autoCoord else pure none
  let aspect ← sizing.aspect
  pure ⟨aspect, coord⟩

theorem Sizing.separately_eq_ok {spec : Spec α} {sizing : Sizing α} {layout : AutoLayout α} :
    sizing.separately spec = .ok layout ↔
      sizing.aspect = .ok layout.aspect ∧
        if spec.hasAutoCoord then sizing.autoCoord = .ok layout.coord else layout.coord = none := by
  rw [separately]
  cases auto : spec.hasAutoCoord with
  | true =>
    simp only [if_true, Except.bind_eq_ok, Except.pure_eq_ok]
    constructor
    · rintro ⟨coord, hcoord, aspect, haspect, rfl⟩
      exact ⟨haspect, hcoord⟩
    · rintro ⟨haspect, hcoord⟩
      exact ⟨_, hcoord, _, haspect, rfl⟩
  | false =>
    simp only [Bool.false_eq_true, if_false, Except.bind_eq_ok, Except.pure_eq_ok]
    constructor
    · rintro ⟨coord, rfl, aspect, haspect, rfl⟩
      exact ⟨haspect, rfl⟩
    · rintro ⟨haspect, hcoord⟩
      exact ⟨_, rfl, _, haspect, AutoLayout.ext rfl hcoord.symm⟩

/-- A space that is not asked for is not resolved. -/
theorem Spec.resolve_congr {spec : Spec α} {a b : AutoLayout α} (aspect : a.aspect = b.aspect)
    (coord : spec.hasAutoCoord = true → a.coord = b.coord) : spec.resolve a = spec.resolve b := by
  rw [resolve, resolve, aspect]
  cases auto : spec.hasAutoCoord with
  | true => rw [coord auto]
  | false => rfl

def Shape.IsFrame {ε : Type} : Shape α ε → Prop
  | frame _ => True
  | _ => False

theorem Shape.isFrame_map {ε β : Type} {f : ε → β} {shape : Shape α ε} :
    (shape.map f).IsFrame ↔ shape.IsFrame := by
  cases shape <;> rfl

variable [Scalar α] {spec : Spec α}

/-- A group whose space is derived visits its children, unless it lacks an only child. -/
theorem Group.autoLayout_of_hasAutoCoord (auto : spec.hasAutoCoord = true)
    (group : Group (Measured α)) :
    group.autoLayout spec true =
      if spec.hasAutoAspect && group.children.length != 1 then
        throw (.childCount "Group" 1 group.children.length)
      else
        (fun specs => ⟨aspectOf spec specs (specBounds specs), specBounds specs⟩) <$>
          group.uprightSpecs := by
  simp [autoLayout, auto]

/-- A group that takes the ratio of its child derives its space for that, asked or not. -/
theorem Group.autoLayout_false (derived : spec.hasAutoAspect = true) (group : Group (Measured α)) :
    group.autoLayout spec false = group.autoLayout spec true := by
  simp [autoLayout, derived]

/-- What a node derives in one pass it derives when asked twice, as far as its spec asks for it. -/
theorem Shape.separately_of_autoLayout {shape : Shape α (Measured α)} {layout : AutoLayout α}
    (h : (shape.sizing spec).autoLayout = .ok layout) :
    (shape.sizing spec).aspect = .ok layout.aspect ∧
      (spec.hasAutoCoord = true → (shape.sizing spec).autoCoord = .ok layout.coord) := by
  refine ⟨Shape.aspect_of_autoLayout h, fun auto => ?_⟩
  cases shape with
  | group g =>
    have visited : g.autoLayout spec true = .ok layout := h
    rw [Group.autoLayout_of_hasAutoCoord auto] at visited
    by_cases lacking : (spec.hasAutoAspect && g.children.length != 1) = true
    · rw [if_pos lacking, Except.throw_eq_ok] at visited
      exact visited.elim
    · rw [if_neg lacking, Except.map_eq_ok] at visited
      obtain ⟨specs, upright, rfl⟩ := visited
      exact Except.map_eq_ok.mpr ⟨specs, upright, rfl⟩
  | frame f =>
    simp only [Shape.sizing, Frame.sizing, Except.map_eq_ok] at h ⊢
    obtain ⟨child, measured, rfl⟩ := h
    exact ⟨child, measured, rfl⟩
  | _ =>
    obtain ⟨-, spaceless⟩ := Sizing.autoLayout_ofAspect_eq_ok.mp h
    rw [spaceless]
    rfl

/-- The single pass fails with an error of one of the two questions. The second one is only asked
if the space is derived, or of a frame. -/
theorem Shape.error_of_autoLayout {shape : Shape α (Measured α)} {err : LayoutError α}
    (h : (shape.sizing spec).autoLayout = .error err) :
    (shape.sizing spec).aspect = .error err ∨
      (spec.hasAutoCoord = true ∨ shape.IsFrame) ∧ (shape.sizing spec).autoCoord = .error err := by
  cases shape with
  | group g =>
    have failed : g.autoLayout spec true = .error err := h
    cases derived : spec.hasAutoAspect with
    | true =>
      refine .inl (Except.map_eq_error.mpr ?_)
      rw [Group.autoLayout_false derived, failed]
    | false =>
      cases auto : spec.hasAutoCoord with
      | true =>
        rw [Group.autoLayout_of_hasAutoCoord auto, derived, Bool.false_and,
          if_neg Bool.false_ne_true, Except.map_eq_error] at failed
        exact .inr ⟨.inl rfl, Except.map_eq_error.mpr failed⟩
      | false =>
        simp [Group.autoLayout, derived, auto, pure, Except.pure] at failed
  | frame f => exact .inr ⟨.inr trivial, Except.map_eq_error.mpr (Except.map_eq_error.mp h)⟩
  | _ => exact .inl (Except.map_eq_error.mp h)

/-- What a node derives when asked twice it derives in one pass, unless it is a frame whose space is
not derived. -/
theorem Shape.autoLayout_of_separately {shape : Shape α (Measured α)} {aspect : Option α}
    (frame : shape.IsFrame → spec.hasAutoCoord = true)
    (first : (shape.sizing spec).aspect = .ok aspect)
    (second : spec.hasAutoCoord = true → ∃ coord, (shape.sizing spec).autoCoord = .ok coord) :
    ∃ layout, (shape.sizing spec).autoLayout = .ok layout := by
  cases result : (shape.sizing spec).autoLayout with
  | ok layout => exact ⟨layout, rfl⟩
  | error err =>
    rcases Shape.error_of_autoLayout result with noAspect | ⟨asked, noCoord⟩
    · cases first.symm.trans noAspect
    · obtain ⟨coord, derived⟩ := second (asked.elim id frame)
      cases derived.symm.trans noCoord

/-! ## Measures of children -/

omit [Scalar α] in
/-- Every result of measuring one way is a result of measuring another way. -/
structure Sizing.Refines (a b : Sizing α) : Prop where
  aspect : a.aspect.Refines b.aspect
  autoCoord : a.autoCoord.Refines b.autoCoord
  autoLayout : a.autoLayout.Refines b.autoLayout

/-- Every result of one node, as far as its parent asks for it, is a result of another. -/
structure Measured.Refines (a b : Measured α) : Prop where
  spec : a.spec = b.spec
  aspect : a.sizing.aspect.Refines b.sizing.aspect
  autoCoord : a.sizing.autoCoord.Refines b.sizing.autoCoord
  resolvedSpec : a.resolvedSpec.Refines b.resolvedSpec

theorem Measured.Refines.layoutAspect {a b : Measured α} (h : a.Refines b) :
    a.layoutAspect.Refines b.layoutAspect := by
  rw [Measured.layoutAspect, Measured.layoutAspect, h.spec]
  exact h.aspect.map _

theorem Measured.Refines.uprightSpec {a b : Measured α} (h : a.Refines b) :
    a.uprightSpec.Refines b.uprightSpec :=
  h.resolvedSpec.map _

omit [Scalar α] in
theorem Sizing.Refines.ofAspect {a b : Except (LayoutError α) (Option α)} (h : a.Refines b) :
    (Sizing.ofAspect a).Refines (.ofAspect b) :=
  ⟨h, .refl _, h.map _⟩

variable {ε : Type} {f g : ε → Measured α}

theorem Group.sizing_refines {group : Group ε}
    (h : ∀ c ∈ group.children, (f c).Refines (g c)) :
    ((group.map f).sizing spec).Refines ((group.map g).sizing spec) := by
  have upright : (group.map f).uprightSpecs.Refines (group.map g).uprightSpecs := by
    rw [uprightSpecs, uprightSpecs, map, map, List.mapM_map, List.mapM_map]
    exact .mapM fun c hc => (h c hc).uprightSpec
  have layout (withCoord : Bool) :
      ((group.map f).autoLayout spec withCoord).Refines
        ((group.map g).autoLayout spec withCoord) := by
    have count : (group.map f).children.length = (group.map g).children.length := by
      simp [map]
    rw [autoLayout, autoLayout, count]
    split
    · exact .refl _
    · split
      · exact .refl _
      · exact upright.bind fun specs => .refl _
  exact ⟨(layout false).map _, upright.map _, layout true⟩

theorem Frame.sizing_refines {frame : Frame α ε} (h : (f frame.child).Refines (g frame.child)) :
    ((frame.map f).sizing spec).Refines ((frame.map g).sizing spec) := by
  have child := h.layoutAspect
  refine ⟨?_, child.map _, child.map _⟩
  rw [sizing, sizing]
  cases spec.fixedAspect with
  | some ratio => exact .refl _
  | none => exact child.map _

theorem Stack.sizing_refines {stack : Stack α ε}
    (h : ∀ c ∈ stack.children, (f c.element).Refines (g c.element)) :
    ((stack.map f).sizing spec).Refines ((stack.map g).sizing spec) := by
  have item (c) (hc : c ∈ stack.children) :
      ((stack.map f).item (c.map f)).Refines ((stack.map g).item (c.map g)) := by
    cases expand : c.expand with
    | true =>
      simp only [Stack.item, StackChild.map, map, expand, if_true]
      exact (h c hc).layoutAspect.bind fun aspect => .refl _
    | false =>
      simp only [Stack.item, StackChild.map, map, expand, Bool.false_eq_true, if_false]
      exact .refl _
  have layout : ((stack.map f).layout spec).Refines ((stack.map g).layout spec) := by
    rw [Stack.layout, Stack.layout, map, map, List.mapM_map, List.mapM_map]
    exact .bind (.mapM item) fun items => .refl _
  refine .ofAspect ?_
  cases spec.fixedAspect with
  | some ratio => exact .refl _
  | none => exact layout.map _

theorem Grid.sizing_refines {grid : Grid α ε}
    (h : ∀ row ∈ grid.rows, ∀ c ∈ row, (f c).Refines (g c)) :
    ((grid.map f).sizing spec).Refines ((grid.map g).sizing spec) := by
  have layout : (grid.map f).layout.Refines (grid.map g).layout := by
    have columns : columnCount (grid.map f).rows = columnCount (grid.map g).rows :=
      columnCount_congr (by simp [map, Function.comp_def])
    rw [Grid.layout, Grid.layout, columns]
    refine .bind (.refl _) fun _ => .bind ?_ fun _ => .bind ?_ fun aspects => .refl _
    · simpa [map] using .refl _
    · rw [map, map, List.mapM_map, List.mapM_map]
      refine .mapM fun row hrow => ?_
      rw [Function.comp_apply, Function.comp_apply, List.mapM_map, List.mapM_map]
      exact .mapM fun c hc => (h row hrow c hc).layoutAspect
  refine .ofAspect ?_
  cases spec.fixedAspect with
  | some ratio => exact .refl _
  | none => exact layout.map _

/-- A node measures from its children whatever it measures from children that measure less. -/
theorem Shape.sizing_refines {shape : Shape α ε} (h : ∀ c ∈ shape.children, (f c).Refines (g c)) :
    ((shape.map f).sizing spec).Refines ((shape.map g).sizing spec) := by
  cases shape with
  | primitive p => exact ⟨.refl _, .refl _, .refl _⟩
  | arrow a => exact ⟨.refl _, .refl _, .refl _⟩
  | group group => exact Group.sizing_refines fun c hc => h c (List.mem_append_right _ hc)
  | frame frame => exact Frame.sizing_refines (h _ (List.mem_singleton_self _))
  | stack stack => exact Stack.sizing_refines fun c hc => h _ (List.mem_map_of_mem hc)
  | grid grid =>
    exact Grid.sizing_refines fun row hrow c hc => h c (List.mem_flatten.mpr ⟨row, hrow, hc⟩)

/-! ## The two ways on a tree -/

namespace Element

/-- A tree measured with two questions at every node. -/
def measuredApart : Element α → Measured α :=
  fold fun spec _ shape =>
    let sizing := (shape.map Prod.snd).sizing spec
    ⟨spec, { sizing with autoLayout := sizing.separately spec }⟩

theorem measuredApart_eq (e : Element α) :
    e.measuredApart =
      let sizing := (e.shape.map measuredApart).sizing e.spec
      ⟨e.spec, { sizing with autoLayout := sizing.separately e.spec }⟩ := by
  rw [measuredApart, fold_eq, Shape.map_map]

/-- The spec of a node with its ratio and its space filled in, where both are asked for one after
the other at every node of the tree. -/
def resolvedApart (e : Element α) : Except (LayoutError α) (Spec α) :=
  e.measuredApart.resolvedSpec

/-- What a tree measures in one pass it measures with two questions at every node. -/
theorem measured_refines_apart : ∀ e : Element α, e.measured.Refines e.measuredApart := by
  refine induction_on fun e children => ?_
  have step : (e.measuredShape.sizing e.spec).Refines
      ((e.shape.map measuredApart).sizing e.spec) := Shape.sizing_refines children
  rw [measured_eq, measuredApart_eq]
  refine ⟨rfl, step.aspect, step.autoCoord, ?_⟩
  intro resolved result
  obtain ⟨layout, derived, rfl⟩ := Except.map_eq_ok.mp result
  obtain ⟨aspect, coord⟩ := Shape.separately_of_autoLayout (step.autoLayout layout derived)
  refine Except.map_eq_ok.mpr ⟨⟨layout.aspect, if e.spec.hasAutoCoord then layout.coord else none⟩,
    Sizing.separately_eq_ok.mpr ⟨aspect, ?_⟩, Spec.resolve_congr rfl fun auto => if_pos auto⟩
  cases auto : e.spec.hasAutoCoord with
  | true => exact coord auto
  | false => rfl

/-- Every frame of the tree derives its space. -/
def FramesDerive (e : Element α) : Prop :=
  ∀ node ∈ e.nodes, node.shape.IsFrame → node.spec.hasAutoCoord = true

/-- What a tree measures with two questions at every node it measures in one pass, if every frame
derives its space. -/
theorem apart_refines_measured :
    ∀ e : Element α, e.FramesDerive → e.measuredApart.Refines e.measured := by
  refine induction_on fun e ih frames => ?_
  obtain ⟨here, below⟩ := forall_nodes.mp frames
  have step : ((e.shape.map measuredApart).sizing e.spec).Refines
      (e.measuredShape.sizing e.spec) :=
    Shape.sizing_refines fun c hc => ih c hc (below c hc)
  rw [measured_eq, measuredApart_eq]
  refine ⟨rfl, step.aspect, step.autoCoord, ?_⟩
  intro resolved result
  obtain ⟨layout, derived, rfl⟩ := Except.map_eq_ok.mp result
  obtain ⟨first, second⟩ := Sizing.separately_eq_ok.mp derived
  have aspect := step.aspect _ first
  have coord (auto : e.spec.hasAutoCoord = true) :
      (e.measuredShape.sizing e.spec).autoCoord = .ok layout.coord :=
    step.autoCoord _ (by simpa [auto] using second)
  obtain ⟨single, pass⟩ := Shape.autoLayout_of_separately
    (fun frame => here (Shape.isFrame_map.mp frame)) aspect fun auto => ⟨_, coord auto⟩
  obtain ⟨sameAspect, sameCoord⟩ := Shape.separately_of_autoLayout pass
  refine Except.map_eq_ok.mpr ⟨single, pass, Spec.resolve_congr ?_ fun auto => ?_⟩
  · exact Except.ok.inj (sameAspect.symm.trans aspect)
  · exact Except.ok.inj ((sameCoord auto).symm.trans (coord auto))

end Element

/-- A node that derives its ratio and its space in one pass derives the same when asked for one
after the other, as far as its spec asks for the space. Whenever both questions have an answer the
single pass has one, unless the node is a frame whose space is not derived: a frame is measured
exactly if its child has a ratio to plan with. The single pass fails with an error of one of the two
questions. So the spec that a node resolves to is the one that it resolves to when both are asked
for separately at every node of the tree; and the other way round, if every frame derives its space.
-/
theorem single_pass_agrees (e : Element α) :
    (∀ layout, e.autoLayout = .ok layout →
      e.aspect = .ok layout.aspect ∧
        (e.spec.hasAutoCoord = true → e.autoCoord = .ok layout.coord)) ∧
    (∀ aspect, e.aspect = .ok aspect →
      (e.spec.hasAutoCoord = true → ∃ coord, e.autoCoord = .ok coord) →
      (e.shape.IsFrame → e.spec.hasAutoCoord = true) → ∃ layout, e.autoLayout = .ok layout) ∧
    (∀ frame, e.shape = .frame frame →
      ((∃ layout, e.autoLayout = .ok layout) ↔ ∃ aspect, frame.child.layoutAspect = .ok aspect)) ∧
    (∀ err, e.autoLayout = .error err →
      e.aspect = .error err ∨
        (e.spec.hasAutoCoord = true ∨ e.shape.IsFrame) ∧ e.autoCoord = .error err) ∧
    (∀ spec, e.resolvedSpec = .ok spec → e.resolvedApart = .ok spec) ∧
    (e.FramesDerive → ∀ spec, e.resolvedSpec = .ok spec ↔ e.resolvedApart = .ok spec) := by
  have frame : e.measuredShape.IsFrame ↔ e.shape.IsFrame := Shape.isFrame_map
  have onePass := e.measured_refines_apart.resolvedSpec
  rw [Element.autoLayout, Element.aspect, Element.autoCoord, Element.measured_eq]
  refine ⟨?_, ?_, ?_, ?_, onePass, ?_⟩
  · intro layout derived
    exact Shape.separately_of_autoLayout derived
  · intro aspect first second derives
    exact Shape.autoLayout_of_separately (fun h => derives (frame.mp h)) first second
  · intro framed shape
    rw [Element.measuredShape, shape]
    simp [Shape.map, Shape.sizing, Frame.sizing, Frame.map, Element.layoutAspect]
  · intro err failed
    rw [← frame]
    exact Shape.error_of_autoLayout failed
  · intro frames spec
    exact ⟨onePass spec, (e.apart_refines_measured frames).resolvedSpec spec⟩

/-- A text in a frame that derives its space, in a group that derives its ratio and its space. -/
def wrapped : Element α :=
  let text : Element α := ⟨.plain, .empty, .primitive (.text "wrapped" 3.0)⟩
  let frame : Element α := ⟨Spec.plain.withAutoCoord, .empty, .frame ⟨text, 0.5, 0.0, none, none⟩⟩
  ⟨{ Spec.plain.withAutoCoord with aspect := some .auto }, .empty,
    .group ⟨[frame], false, none, false⟩⟩

/-- A frame of a given ratio around a group that should take the ratio of its only child and has
none. -/
def barren : Element α :=
  let group : Element α := ⟨{ Spec.plain with aspect := some .auto }, .empty,
    .group ⟨[], false, none, false⟩⟩
  ⟨.ofAspect 2.0, .empty, .frame ⟨group, 0.5, 0.0, none, none⟩⟩

/-- The ways agree on the wrapped text. The barren frame has a ratio, and its space is not asked
for; but it is not measured in one pass. -/
theorem single_pass_agrees_wrapped :
    (∃ resolved : Spec ℝ, wrapped.resolvedSpec = .ok resolved ∧
      wrapped.resolvedApart = .ok resolved) ∧
    (∃ layout : AutoLayout ℝ, wrapped.autoLayout = .ok layout) ∧
    (∃ ratio, (barren : Element ℝ).aspect = .ok (some ratio)) ∧
    ¬∃ layout, (barren : Element ℝ).autoLayout = .ok layout := by
  obtain ⟨resolved, single⟩ : ∃ resolved : Spec ℝ, wrapped.resolvedSpec = .ok resolved := ⟨_, rfl⟩
  obtain ⟨aspect, coord⟩ : (∃ aspect : Option ℝ, wrapped.aspect = .ok aspect) ∧
      ∃ coord : Option (Rect ℝ), wrapped.autoCoord = .ok coord := ⟨⟨_, rfl⟩, ⟨_, rfl⟩⟩
  obtain ⟨aspect, first⟩ := aspect
  refine ⟨⟨resolved, single, (single_pass_agrees wrapped).2.2.2.2.1 resolved single⟩,
    (single_pass_agrees wrapped).2.1 aspect first (fun _ => coord) False.elim,
    ⟨_, rfl⟩, ?_⟩
  rw [(single_pass_agrees barren).2.2.1 _ rfl]
  rintro ⟨ratio, planned⟩
  cases planned

end SvgLayout
