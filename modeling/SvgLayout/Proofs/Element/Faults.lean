import SvgLayout.Element.Sizing
import SvgLayout.Proofs.Element.Nodes
import SvgLayout.Proofs.Layout.Tracks

/-!
# Faults of a tree

A group may take its ratio from its only child, and so it must have one. A grid may be given the
weights of its tracks, and so they must fit. A tree that breaks either of these rules anywhere has a
fault. Faults are the only reason why a tree cannot be measured; but a tree may be measured in spite
of one, since not every node needs all of its children for that.

## Main definitions

* `Shape.Raises`, `Element.Raises` — the errors that stand for the faults of a node and of a tree.
* `Except.FailsOnly`, `Sizing.FailsOnly` — what a computation may fail with.

## Main statements

* `Element.raises_iff` — the faults of a tree are those of its root and those below its children.
* `Shape.sizing_failsOnly` — a node is measured unless it is at fault or a child is not measured.
* `Element.measured_failsOnly` — a tree is measured unless it has a fault.
-/

/-! ## Failures -/

/-- The computation may fail with errors of one kind only. -/
def Except.FailsOnly {ε α : Type} (x : Except ε α) (E : ε → Prop) : Prop :=
  ∀ e, x = .error e → E e

namespace Except.FailsOnly

variable {ε α β : Type} {E : ε → Prop}

theorem pure (a : α) : (Pure.pure a : Except ε α).FailsOnly E := by
  intro e h
  cases h

theorem throw {e : ε} (h : E e) : (MonadExcept.throw e : Except ε α).FailsOnly E := by
  rintro _ ⟨⟩
  exact h

theorem mono {E' : ε → Prop} {x : Except ε α} (hx : x.FailsOnly E) (h : ∀ e, E e → E' e) :
    x.FailsOnly E' := by
  intro e he
  exact h e (hx e he)

theorem bind {x : Except ε α} {f : α → Except ε β} (hx : x.FailsOnly E)
    (hf : ∀ a, (f a).FailsOnly E) : (x >>= f).FailsOnly E := by
  intro e h
  cases x with
  | error e' =>
    obtain rfl : e' = e := Except.error.inj h
    exact hx e' rfl
  | ok a => exact hf a e h

theorem map {x : Except ε α} {f : α → β} (hx : x.FailsOnly E) : (f <$> x).FailsOnly E := by
  rw [map_eq_pure_bind]
  exact hx.bind fun a => .pure (f a)

/-- A list of computations fails only as one of them does. -/
theorem mapM {f : α → Except ε β} {xs : List α} (h : ∀ x ∈ xs, (f x).FailsOnly E) :
    (xs.mapM f).FailsOnly E := by
  induction xs with
  | nil => exact .pure []
  | cons x xs ih =>
    obtain ⟨hx, hxs⟩ := List.forall_mem_cons.mp h
    rw [List.mapM_cons]
    exact hx.bind fun y => (ih hxs).bind fun ys => .pure (y :: ys)

end Except.FailsOnly

namespace SvgLayout

variable {α ε : Type} [Scalar α]

/-! ## Faults -/

/-- The error of weights that are given, but too many, too few, or not all finite and positive. -/
def Grid.RaisesOn (axis : String) (weights : Option (List α)) (count : Nat)
    (err : LayoutError α) : Prop :=
  ∃ ws ∈ weights, (ws.length ≠ count ∨ ∃ w ∈ ws, Scalar.isPositive w = false) ∧
    err = .weightCount "Grid" axis count ws.length

namespace Shape

/-- The errors that stand for the faults of a node: a group that derives its ratio must have one
child, and the weights of a grid must fit its tracks. -/
def Raises (spec : Spec α) (err : LayoutError α) : Shape α ε → Prop
  | group g =>
    spec.hasAutoAspect = true ∧ g.children.length ≠ 1 ∧
      err = .childCount "Group" 1 g.children.length
  | grid g =>
    Grid.RaisesOn "column" g.widths (columnCount g.rows) err ∨
      Grid.RaisesOn "row" g.heights g.rows.length err
  | _ => False

/-- What its children are does not matter for the faults of a node. -/
@[simp] theorem raises_map {β : Type} (f : ε → β) {spec : Spec α} {err : LayoutError α}
    (shape : Shape α ε) : (shape.map f).Raises spec err ↔ shape.Raises spec err := by
  cases shape with
  | group g => simp [map, Raises, Group.map]
  | grid g =>
    have columns : columnCount (g.map f).rows = columnCount g.rows :=
      columnCount_congr (by simp [Grid.map])
    rw [map, Raises, Raises, columns]
    simp [Grid.map]
  | _ => rfl

end Shape

namespace Element

/-- The errors that stand for the faults of a tree. -/
def Raises (e : Element α) (err : LayoutError α) : Prop :=
  ∃ node ∈ e.nodes, node.shape.Raises node.spec err

/-- The faults of a tree are those of its root and those below its children. -/
theorem raises_iff {e : Element α} {err : LayoutError α} :
    e.Raises err ↔ e.shape.Raises e.spec err ∨ ∃ child ∈ e.shape.children, child.Raises err := by
  constructor
  · rintro ⟨node, hnode, h⟩
    rcases mem_nodes.mp hnode with rfl | ⟨child, hchild, hnode⟩
    · exact .inl h
    · exact .inr ⟨child, hchild, node, hnode, h⟩
  · rintro (h | ⟨child, hchild, node, hnode, h⟩)
    · exact ⟨e, mem_nodes.mpr (.inl rfl), h⟩
    · exact ⟨node, mem_nodes.mpr (.inr ⟨child, hchild, hnode⟩), h⟩

/-- A shape of a single tag has no fault. -/
theorem not_raises_primitive (spec : Spec α) (style : Style α) (p : Primitive α)
    {err : LayoutError α} : ¬(⟨spec, style, .primitive p⟩ : Element α).Raises err := by
  intro raised
  rcases raises_iff.mp raised with own | ⟨child, hchild, -⟩
  · exact own
  · cases hchild

end Element

/-! ## Measuring -/

/-- All measures may fail with errors of one kind only. -/
structure Sizing.FailsOnly (sizing : Sizing α) (E : LayoutError α → Prop) : Prop where
  aspect : sizing.aspect.FailsOnly E
  autoCoord : sizing.autoCoord.FailsOnly E
  autoLayout : sizing.autoLayout.FailsOnly E

variable {spec : Spec α} {E : LayoutError α → Prop}

omit [Scalar α] in
theorem Sizing.FailsOnly.mono {sizing : Sizing α} {E' : LayoutError α → Prop}
    (hs : sizing.FailsOnly E) (h : ∀ err, E err → E' err) : sizing.FailsOnly E' :=
  ⟨hs.aspect.mono h, hs.autoCoord.mono h, hs.autoLayout.mono h⟩

omit [Scalar α] in
theorem Sizing.failsOnly_ofAspect {aspect : Except (LayoutError α) (Option α)}
    (h : aspect.FailsOnly E) : (Sizing.ofAspect aspect).FailsOnly E :=
  ⟨h, .pure none, .map h⟩

namespace Measured

variable {m : Measured α}

theorem layoutAspect_failsOnly (h : m.sizing.FailsOnly E) : m.layoutAspect.FailsOnly E :=
  .map h.aspect

theorem uprightSpec_failsOnly (h : m.sizing.FailsOnly E) : m.uprightSpec.FailsOnly E :=
  .map (.map h.autoLayout)

end Measured

theorem Group.autoLayout_failsOnly {group : Group (Measured α)}
    (own : ∀ err, (Shape.group group).Raises spec err → E err)
    (measured : ∀ child ∈ group.children, child.sizing.FailsOnly E) (withCoord : Bool) :
    (group.autoLayout spec withCoord).FailsOnly E := by
  have specs : group.uprightSpecs.FailsOnly E :=
    .mapM fun child hchild => Measured.uprightSpec_failsOnly (measured child hchild)
  rw [autoLayout]
  split
  next fault =>
    rw [Bool.and_eq_true, bne_iff_ne] at fault
    exact .throw (own _ ⟨fault.1, fault.2, rfl⟩)
  next =>
    split
    next => exact .pure _
    next => exact specs.bind fun _ => .pure _

/-- A stack is divided unless a child is not measured. -/
theorem Stack.layout_failsOnly {stack : Stack α (Measured α)}
    (measured : ∀ child ∈ stack.children, child.element.sizing.FailsOnly E) :
    (stack.layout spec).FailsOnly E := by
  refine .bind (.mapM ?_) fun _ => .pure _
  intro child hchild
  rw [item]
  split
  next => exact .bind (Measured.layoutAspect_failsOnly (measured child hchild)) fun _ => .pure _
  next => exact .bind (.pure none) fun _ => .pure _

theorem Grid.checkWeights_failsOnly {axis : String} {weights : Option (List α)} {count : Nat}
    (own : ∀ err, RaisesOn axis weights count err → E err) :
    (checkWeights axis weights count).FailsOnly E := by
  cases weights with
  | none => exact .pure ()
  | some ws =>
    rw [checkWeights]
    split
    next => exact .pure ()
    next unfit =>
      refine .throw (own _ ⟨ws, rfl, ?_, rfl⟩)
      simpa [Classical.or_iff_not_imp_left] using unfit

/-- A grid is divided unless it is at fault or a child is not measured. -/
theorem Grid.layout_failsOnly {grid : Grid α (Measured α)}
    (own : ∀ err, (Shape.grid grid).Raises spec err → E err)
    (measured : ∀ child ∈ grid.rows.flatten, child.sizing.FailsOnly E) :
    grid.layout.FailsOnly E := by
  have columns := checkWeights_failsOnly fun err h => own err (.inl h)
  have rows := checkWeights_failsOnly fun err h => own err (.inr h)
  refine columns.bind fun _ => rows.bind fun _ => .bind (.mapM ?_) fun _ => .pure _
  intro row hrow
  refine .mapM fun child hchild => ?_
  exact Measured.layoutAspect_failsOnly (measured child (List.mem_flatten.mpr ⟨row, hrow, hchild⟩))

/-- A node is measured unless it is at fault or a child is not measured. -/
theorem Shape.sizing_failsOnly {shape : Shape α (Measured α)}
    (own : ∀ err, shape.Raises spec err → E err)
    (measured : ∀ child ∈ shape.children, child.sizing.FailsOnly E) :
    (shape.sizing spec).FailsOnly E := by
  cases shape with
  | primitive p => exact Sizing.failsOnly_ofAspect (.pure _)
  | arrow a => exact Sizing.failsOnly_ofAspect (.pure _)
  | group g =>
    have children : ∀ child ∈ g.children, child.sizing.FailsOnly E :=
      fun child hchild => measured child (List.mem_append_right _ hchild)
    refine ⟨.map (Group.autoLayout_failsOnly own children false), .map (.mapM ?_),
      Group.autoLayout_failsOnly own children true⟩
    intro child hchild
    exact Measured.uprightSpec_failsOnly (children child hchild)
  | frame f =>
    have child := Measured.layoutAspect_failsOnly (measured f.child (List.mem_singleton_self _))
    refine ⟨?_, .map child, .map child⟩
    cases given : spec.fixedAspect with
    | some ratio => simpa [sizing, Frame.sizing, given] using .pure (some ratio)
    | none => simpa [sizing, Frame.sizing, given] using .map child
  | stack s =>
    apply Sizing.failsOnly_ofAspect
    split
    next => exact .pure _
    next =>
      refine .map (Stack.layout_failsOnly fun child hchild => ?_)
      exact measured _ (List.mem_map_of_mem hchild)
  | grid g =>
    apply Sizing.failsOnly_ofAspect
    split
    next => exact .pure _
    next => exact .map (Grid.layout_failsOnly own measured)

/-- A tree is measured unless it has a fault. -/
theorem Element.measured_failsOnly (e : Element α) : e.measured.sizing.FailsOnly e.Raises := by
  have node : Hereditary fun e : Element α => e.measured.sizing.FailsOnly e.Raises := by
    intro e ih
    rw [measured_eq]
    refine Shape.sizing_failsOnly ?_ ?_
    · intro err own
      exact raises_iff.mpr (.inl ((e.shape.raises_map measured).mp own))
    · intro m hm
      rw [measuredShape, Shape.children_map] at hm
      obtain ⟨child, hchild, rfl⟩ := List.mem_map.mp hm
      have below : ∀ err, child.Raises err → e.Raises err :=
        fun err h => raises_iff.mpr (.inr ⟨child, hchild, h⟩)
      exact (ih child hchild).mono below
  exact induction_on node e

end SvgLayout
