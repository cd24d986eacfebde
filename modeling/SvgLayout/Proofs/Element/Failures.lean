import SvgLayout.Proofs.Element.Placed
import SvgLayout.Proofs.Render.Settles

/-!
# Why drawing fails

Drawing a tree reaches every node of it: children that were not measured, since their parent needs
no ratio of theirs, are measured when they are drawn. So a tree with a fault is not drawn, whatever
hides the fault from the measures of its parents. A tree without a fault is drawn unless the pixels
of some node are not finite.

## Main definitions

* `Element.Settled` — a tree is drawn only without a fault, and fails only for the reasons above.

## Main statements

* `Shape.parts_failsOnly` — the parts of a node are laid out unless it has a fault.
* `Shape.not_raises_of_parts` — a node that was measured and laid out has no fault of its own.
* `Element.settled` — every tree settles like this, in every context.
-/

namespace SvgLayout

variable {α : Type} [Scalar α] {spec : Spec α} {E : LayoutError α → Prop}

/-! ## Faults in other places -/

theorem Shape.raises_congr {ε : Type} {a b : Spec α} (h : a.hasAutoAspect = b.hasAutoAspect)
    (shape : Shape α ε) (err : LayoutError α) : shape.Raises a err ↔ shape.Raises b err := by
  cases shape <;> simp [Raises, h]

/-- A tree has the same faults wherever it is placed. -/
theorem Element.MovedTo.raises_iff {e placed : Element α} (h : e.MovedTo placed)
    {err : LayoutError α} : placed.Raises err ↔ e.Raises err := by
  obtain ⟨rect, align, rfl⟩ := h
  have own := Shape.raises_congr (a := (e.moved rect align).spec) (b := e.spec) rfl e.shape err
  rw [Element.raises_iff, Element.raises_iff]
  exact or_congr_left own

/-! ## Nodes -/

variable [NumberText α] {style : Style α} {ctx : Context α} {shape : Shape α (Element α)}

/-- The parts of a node are laid out unless it has a fault or a child is not measured. -/
theorem Shape.parts_failsOnly (own : ∀ err, shape.Raises spec err → E err)
    (measured : ∀ child ∈ shape.children, child.measured.sizing.FailsOnly E) :
    ((shape.map Element.drawable).parts spec style ctx).FailsOnly E := by
  cases shape with
  | primitive p => exact .pure _
  | arrow a => exact .pure _
  | group g => exact .pure _
  | frame f =>
    have child := Measured.layoutAspect_failsOnly (measured f.child (List.mem_singleton_self _))
    refine .bind ?_ fun _ => .pure _
    rw [Frame.backdrop]
    split
    next => exact .pure _
    next => exact child.bind fun _ => .pure _
  | stack s =>
    rw [map, parts, Stack.parts_eq]
    refine .map (Stack.layout_failsOnly fun child hchild => ?_)
    obtain ⟨c, hc, rfl⟩ := List.mem_map.mp hchild
    exact measured c.element (List.mem_map_of_mem hc)
  | grid g =>
    rw [map, parts, Grid.parts_eq]
    have raised : ∀ err, (Shape.grid (g.map Element.measured)).Raises spec err → E err :=
      fun err h => own err ((raises_map Element.measured (.grid g)).mp h)
    refine .map (Grid.layout_failsOnly raised ?_)
    intro m hm
    rw [Grid.map, ← List.map_flatten] at hm
    obtain ⟨child, hchild, rfl⟩ := List.mem_map.mp hm
    exact measured child hchild

omit [NumberText α] in
/-- Weights that were checked have no fault. -/
theorem Grid.not_raisesOn {axis : String} {weights : Option (List α)} {count : Nat} {u : Unit}
    (h : checkWeights axis weights count = .ok u) (err : LayoutError α) :
    ¬RaisesOn axis weights count err := by
  rintro ⟨ws, hws, unfit, -⟩
  obtain ⟨length, positive⟩ := checkWeights_eq_ok h ws hws
  rcases unfit with wrong | ⟨w, hw, notPositive⟩
  · exact wrong length
  · rw [List.all_eq_true.mp positive w hw] at notPositive
    cases notPositive

/-- A node that was measured and whose parts were laid out has no fault of its own. -/
theorem Shape.not_raises_of_parts {layout : AutoLayout α} {parts : List (Drawable α)}
    (measured : ((shape.map Element.measured).sizing spec).autoLayout = .ok layout)
    (laid : (shape.map Element.drawable).parts spec style ctx = .ok parts) (err : LayoutError α) :
    ¬shape.Raises spec err := by
  cases shape with
  | group g =>
    rintro ⟨derived, many, -⟩
    have fault : (spec.hasAutoAspect && (g.map Element.measured).children.length != 1) = true := by
      simpa [derived, Group.map] using many
    have checked : (g.map Element.measured).autoLayout spec true = .ok layout := measured
    rw [Group.autoLayout, if_pos fault, Except.throw_eq_ok] at checked
    exact checked
  | grid g =>
    rw [map, Shape.parts, Grid.parts_eq, Except.map_eq_ok] at laid
    obtain ⟨tracks, htracks, -⟩ := laid
    simp only [Grid.layout, Except.bind_eq_ok] at htracks
    obtain ⟨_, columns, _, rows, -⟩ := htracks
    rw [← raises_map Element.measured]
    rintro (h | h)
    · exact Grid.not_raisesOn columns err h
    · exact Grid.not_raisesOn rows err h
  | _ => exact not_false

/-! ## Trees -/

namespace Element

/-- What drawing a tree may fail with: a fault of it, or pixels of a node that are not finite. -/
def MayFail (e : Element α) (err : LayoutError α) : Prop :=
  (∃ kind, err = .nonFinite kind) ∨ e.Raises err

/-- Wherever it is drawn, the tree is drawn only if it has no fault, and drawing it fails only with
what it may fail with. -/
def Settled (e : Element α) : Prop :=
  ∀ parent, (e.drawIn parent).Settles (fun _ => ∀ err, ¬e.Raises err) e.MayFail

variable {e : Element α}

omit [NumberText α] in
theorem MayFail.of_child {child : Element α} (hchild : child ∈ e.shape.children)
    {err : LayoutError α} (h : child.MayFail err) : e.MayFail err :=
  h.imp_right fun raised => raises_iff.mpr (.inr ⟨child, hchild, raised⟩)

/-- A tag is drawn unless its pixels are not finite, and has no fault. -/
theorem settled_of_isTag {d : Drawable α} (h : d.IsTag) (parent : Context α) :
    (d.drawIn parent).Settles (fun _ => ∀ err, ¬d.element.Raises err) e.MayFail := by
  obtain ⟨spec, style, p, rfl⟩ := h
  refine Render.Settles.lift_bind_iff.mpr ⟨.map (.map (.pure _)), fun ctx _ => ?_⟩
  have drawn : (p.draw style ctx).Settles (fun _ => True ∧ True) e.MayFail :=
    drawTag_settles (fun _ => .inl ⟨p.kind, rfl⟩) (.pure trivial) (.pure trivial)
  exact drawn.mono (fun _ _ _ => not_raises_primitive spec style p) fun _ h => h

/-- The parts of a node settle if its children do, wherever they are moved. -/
theorem settles_of_mem_parts {ctx : Context α} {parts : List (Drawable α)}
    (below : ∀ child ∈ e.shape.children, ∀ d, child.MovedTo d → d.Settled)
    (laid : e.drawableShape.parts e.spec e.style ctx = .ok parts) :
    ∀ part ∈ parts, (part.drawIn ctx).Settles (fun _ => ∀ err, ¬part.element.Raises err)
      e.MayFail := by
  refine Shape.forall_parts_of_moved laid (fun own tags part hpart => ?_)
    fun child hplaced d hmoved => ?_
  · exact settled_of_isTag (Shape.isTag_ownParts tags part hpart) ctx
  · have hchild := Shape.mem_children_of_placed hplaced
    refine (below child hchild d hmoved ctx).mono (fun _ h => h) fun err h => ?_
    exact .of_child hchild (h.imp_right hmoved.raises_iff.mp)

/-- A tree that was measured, laid out, and drawn below its root has no fault. -/
theorem not_raises_of_drawn {ctx : Context α} {layout : AutoLayout α} {parts : List (Drawable α)}
    (measured : (e.measuredShape.sizing e.spec).autoLayout = .ok layout)
    (laid : e.drawableShape.parts e.spec e.style ctx = .ok parts)
    (masks : ∀ mask ∈ e.drawableShape.masks, ∀ err, ¬mask.element.Raises err)
    (drawn : ∀ part ∈ parts, ∀ err, ¬part.element.Raises err) (err : LayoutError α) :
    ¬e.Raises err := by
  intro raised
  rcases raises_iff.mp raised with own | ⟨child, hchild, h⟩
  · exact Shape.not_raises_of_parts measured laid err own
  · rw [Shape.children_eq, List.mem_append] at hchild
    rcases hchild with hmask | hplaced
    · refine masks child.drawable ?_ err h
      rw [drawableShape, Shape.masks_map]
      exact List.mem_map_of_mem hmask
    · obtain ⟨own, moves, rfl, -, moved⟩ := Shape.parts_moved laid
      obtain ⟨d, hd, hmoved⟩ := exists_of_forall₂ moved child hplaced
      have hpart : d.drawable ∈ own ++ moves.map drawable :=
        List.mem_append_right _ (List.mem_map_of_mem hd)
      exact drawn d.drawable hpart err (hmoved.raises_iff.mpr h)

/-- A tree settles if what is below its root does, wherever it is moved. -/
theorem settled_node (below : ∀ child ∈ e.shape.children, ∀ d, child.MovedTo d → d.Settled) :
    e.Settled := by
  intro parent
  have measures : e.measured.sizing.FailsOnly e.MayFail :=
    e.measured_failsOnly.mono fun _ raised => .inr raised
  refine Render.Settles.lift_bind_iff.mpr ⟨.map (.map measures.autoLayout), fun ctx hctx => ?_⟩
  obtain ⟨layout, measured⟩ :
      ∃ layout, (e.measuredShape.sizing e.spec).autoLayout = .ok layout := by
    obtain ⟨_, resolved, -⟩ := Except.map_eq_ok.mp hctx
    obtain ⟨layout, measured, -⟩ := Except.map_eq_ok.mp resolved
    rw [show e.drawable.element = e from rfl, measured_eq] at measured
    exact ⟨layout, measured⟩
  have own : ∀ err, e.shape.Raises e.spec err → e.MayFail err :=
    fun err h => .inr (raises_iff.mpr (.inl h))
  have children : ∀ child ∈ e.shape.children, child.measured.sizing.FailsOnly e.MayFail :=
    fun child hchild =>
      child.measured_failsOnly.mono fun err raised => .of_child hchild (.inr raised)
  have masks : ∀ mask ∈ e.drawableShape.masks,
      (mask.drawIn ctx).Settles (fun _ => ∀ err, ¬mask.element.Raises err) e.MayFail := by
    intro mask hmask
    rw [drawableShape, Shape.masks_map] at hmask
    obtain ⟨child, hchild, rfl⟩ := List.mem_map.mp hmask
    have mem := Shape.mem_children_of_masks hchild
    exact (below child mem child (.refl child) ctx).mono (fun _ h => h) fun err h => .of_child mem h
  have drawn := Shape.draw_settles (fun _ => .inl ⟨_, rfl⟩) (Shape.parts_failsOnly own children)
    (fun _ laid => settles_of_mem_parts below laid) masks
  have draw : e.drawable.draw ctx = e.drawableShape.draw e.spec e.style ctx :=
    congrFun e.draw_eq ctx
  rw [draw]
  refine drawn.mono ?_ fun _ h => h
  rintro _ ⟨masks, parts, laid, all⟩
  exact not_raises_of_drawn measured laid masks all

/-- Every tree settles. -/
theorem settled (e : Element α) : e.Settled := by
  -- The children that a node draws are not those of the tree, but these moved to other places. So
  -- the induction is over the tree, and its hypothesis is about a child in every place.
  have node : Hereditary fun e : Element α => ∀ d, e.MovedTo d → d.Settled := by
    rintro e ih _ ⟨rect, align, rfl⟩
    exact settled_node ih
  exact induction_on node e e (.refl e)

end Element

end SvgLayout
