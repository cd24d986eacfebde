import SvgLayout.Proofs.Element.Placed
import SvgLayout.Proofs.Render.Settles

/-!
# The guard of pixels

Every node looks at the pixels that it is drawn in before anything else. So a tree is only drawn if
the pixels of all its nodes are finite, those of masks and of nodes at any depth included.

## Main definitions

* `Element.Guarded` — the pixels of a node are finite.

## Main statements

* `Element.everywhere_guarded` — all nodes of a drawn tree are guarded.
-/

namespace SvgLayout

variable {α : Type} [Scalar α]

/-- The pixels that a node is drawn in, in the context of its parent, are finite. -/
def Element.Guarded (parent : Context α) (e : Element α) : Prop :=
  ∀ spec, e.resolvedSpec = .ok spec → (parent.child spec).pixels.isFinite = true

variable [NumberText α]

namespace Element

/-- Wherever it is moved, the tree is only drawn if all its nodes are guarded. -/
def GuardsMoved (e : Element α) : Prop :=
  ∀ d, e.MovedTo d → ∀ parent r m r', (d.drawIn parent).Returns r m r' →
    d.Everywhere Guarded parent

/-- A tag is only drawn if it is guarded. -/
theorem everywhere_guarded_of_isTag {d : Drawable α} (tag : d.IsTag) {parent : Context α}
    {r r' : Registry} {m : Markup} (h : (d.drawIn parent).Returns r m r') :
    d.element.Everywhere Guarded parent := by
  obtain ⟨spec, style, p, rfl⟩ := tag
  refine everywhere_primitive.mpr fun resolved hresolved => ?_
  obtain ⟨ctx, s, hctx, drawn⟩ := Render.returns_bind.mp h
  obtain ⟨_, hspec, rfl⟩ := Except.map_eq_ok.mp (Render.returns_lift.mp hctx).1
  obtain rfl := Except.ok.inj (hspec.symm.trans hresolved)
  exact (Render.returns_drawTag.mp drawn).1

/-- A node is only drawn if it is guarded and everything below it is, if that is so of its children,
wherever they are moved. -/
theorem everywhere_guarded_node {e : Element α}
    (below : ∀ child ∈ e.shape.children, child.GuardsMoved) {parent : Context α} {r r' : Registry}
    {m : Markup} (h : (e.drawIn parent).Returns r m r') : e.Everywhere Guarded parent := by
  obtain ⟨ctx, s, hctx, drawn⟩ := Render.returns_bind.mp h
  obtain ⟨spec, resolved, rfl⟩ := Except.map_eq_ok.mp (Render.returns_lift.mp hctx).1
  have draw : e.drawable.draw = e.drawableShape.draw e.spec e.style := e.draw_eq
  rw [draw] at drawn
  have masks : ∀ mask ∈ e.drawableShape.masks, (mask.drawIn (parent.child spec)).Settles
      (fun _ => mask.element.Everywhere Guarded (parent.child spec)) fun _ => True := by
    intro mask hmask
    rw [drawableShape, Shape.masks_map] at hmask
    obtain ⟨child, hchild, rfl⟩ := List.mem_map.mp hmask
    exact Render.Settles.iff_returns.mpr
      (below child (Shape.mem_children_of_masks hchild) child (.refl child) _)
  have drawnParts : ∀ parts,
      e.drawableShape.parts e.spec e.style (parent.child spec) = .ok parts →
      ∀ part ∈ parts, (part.drawIn (parent.child spec)).Settles
        (fun _ => part.element.Everywhere Guarded (parent.child spec)) fun _ => True := by
    refine fun parts laid => Shape.forall_parts_of_moved laid (fun own tags part hpart => ?_)
      fun child hplaced d hmoved => ?_
    · exact Render.Settles.iff_returns.mpr fun r m r' =>
        everywhere_guarded_of_isTag (Shape.isTag_ownParts tags part hpart)
    · exact Render.Settles.iff_returns.mpr
        (below child (Shape.mem_children_of_placed hplaced) d hmoved _)
  have settles := Shape.draw_settles (fun _ => trivial) (fun _ _ => trivial) drawnParts masks
  obtain ⟨masked, parts, laid, all⟩ := Render.Settles.iff_returns.mp settles _ _ _ drawn
  obtain ⟨own, moves, -, rfl, seated, -⟩ := Shape.parts_seated laid
  refine (everywhere_iff resolved seated).mpr ⟨?_, ?_⟩
  · intro spec' resolved'
    obtain rfl := Except.ok.inj (resolved.symm.trans resolved')
    exact (Render.returns_drawTag.mp drawn).1
  · rw [drawableShape, Shape.masks_map, List.forall_mem_map] at masked
    rw [List.forall_mem_append, List.forall_mem_map] at all
    exact List.forall_mem_append.mpr ⟨masked, all.2⟩

/-- All nodes of a drawn tree are guarded. -/
theorem everywhere_guarded {e : Element α} {parent : Context α} {r r' : Registry} {m : Markup}
    (h : (e.drawIn parent).Returns r m r') : e.Everywhere Guarded parent := by
  have node : Hereditary fun e : Element α => e.GuardsMoved := by
    rintro e ih _ ⟨rect, align, rfl⟩ parent r m r' returns
    exact everywhere_guarded_node (e := e.moved rect align) ih returns
  exact induction_on node e e (.refl e) parent r m r' h

end Element

end SvgLayout
