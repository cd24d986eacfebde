import SvgLayout.Proofs.Element.Placed
import SvgLayout.Proofs.Element.Relocated
import SvgLayout.Proofs.Render.Success

/-!
# Drawings that stop

A drawing that fails stops at the first node that cannot be drawn, and leaves everything issued that
was issued before. So the identifiers that a failure uses up can be counted on the tree: those of
everything that is drawn before that node, and those that the nodes around it issue for themselves.

## Main definitions

* `Element.Stops` — a node fails after it has issued a number of identifiers.

## Main statements

* `Element.stops_of_fails` — a drawing that fails stops.
* `Element.stops_iff` — from every registry it then stops after as many identifiers.
-/

namespace SvgLayout

open Render

variable {α : Type} [Scalar α] [NumberText α]

/-! ## Where a drawing stops -/

namespace Element

/-- Drawn in the context of its parent, a node fails after a number of identifiers were issued. It
has no context, its pixels are not finite, or its parts are not laid out; no such node has issued
any. Or else its mask fails, after it has issued its own identifiers, or one of its parts does,
after its mask and the parts before that one were drawn. -/
inductive Stops : Context α → Element α → ℕ → Prop
  | unresolved {parent : Context α} {e : Element α} {err : LayoutError α}
      (failed : e.drawable.contextIn parent = .error err) : Stops parent e 0
  | infinite {parent ctx : Context α} {e : Element α}
      (located : e.drawable.contextIn parent = .ok ctx)
      (infinite : ctx.pixels.isFinite = false) : Stops parent e 0
  | unplanned {parent ctx : Context α} {e : Element α} {err : LayoutError α}
      (located : e.drawable.contextIn parent = .ok ctx) (finite : ctx.pixels.isFinite = true)
      (failed : e.drawableShape.parts e.spec e.style ctx = .error err) : Stops parent e 0
  | mask {parent ctx : Context α} {e mask : Element α} {count : ℕ}
      (located : e.drawable.contextIn parent = .ok ctx) (finite : ctx.pixels.isFinite = true)
      (masked : mask ∈ e.shape.masks) (stops : Stops ctx mask count) :
      Stops parent e (e.shape.links + count)
  | part {parent ctx : Context α} {e part : Element α} {front rest : List (Element α)} {count : ℕ}
      (located : e.drawable.contextIn parent = .ok ctx) (finite : ctx.pixels.isFinite = true)
      (masked : ∀ mask ∈ e.shape.masks, (mask.drawIn ctx).Succeeds)
      (planned : e.drawableShape.parts e.spec e.style ctx =
        .ok ((front ++ part :: rest).map drawable))
      (drawn : ∀ sibling ∈ front, (sibling.drawIn ctx).Succeeds) (stops : Stops ctx part count) :
      Stops parent e (e.shape.links + ((e.shape.masks ++ front).map linkCount).sum + count)

end Element

/-! ## One node -/

section

variable {r s : Registry} {err : LayoutError α} {ctx : Context α}

namespace Group

theorem exists_returns_clipEntries (group : Group (Drawable α)) (ctx : Context α) (r : Registry) :
    ∃ entries s, (group.clipEntries ctx).Returns r entries s ∧
      s.nextId = r.nextId + group.clip.toNat := by
  cases hc : group.clip with
  | true => simp [clipEntries, hc, clipEntry, Registry.define]
  | false => simp [clipEntries, hc]

omit [NumberText α] in
/-- The mask of a group is drawn after the identifier of the mask was issued. -/
theorem fails_maskEntries {group : Group (Drawable α)} {mask : Drawable α}
    (masked : group.mask = some mask) :
    (group.maskEntries ctx).Fails r err s ↔
      (mask.drawIn ctx).Fails (r.allocate "mask").2 err s := by
  simp [maskEntries, masked, maskEntry]

end Group

/-- The attributes of a shape fail if its mask does, for which it has issued its own identifiers. -/
theorem Shape.fails_attrs (shape : Shape α (Drawable α)) (style : Style α) (ctx : Context α)
    (r : Registry) : ∃ t : Registry, t.nextId = r.nextId + shape.links ∧
      ∀ err s, (shape.attrs style ctx).Fails r err s ↔
        ∃ mask ∈ shape.masks, (mask.drawIn ctx).Fails t err s := by
  cases shape with
  | group g =>
    obtain ⟨entries, t, clipped, next⟩ := g.exists_returns_clipEntries ctx r
    have attrs : ∀ err s, (g.attrs ctx).Fails r err s ↔ (g.maskEntries ctx).Fails t err s := by
      intro err s
      rw [Group.attrs_eq, fails_bind_of_returns clipped]
      simp
    cases masked : g.mask with
    | none =>
      refine ⟨t, by simp [links, masked, next], fun err s => (attrs err s).trans ?_⟩
      simp [masks, masked, Group.maskEntries]
    | some mask =>
      refine ⟨(t.allocate "mask").2, ?_, fun err s => (attrs err s).trans ?_⟩
      · simp [links, masked, next, Nat.add_assoc]
      · simp [masks, masked, Group.fails_maskEntries masked]
  | _ => exact ⟨r, by simp [links], by simp [attrs, masks]⟩

/-- Children fail to be drawn with the first of them that does. -/
theorem fails_drawChildren {debug : Bool} {children : List (Drawable α)} :
    (drawChildren debug ctx children).Fails r err s ↔
      ∃ front child rest ms t, children = front ++ child :: rest ∧
        (drawChildren debug ctx front).Returns r ms t ∧ (child.drawIn ctx).Fails t err s := by
  simp only [drawChildren, Drawable.drawIn, fails_bind, fails_pure, and_false, exists_false,
    or_false, fails_mapM]
  constructor
  · rintro ⟨front, child, rest, pieces, t, rfl, drawn, failed⟩
    refine ⟨front, child, rest, Markup.lines pieces.flatten, t, rfl, ?_, failed⟩
    exact returns_bind.mpr ⟨pieces, t, drawn, returns_pure.mpr ⟨rfl, rfl⟩⟩
  · rintro ⟨front, child, rest, ms, t, rfl, drawn, failed⟩
    obtain ⟨pieces, u, drawn, last⟩ := returns_bind.mp drawn
    obtain ⟨-, rfl⟩ := returns_pure.mp last
    exact ⟨front, child, rest, pieces, t, rfl, drawn, failed⟩

/-- The content of a shape fails if its parts are not laid out or not drawn. -/
theorem Shape.fails_content {spec : Spec α} {style : Style α} {shape : Shape α (Drawable α)} :
    (shape.content spec style ctx).Fails r err s ↔
      shape.parts spec style ctx = .error err ∧ s = r ∨
        ∃ parts, shape.parts spec style ctx = .ok parts ∧
          (drawChildren shape.debug ctx parts).Fails r err s := by
  cases primitive : shape.isPrimitive with
  | true =>
    cases shape with
    | primitive p =>
      have laid : (Shape.primitive p).parts spec style ctx = .ok [] := rfl
      simp [content, laid, drawChildren]
    | _ => simp [isPrimitive] at primitive
  | false =>
    rw [content_eq spec style ctx primitive]
    simp

end

/-! ## What was drawn before -/

/-- What is drawn from some registry is drawn from every one. -/
theorem Element.succeeds_of_returns {e : Element α} {parent : Context α} {r s : Registry}
    {m : Markup} (h : (e.drawIn parent).Returns r m s) : (e.drawIn parent).Succeeds := by
  intro r'
  have alike : Parallel r.nextId r'.nextId (Markup.Relocated r.nextId r'.nextId) (e.drawIn parent)
      (e.drawIn parent) := .lift_bind fun ctx _ => e.draw_parallel ctx
  obtain ⟨answers, -⟩ := alike (Nat.add_zero r.nextId).symm (Nat.add_zero r'.nextId).symm
  rw [h] at answers
  rcases drawn : (e.drawIn parent).outcome r' with ⟨answer, s'⟩
  rw [drawn] at answers
  cases answers with
  | ok same => exact ⟨_, s', drawn⟩

omit [Scalar α] [NumberText α] in
theorem Render.Grows.nextId_eq {β : Type} {m : Render α β} {stems : List String} (h : m.Grows stems)
    {r s : Registry} {b : β} (returns : m.Returns r b s) : s.nextId = r.nextId + stems.length := by
  obtain ⟨begun, -, grown, complete⟩ := h r
  rw [returns] at grown complete
  rw [grown.nextId_eq, complete b rfl]

/-- The attributes of a node issue the identifiers of its own and of its mask. -/
theorem Element.nextId_of_returns_geometry {e : Element α} {ctx : Context α} {r t : Registry}
    {attrs : Attrs} (h : (e.geometry ctx).Returns r attrs t) :
    t.nextId = r.nextId + (e.shape.links + (e.shape.masks.map linkCount).sum) := by
  have grows : (e.geometry ctx).Grows (e.shape.map stems).ownStems :=
    Shape.attrs_grows (fun mask _ => mask.draw_grows) ctx
  rw [grows.nextId_eq h, Shape.length_ownStems]
  simp only [length_stems]

/-- Children issue the identifiers of each of them. -/
theorem Element.nextId_of_returns_drawChildren {debug : Bool} {ctx : Context α}
    {children : List (Element α)} {r t : Registry} {ms : List Markup}
    (h : (drawChildren debug ctx (children.map drawable)).Returns r ms t) :
    t.nextId = r.nextId + (children.map linkCount).sum := by
  have each : List.Forall₂ (fun child stems => DrawsGrow child.draw stems) (children.map drawable)
      (children.map stems) := by
    rw [List.forall₂_map_left_iff, List.forall₂_map_right_iff, List.forall₂_same]
    exact fun child _ => child.draw_grows
  have lengths : (children.map stems).map List.length = children.map linkCount := by
    rw [List.map_map]
    exact List.map_congr_left fun child _ => child.length_stems
  rw [(drawChildren_grows debug ctx each).nextId_eq h, List.length_flatten, lengths]

/-! ## Trees -/

namespace Shape

variable {spec : Spec α} {style : Style α} {ctx : Context α} {shape : Shape α (Element α)}

/-- The parts of a node are single tags and its children in other places. -/
theorem exists_elements_of_parts {parts : List (Drawable α)}
    (h : (shape.map Element.drawable).parts spec style ctx = .ok parts) :
    ∃ elements : List (Element α), parts = elements.map Element.drawable ∧
      ∀ e ∈ elements, e.shape.isPrimitive = true ∨ ∃ child ∈ shape.placed, child.MovedTo e := by
  obtain ⟨own, drawn, rfl, tags, moved⟩ := parts_moved h
  have trees : ∀ part ∈ own,
      part = part.element.drawable ∧ part.element.shape.isPrimitive = true := by
    intro part hpart
    obtain ⟨spec, style, p, rfl⟩ := tags part hpart
    exact ⟨rfl, rfl⟩
  refine ⟨own.map Drawable.element ++ drawn, ?_, ?_⟩
  · rw [List.map_append, List.map_map]
    congr 1
    exact (List.map_id own).symm.trans (List.map_congr_left fun part hpart => (trees part hpart).1)
  · intro e he
    rcases List.mem_append.mp he with hown | hdrawn
    · obtain ⟨part, hpart, rfl⟩ := List.mem_map.mp hown
      exact .inl (trees part hpart).2
    · exact .inr (exists_of_forall₂ moved.flip e hdrawn)

/-- Only a shape without identifiers of its own has parts that may not be laid out. -/
theorem not_links_of_parts {err : LayoutError α}
    (h : (shape.map Element.drawable).parts spec style ctx = .error err) :
    shape.links = 0 ∧ shape.masks = [] := by
  cases shape with
  | group g => cases h
  | _ => exact ⟨rfl, rfl⟩

end Shape

namespace Element

/-- If drawing the node fails, it stops after as many identifiers as were issued. -/
def StopsIfFailing (e : Element α) : Prop :=
  ∀ ⦃parent r err s⦄, (e.drawIn parent).Fails r err s →
    ∃ count, e.Stops parent count ∧ s.nextId = r.nextId + count

/-- A node fails to be drawn if it has no context, no finite pixels, no geometry or no content. -/
theorem fails_drawIn {e : Element α} {parent : Context α} {r s : Registry} {err : LayoutError α} :
    (e.drawIn parent).Fails r err s ↔
      e.drawable.contextIn parent = .error err ∧ s = r ∨
        ∃ ctx, e.drawable.contextIn parent = .ok ctx ∧
          (ctx.pixels.isFinite = false ∧ err = .nonFinite e.drawableShape.kind ∧ s = r ∨
            ctx.pixels.isFinite = true ∧ ((e.geometry ctx).Fails r err s ∨
              ∃ attrs t, (e.geometry ctx).Returns r attrs t ∧ (e.content ctx).Fails t err s)) := by
  have draw : ∀ ctx, e.drawable.draw ctx = drawTag e.drawableShape.kind e.drawableShape.tag e.style
      ctx (e.geometry ctx) (e.content ctx) := congrFun e.draw_eq
  simp [drawIn, Drawable.drawIn, draw, fails_drawTag]

theorem settles_drawIn (e : Element α) (parent : Context α) :
    (e.drawIn parent).Settles (fun _ => (e.drawIn parent).Succeeds) fun _ => True :=
  Settles.iff_returns.mpr fun _ _ _ => succeeds_of_returns

/-- A mask of the node is drawn if the geometry of the node is. -/
theorem masks_of_returns_geometry {e : Element α} {ctx : Context α} {r t : Registry} {attrs : Attrs}
    (h : (e.geometry ctx).Returns r attrs t) :
    ∀ mask ∈ e.shape.masks, (mask.drawIn ctx).Succeeds := by
  have each : ∀ mask ∈ e.drawableShape.masks,
      (mask.drawIn ctx).Settles (fun _ => (mask.drawIn ctx).Succeeds) fun _ => True := by
    rw [drawableShape, Shape.masks_map, List.forall_mem_map]
    exact fun mask _ => mask.settles_drawIn ctx
  have all := Settles.iff_returns.mp (Shape.attrs_settles each) r attrs t h
  rw [drawableShape, Shape.masks_map, List.forall_mem_map] at all
  exact all

/-- Children that are drawn together are drawn. -/
theorem succeed_of_returns_drawChildren {debug : Bool} {ctx : Context α}
    {children : List (Element α)} {r t : Registry} {ms : List Markup}
    (h : (drawChildren debug ctx (children.map drawable)).Returns r ms t) :
    ∀ child ∈ children, (child.drawIn ctx).Succeeds := by
  have each : ∀ child ∈ children.map drawable,
      (child.drawIn ctx).Settles (fun _ => (child.drawIn ctx).Succeeds) fun _ => True := by
    rw [List.forall_mem_map]
    exact fun child _ => child.settles_drawIn ctx
  have all := Settles.iff_returns.mp (drawChildren_settles each) r ms t h
  rw [List.forall_mem_map] at all
  exact all

/-- The content of a node stops if the parts of the node do. -/
theorem stops_of_fails_content {e : Element α} {parent ctx : Context α} {r t s : Registry}
    {attrs : Attrs} {err : LayoutError α} (located : e.drawable.contextIn parent = .ok ctx)
    (finite : ctx.pixels.isFinite = true) (geometry : (e.geometry ctx).Returns r attrs t)
    (content : (e.content ctx).Fails t err s)
    (parts : ∀ part : Element α, part.shape.isPrimitive = true ∨
      (∃ child ∈ e.shape.placed, child.MovedTo part) → part.StopsIfFailing) :
    ∃ count, e.Stops parent count ∧ s.nextId = r.nextId + count := by
  have issued := nextId_of_returns_geometry geometry
  rcases Shape.fails_content.mp content with ⟨unplanned, rfl⟩ | ⟨drawables, planned, failed⟩
  · obtain ⟨links, masks⟩ := Shape.not_links_of_parts unplanned
    refine ⟨0, .unplanned located finite unplanned, ?_⟩
    simpa [links, masks] using issued
  · obtain ⟨elements, rfl, kinds⟩ := Shape.exists_elements_of_parts planned
    obtain ⟨front, part, rest, ms, u, split, drawn, stopped⟩ := fails_drawChildren.mp failed
    obtain ⟨front, others, rfl, rfl, tail⟩ := List.map_eq_append_iff.mp split
    obtain ⟨part, rest, rfl, rfl, rfl⟩ := List.map_eq_cons_iff.mp tail
    have mem : part ∈ front ++ part :: rest := List.mem_append_right _ List.mem_cons_self
    obtain ⟨count, stops, next⟩ := parts part (kinds part mem) stopped
    refine ⟨_, .part located finite (masks_of_returns_geometry geometry) planned
      (succeed_of_returns_drawChildren drawn) stops, ?_⟩
    rw [next, nextId_of_returns_drawChildren drawn, issued, List.map_append, List.sum_append]
    omega

/-- A single tag fails only without a context or without finite pixels. -/
theorem stops_tag {e : Element α} (h : e.shape.isPrimitive = true) : e.StopsIfFailing := by
  intro parent r err s failed
  obtain ⟨spec, style, shape⟩ := e
  cases shape with
  | primitive p =>
    rcases fails_drawIn.mp failed with ⟨unresolved, rfl⟩ | ⟨ctx, located, ⟨infinite, -, rfl⟩ | h⟩
    · exact ⟨0, .unresolved unresolved, rfl⟩
    · exact ⟨0, .infinite located infinite, rfl⟩
    · simp [geometry, content, drawableShape, Shape.map, Shape.attrs, Shape.content] at h
  | _ => simp [Shape.isPrimitive] at h

/-- A node stops if its children do, wherever they are moved. -/
theorem stops_node {e : Element α}
    (below : ∀ child ∈ e.shape.children, ∀ d, child.MovedTo d → d.StopsIfFailing) :
    e.StopsIfFailing := by
  intro parent r err s h
  rcases fails_drawIn.mp h with ⟨unresolved, rfl⟩ | ⟨ctx, located, ⟨infinite, -, rfl⟩ | ⟨finite, h⟩⟩
  · exact ⟨0, .unresolved unresolved, rfl⟩
  · exact ⟨0, .infinite located infinite, rfl⟩
  rcases h with geometry | ⟨attrs, t, geometry, content⟩
  · obtain ⟨t, next, masked⟩ := e.drawableShape.fails_attrs e.style ctx r
    obtain ⟨drawable, hdrawable, failed⟩ := (masked err s).mp geometry
    rw [drawableShape, Shape.masks_map] at hdrawable
    obtain ⟨mask, hmask, rfl⟩ := List.mem_map.mp hdrawable
    obtain ⟨count, stops, after⟩ :=
      below mask (Shape.mem_children_of_masks hmask) mask (.refl mask) failed
    refine ⟨_, .mask located finite hmask stops, ?_⟩
    rw [after, next, drawableShape, Shape.links_map, Nat.add_assoc]
  · refine stops_of_fails_content located finite geometry content fun part kind => ?_
    rcases kind with tag | ⟨child, hchild, moved⟩
    · exact stops_tag tag
    · exact below child (Shape.mem_children_of_placed hchild) part moved

/-- A drawing that fails stops after as many identifiers as it has issued. -/
theorem stops_of_fails (e : Element α) : e.StopsIfFailing := by
  -- The parts of a node are its children in other places, so the hypothesis is about all places.
  have node : Hereditary fun e : Element α => ∀ d, e.MovedTo d → d.StopsIfFailing := by
    rintro e ih _ ⟨rect, align, rfl⟩
    exact stops_node ih
  exact induction_on node e e (.refl e)

/-- The geometry of a node is drawn if its mask is. -/
theorem geometry_succeeds {e : Element α} {ctx : Context α}
    (masked : ∀ mask ∈ e.shape.masks, (mask.drawIn ctx).Succeeds) :
    (e.geometry ctx).Succeeds := by
  have each : ∀ mask ∈ e.drawableShape.masks,
      (mask.drawIn ctx).Settles (fun _ => True) fun _ => False := by
    rw [drawableShape, Shape.masks_map, List.forall_mem_map]
    exact fun mask hmask => succeeds_iff.mp (masked mask hmask)
  have drawn : (e.geometry ctx).Settles (fun _ => ∀ mask ∈ e.drawableShape.masks, True)
      fun _ => False := Shape.attrs_settles each
  exact succeeds_iff.mpr (drawn.mono (fun _ _ => trivial) fun _ h => h)

theorem drawChildren_succeeds (debug : Bool) {ctx : Context α} {children : List (Element α)}
    (h : ∀ child ∈ children, (child.drawIn ctx).Succeeds) :
    (drawChildren debug ctx (children.map drawable)).Succeeds := by
  have each : ∀ child ∈ children.map drawable,
      (child.drawIn ctx).Settles (fun _ => True) fun _ => False := by
    rw [List.forall_mem_map]
    exact fun child hchild => succeeds_iff.mp (h child hchild)
  have drawn : (drawChildren debug ctx (children.map drawable)).Settles
      (fun _ => ∀ child ∈ children.map drawable, True) fun _ => False := drawChildren_settles each
  exact succeeds_iff.mpr (drawn.mono (fun _ _ => trivial) fun _ h => h)

/-- A node that stops is not drawn, and issues as many identifiers from every registry. -/
theorem Stops.fails {e : Element α} {parent : Context α} {count : ℕ} (h : e.Stops parent count)
    (r : Registry) : ∃ err s, (e.drawIn parent).Fails r err s ∧ s.nextId = r.nextId + count := by
  induction h generalizing r with
  | unresolved failed => exact ⟨_, r, fails_drawIn.mpr (.inl ⟨failed, rfl⟩), rfl⟩
  | infinite located infinite =>
    exact ⟨_, r, fails_drawIn.mpr (.inr ⟨_, located, .inl ⟨infinite, rfl, rfl⟩⟩), rfl⟩
  | @unplanned parent ctx e err located finite failed =>
    obtain ⟨links, masks⟩ := Shape.not_links_of_parts failed
    have masked : ∀ mask ∈ e.shape.masks, (mask.drawIn ctx).Succeeds := by simp [masks]
    obtain ⟨attrs, t, geometry⟩ := geometry_succeeds masked r
    have content : (e.content ctx).Fails t err t := Shape.fails_content.mpr (.inl ⟨failed, rfl⟩)
    refine ⟨err, t, fails_drawIn.mpr
      (.inr ⟨_, located, .inr ⟨finite, .inr ⟨attrs, t, geometry, content⟩⟩⟩), ?_⟩
    simpa [links, masks] using nextId_of_returns_geometry geometry
  | @mask parent ctx e mask count located finite masked stops ih =>
    obtain ⟨t, next, attrs⟩ := e.drawableShape.fails_attrs e.style ctx r
    obtain ⟨err, s, failed, after⟩ := ih t
    have hmask : mask.drawable ∈ e.drawableShape.masks := by
      rw [drawableShape, Shape.masks_map]
      exact List.mem_map_of_mem masked
    have geometry := (attrs err s).mpr ⟨mask.drawable, hmask, failed⟩
    refine ⟨err, s, fails_drawIn.mpr (.inr ⟨ctx, located, .inr ⟨finite, .inl geometry⟩⟩), ?_⟩
    rw [after, next, drawableShape, Shape.links_map, Nat.add_assoc]
  | @part parent ctx e part front rest count located finite masked planned drawn stops ih =>
    obtain ⟨attrs, t, geometry⟩ := geometry_succeeds masked r
    obtain ⟨ms, u, before⟩ := drawChildren_succeeds e.drawableShape.debug drawn t
    obtain ⟨err, s, failed, after⟩ := ih u
    have stopped := fails_drawChildren.mpr
      ⟨front.map drawable, part.drawable, rest.map drawable, ms, u, rfl, before, failed⟩
    rw [← List.map_cons, ← List.map_append] at stopped
    have content := Shape.fails_content.mpr (.inr ⟨_, planned, stopped⟩)
    refine ⟨err, s, fails_drawIn.mpr
      (.inr ⟨ctx, located, .inr ⟨finite, .inr ⟨attrs, t, geometry, content⟩⟩⟩), ?_⟩
    rw [after, nextId_of_returns_drawChildren before, nextId_of_returns_geometry geometry,
      List.map_append, List.sum_append]
    omega

/-- A node stops after a number of identifiers if it is drawn from no registry, and so many are
issued from each of them. -/
theorem stops_iff {e : Element α} {parent : Context α} {count : ℕ} :
    e.Stops parent count ↔
      ∀ r, ∃ err s, (e.drawIn parent).Fails r err s ∧ s.nextId = r.nextId + count := by
  constructor
  · exact Stops.fails
  · intro h
    obtain ⟨err, s, failed, next⟩ := h .empty
    obtain ⟨count', stops, next'⟩ := e.stops_of_fails failed
    obtain rfl : count = count' := Nat.add_left_cancel (next.symm.trans next')
    exact stops

end Element

end SvgLayout
