import SvgLayout.Element.Draw
import SvgLayout.Proofs.Layout.Tracks
import SvgLayout.Proofs.Render.Outcome

/-!
# The parts of a node

Every node with content draws a list of parts: first the tags of its own, then its children in their
order. The layout decides where a part is placed, but not which parts there are.

## Main definitions

* `Shape.placed`, `Shape.masks` — the children that are drawn inside a node, and its mask.
* `Shape.trim` — the tags of its own that a node draws before its children.
* `Shape.parts` — all parts, placed by the layout.

## Main statements

* `Shape.content_eq` — the content of a node is its parts.
* `Shape.map_draw_parts` — which parts there are.
* `Shape.forall_parts`, `Shape.forall₂_parts` — what holds of all parts.
* `Group.attrs_eq` — the attributes of a group are those of its clipping and of its mask.
-/

namespace SvgLayout

variable {α ε : Type}

/-! ## Children -/

namespace Shape

/-- The children that are drawn inside the shape, in order. -/
def placed : Shape α ε → List ε
  | primitive _ | arrow _ => []
  | group g => g.children
  | frame f => [f.child]
  | stack s => s.children.map StackChild.element
  | grid g => g.rows.flatten

/-- What is drawn into the mask of the shape. -/
def masks : Shape α ε → List ε
  | group g => g.mask.toList
  | _ => []

/-- Every child is either drawn inside the shape or into its mask. -/
theorem children_eq (shape : Shape α ε) : shape.children = shape.masks ++ shape.placed := by
  cases shape <;> rfl

theorem mem_children_of_placed {shape : Shape α ε} {child : ε} (h : child ∈ shape.placed) :
    child ∈ shape.children := by
  rw [children_eq]
  exact List.mem_append_right _ h

theorem mem_children_of_masks {shape : Shape α ε} {child : ε} (h : child ∈ shape.masks) :
    child ∈ shape.children := by
  rw [children_eq]
  exact List.mem_append_left _ h

def debug : Shape α ε → Bool
  | group g => g.debug
  | stack s => s.debug
  | grid g => g.debug
  | _ => false

def isPrimitive : Shape α ε → Bool
  | primitive _ => true
  | _ => false

@[simp] theorem placed_map {β : Type} (f : ε → β) (shape : Shape α ε) :
    (shape.map f).placed = shape.placed.map f := by
  cases shape <;>
    simp [placed, map, Group.map, Frame.map, Stack.map, StackChild.map, Grid.map, List.map_flatten]

@[simp] theorem masks_map {β : Type} (f : ε → β) (shape : Shape α ε) :
    (shape.map f).masks = shape.masks.map f := by
  cases shape with
  | group g => cases h : g.mask <;> simp [masks, map, Group.map, h]
  | _ => rfl

@[simp] theorem debug_map {β : Type} (f : ε → β) (shape : Shape α ε) :
    (shape.map f).debug = shape.debug := by
  cases shape <;> rfl

@[simp] theorem isPrimitive_map {β : Type} (f : ε → β) (shape : Shape α ε) :
    (shape.map f).isPrimitive = shape.isPrimitive := by
  cases shape <;> rfl

@[simp] theorem tag_map {β : Type} [Scalar α] (f : ε → β) (shape : Shape α ε) :
    (shape.map f).tag = shape.tag := by
  cases shape <;> rfl

end Shape

variable [Scalar α] [NumberText α]

/-! ## Parts -/

/-- A tag of a node's own: how it is painted, and its shape. -/
abbrev Trim (α : Type) := Style α × Primitive α

/-- How a tag of a node's own is drawn. -/
def Trim.draw (trim : Trim α) : Context α → Render α Markup :=
  trim.2.draw trim.1

omit [NumberText α] in
/-- The rectangle behind the child of a frame, unless nothing of it would be seen. -/
def Frame.trim (frame : Frame α ε) : List (Trim α) :=
  if frame.border.isNone && frame.fill.isNone then
    []
  else
    let radius := (frame.border.map Border.rounded).getD 0.0
    [(frame.backStyle, .rectangle (if 0.0 < radius then some (.uniform radius) else none))]

namespace Shape

omit [NumberText α] in
/-- The tags of its own that a node draws before its children. -/
def trim (style : Style α) (ctx : Context α) : Shape α ε → List (Trim α)
  | arrow a =>
    [(style, .line (.ofPoint a.tail) (a.shaftEnd style ctx)),
     (style, .arrowHead a.direction a.head)]
  | frame f => f.trim
  | _ => []

omit [NumberText α] in
/-- The tags of a node's own add the attributes that its style adds, or none. -/
theorem extra_trim (style : Style α) (ctx : Context α) (shape : Shape α ε) :
    ∀ trim ∈ shape.trim style ctx, trim.1.extra = style.extra ∨ trim.1.extra = [] := by
  cases shape with
  | arrow a => simp [trim]
  | frame f =>
    have back : f.backStyle.extra = [] := by
      cases h : f.border <;> simp [Frame.backStyle, Border.style, h]
    by_cases bare : (f.border.isNone && f.fill.isNone) = true
    · simp [trim, Frame.trim, bare]
    · simp [trim, Frame.trim, bare, back]
  | _ => simp [trim]

/-- All parts of a node, placed by its layout. -/
def parts (spec : Spec α) (style : Style α) (ctx : Context α) :
    Shape α (Drawable α) → Except (LayoutError α) (List (Drawable α))
  | primitive _ => pure []
  | arrow a => pure (a.parts style ctx)
  | group g => pure g.children
  | frame f => f.parts
  | stack s => s.parts spec
  | grid g => g.parts

/-- The content of a node with more than one tag is its parts, one after another. -/
theorem content_eq (spec : Spec α) (style : Style α) (ctx : Context α)
    {shape : Shape α (Drawable α)} (h : shape.isPrimitive = false) :
    shape.content spec style ctx =
      (do
        let parts ← shape.parts spec style ctx
        some <$> drawChildren shape.debug ctx parts : Render α (Option (List Markup))) := by
  cases shape with
  | primitive p => exact absurd h (by simp [isPrimitive])
  | arrow a => rfl
  | group g => rfl
  | frame f => rfl
  | stack s => rfl
  | grid g => rfl

end Shape

/-! ## Groups -/

namespace Group

/-- The attribute of a group that is cut off; another group has none. -/
def clipEntries (group : Group (Drawable α)) (ctx : Context α) :
    Render α (List (String × String)) :=
  if group.clip then (fun entry => [entry]) <$> clipEntry ctx else pure []

omit [NumberText α] in
/-- The attribute of a group that is masked; another group has none. -/
def maskEntries (group : Group (Drawable α)) (ctx : Context α) :
    Render α (List (String × String)) :=
  match group.mask with
  | some mask => (fun entry => [entry]) <$> maskEntry mask ctx
  | none => pure []

/-- The attributes of a group are made from its clipping and from its mask. -/
theorem attrs_eq (group : Group (Drawable α)) (ctx : Context α) :
    group.attrs ctx =
      (do
        let clip ← group.clipEntries ctx
        let mask ← group.maskEntries ctx
        pure (.ofList (clip ++ mask)) : Render α Attrs) := by
  rw [attrs, clipEntries, maskEntries]
  cases group.clip <;> cases group.mask <;> rfl

variable {group : Group (Drawable α)} {ctx : Context α} {r r' : Registry}
  {entries : List (String × String)}

theorem keys_clipEntries (h : (group.clipEntries ctx).Returns r entries r') :
    entries.map Prod.fst = if group.clip then ["clip-path"] else [] := by
  rw [clipEntries] at h
  by_cases hc : group.clip = true
  · rw [if_pos hc] at h
    simp only [clipEntry, Render.returns_map, Render.returns_bind, Render.returns_pure] at h
    obtain ⟨_, ⟨id, _, -, _, _, -, rfl, -⟩, rfl⟩ := h
    simp [hc]
  · rw [if_neg hc, Render.returns_pure] at h
    simp [h.1, hc]

omit [NumberText α] in
theorem keys_maskEntries (h : (group.maskEntries ctx).Returns r entries r') :
    entries.map Prod.fst = if group.mask.isSome then ["mask"] else [] := by
  rw [maskEntries] at h
  cases hm : group.mask with
  | none =>
    rw [hm, Render.returns_pure] at h
    simp [h.1]
  | some mask =>
    simp only [hm, maskEntry, Render.returns_map, Render.returns_bind, Render.returns_pure] at h
    obtain ⟨_, ⟨id, _, -, _, _, -, _, _, -, rfl, -⟩, rfl⟩ := h
    simp

end Group

/-! ## Which parts there are -/

omit [NumberText α] in
/-- The children of a stack are drawn in their ranges as they are. -/
theorem Stack.map_draw_parts {spec : Spec α} {stack : Stack α (Drawable α)}
    {parts : List (Drawable α)} (h : stack.parts spec = .ok parts) :
    parts.map Drawable.draw = stack.children.map fun child => child.element.draw := by
  rw [Stack.parts, Except.map_eq_ok] at h
  obtain ⟨layout, hlayout, rfl⟩ := h
  apply Stack.map_seated hlayout
  intro f child
  rfl

omit [NumberText α] in
/-- The children of a grid are drawn in their cells as they are. -/
theorem Grid.map_draw_parts {grid : Grid α (Drawable α)} {parts : List (Drawable α)}
    (h : grid.parts = .ok parts) :
    parts.map Drawable.draw = grid.rows.flatten.map Drawable.draw := by
  rw [Grid.parts, Except.map_eq_ok] at h
  obtain ⟨layout, hlayout, rfl⟩ := h
  apply Grid.map_seated hlayout
  intro f child
  rfl

/-- Behind its child a frame draws its own tags. -/
theorem Frame.map_draw_backdrop {frame : Frame α (Drawable α)} {back : List (Drawable α)}
    (h : frame.backdrop = .ok back) : back.map Drawable.draw = frame.trim.map Trim.draw := by
  rw [Frame.backdrop] at h
  by_cases bare : (frame.border.isNone && frame.fill.isNone) = true
  · rw [if_pos bare, Except.pure_eq_ok] at h
    rw [Frame.trim, if_pos bare, ← h]
    rfl
  · rw [if_neg bare, Except.bind_eq_ok] at h
    obtain ⟨aspect, -, h⟩ := h
    rw [Except.pure_eq_ok] at h
    rw [Frame.trim, if_neg bare, ← h]
    rfl

/-- The parts of a node are the tags of its own and its children, which are drawn as they are. -/
theorem Shape.map_draw_parts {spec : Spec α} {style : Style α} {ctx : Context α}
    {shape : Shape α (Drawable α)} {parts : List (Drawable α)}
    (h : shape.parts spec style ctx = .ok parts) :
    parts.map Drawable.draw =
      (shape.trim style ctx).map Trim.draw ++ shape.placed.map Drawable.draw := by
  cases shape with
  | primitive p =>
    rw [Shape.parts, Except.pure_eq_ok] at h
    rw [← h]
    rfl
  | arrow a =>
    rw [Shape.parts, Except.pure_eq_ok] at h
    rw [← h]
    rfl
  | group g =>
    rw [Shape.parts, Except.pure_eq_ok] at h
    rw [← h]
    rfl
  | frame f =>
    simp only [Shape.parts, Frame.parts, Except.bind_eq_ok, Except.pure_eq_ok] at h
    obtain ⟨back, hback, rfl⟩ := h
    rw [List.map_append, Frame.map_draw_backdrop hback]
    rfl
  | stack s =>
    rw [Stack.map_draw_parts h]
    simp [trim, placed, Function.comp_def]
  | grid g =>
    rw [Grid.map_draw_parts h]
    rfl

section

variable {spec : Spec α} {style : Style α} {ctx : Context α} {shape : Shape α (Drawable α)}
  {parts : List (Drawable α)}

/-- What holds of the tags of a node's own and of its children holds of all parts. -/
theorem Shape.forall_parts {P : (Context α → Render α Markup) → Prop}
    (h : shape.parts spec style ctx = .ok parts) (own : ∀ trim ∈ shape.trim style ctx, P trim.draw)
    (placed : ∀ child ∈ shape.placed, P child.draw) : ∀ part ∈ parts, P part.draw := by
  have all : ∀ draw ∈ parts.map Drawable.draw, P draw := by
    rw [Shape.map_draw_parts h]
    intro draw hdraw
    rcases List.mem_append.mp hdraw with hdraw | hdraw
    · obtain ⟨trim, htrim, rfl⟩ := List.mem_map.mp hdraw
      exact own trim htrim
    · obtain ⟨child, hchild, rfl⟩ := List.mem_map.mp hdraw
      exact placed child hchild
  intro part hpart
  exact all _ (List.mem_map_of_mem hpart)

end

omit [NumberText α] in
@[simp] theorem Shape.trim_map {β : Type} (f : ε → β) (style : Style α) (ctx : Context α)
    (shape : Shape α ε) : (shape.map f).trim style ctx = shape.trim style ctx := by
  cases shape <;> rfl

/-- Parts correspond, one by one, to what the tags of a node's own and its children correspond
to. -/
theorem Shape.forall₂_parts {β : Type} {R : (Context α → Render α Markup) → β → Prop}
    {spec : Spec α} {style : Style α} {ctx : Context α} {shape : Shape α ε} {f : ε → Drawable α}
    {parts : List (Drawable α)} (h : (shape.map f).parts spec style ctx = .ok parts)
    {a : Trim α → β} {b : ε → β} (own : ∀ trim ∈ shape.trim style ctx, R trim.draw (a trim))
    (placed : ∀ child ∈ shape.placed, R (f child).draw (b child)) :
    List.Forall₂ (fun part x => R part.draw x) parts
      ((shape.trim style ctx).map a ++ shape.placed.map b) := by
  rw [← List.forall₂_map_left_iff (f := Drawable.draw) (R := R), Shape.map_draw_parts h,
    trim_map, placed_map, List.map_map]
  refine List.rel_append ?_ ?_
  · rw [List.forall₂_map_left_iff, List.forall₂_map_right_iff, List.forall₂_same]
    exact own
  · rw [List.forall₂_map_left_iff, List.forall₂_map_right_iff, List.forall₂_same]
    exact placed

end SvgLayout
