import SvgLayout.Proofs.Element.Parts

/-!
# Where the nodes of a tree are drawn

Every node is drawn in the context of its parent, by its own spec or by the one its parent gives it.
The nodes of a tree with the contexts of their parents are reached from the root by measuring and
seating alone.

## Main definitions

* `Shape.seats` — the children of a node as they are placed in its space.
* `Element.moved` — a node in another place.
* `Element.Everywhere` — what holds of every node of a tree in the context of its parent.

## Main statements

* `Shape.map_seats` — no child is lost, and only its place changes.
* `Shape.exists_parts` — drawing places its children there.
* `Element.Everywhere.follows_drawing` — a tree is walked in the contexts in which it is drawn.
-/

namespace SvgLayout

variable {α : Type} [Scalar α]

/-! ## Seats -/

/-- The children of a shape as they are placed in its space, a mask before the others. -/
def Shape.seats (spec : Spec α) :
    Shape α (Element α) → Except (LayoutError α) (List (Element α))
  | primitive _ | arrow _ => pure []
  | group g => pure (g.mask.toList ++ g.children)
  | frame f => pure [f.child.withRect .unit]
  | stack s => s.seated Element.mapSpec <$> (s.map Element.measured).layout spec
  | grid g => g.seated Element.mapSpec <$> (g.map Element.measured).layout

/-- The children of a node as they are placed in its space. -/
def Element.seats (e : Element α) : Except (LayoutError α) (List (Element α)) :=
  e.shape.seats e.spec

/-- Every child has a seat, in order, where it is painted and drawn as it is. -/
theorem Shape.map_seats {spec : Spec α} {shape : Shape α (Element α)} {seats : List (Element α)}
    (h : shape.seats spec = .ok seats) :
    seats.map (fun e => (e.style, e.shape)) = shape.children.map fun e => (e.style, e.shape) := by
  cases shape with
  | primitive p =>
    rw [Shape.seats, Except.pure_eq_ok] at h
    rw [← h]
    rfl
  | arrow a =>
    rw [Shape.seats, Except.pure_eq_ok] at h
    rw [← h]
    rfl
  | group g =>
    rw [Shape.seats, Except.pure_eq_ok] at h
    rw [← h]
    rfl
  | frame f =>
    rw [Shape.seats, Except.pure_eq_ok] at h
    rw [← h]
    rfl
  | stack s =>
    rw [Shape.seats, Except.map_eq_ok] at h
    obtain ⟨layout, hlayout, rfl⟩ := h
    rw [Shape.children, List.map_map]
    apply Stack.map_seated hlayout
    intro f child
    rfl
  | grid g =>
    rw [Shape.seats, Except.map_eq_ok] at h
    obtain ⟨layout, hlayout, rfl⟩ := h
    rw [Shape.children]
    apply Grid.map_seated hlayout
    intro f child
    rfl

section

variable {δ ε : Type} {f : ε → δ} {place : (Spec α → Spec α) → ε → ε}
  {place' : (Spec α → Spec α) → δ → δ}

/-- What is made of the children of a stack is seated where they are. -/
theorem Stack.seated_map {stack : Stack α ε}
    (keeps : ∀ range x, place' (stack.seat range) (f x) = f (place (stack.seat range) x))
    (layout : StackLayout α) :
    (stack.map f).seated place' layout = (stack.seated place layout).map f := by
  have same : (stack.map f).seat = stack.seat := rfl
  rw [Stack.seated, Stack.seated, List.map_zipWith, same, Stack.map, List.zipWith_map_left]
  simp only [StackChild.map, keeps]

omit [Scalar α] in
/-- What is made of the children of a grid is seated where they are. -/
theorem Grid.seated_map
    (keeps : ∀ rect x, place' (·.withRect rect) (f x) = f (place (·.withRect rect) x))
    (grid : Grid α ε) (layout : GridLayout α) :
    (grid.map f).seated place' layout = (grid.seated place layout).map f := by
  simp only [Grid.seated, Grid.map, List.map_flatMap, List.zip_map_left, List.flatMap_map,
    List.map_zipWith, Prod.map_fst, Prod.map_snd, List.zipWith_map_left, keeps, id]

end

/-! ## Places -/

namespace Element

/-- The node in another place of its parent. -/
def moved (e : Element α) (rect : Option (Rect α)) (align : Align α) : Element α :=
  e.mapSpec fun spec => { spec with rect := rect, align := align }

variable (e : Element α) (rect : Option (Rect α)) (align : Align α)

theorem measured_spec : e.measured.spec = e.spec := by
  rw [measured_eq]

/-- A node measures the same wherever it is placed. -/
theorem sizing_moved : (e.moved rect align).measured.sizing = e.measured.sizing := by
  obtain ⟨spec, style, shape⟩ := e
  rw [measured_eq, measured_eq]
  cases shape <;> rfl

theorem layoutAspect_moved : (e.moved rect align).layoutAspect = e.layoutAspect := by
  rw [layoutAspect, layoutAspect, Measured.layoutAspect, Measured.layoutAspect, sizing_moved,
    measured_spec, measured_spec]
  rfl

theorem seats_moved : (e.moved rect align).seats = e.seats := by
  obtain ⟨spec, style, shape⟩ := e
  cases shape <;> rfl

/-- A node that is placed by a spec of the same ratio is drawn as before. -/
theorem drawable_mapSpec [NumberText α] {f : Spec α → Spec α}
    (kept : (f e.spec).fixedAspect = e.spec.fixedAspect) :
    e.drawable.mapSpec f = (e.mapSpec f).drawable := by
  rw [drawable, Drawable.mapSpec, drawable, e.draw_mapSpec f kept]

end Element

/-! ## Drawing -/

variable [NumberText α]

/-- A tag that a node draws besides its children. -/
def Drawable.IsTag (d : Drawable α) : Prop :=
  ∃ spec style p, d = .ofPrimitive spec style p

/-- A frame that can plan with its child draws a rectangle or nothing, and then its child. -/
theorem Frame.exists_parts {frame : Frame α (Element α)} {aspect : Option α}
    (planned : (frame.child.withRect .unit).layoutAspect = .ok aspect) :
    ∃ own, (frame.map Element.drawable).parts =
        .ok (own ++ [(frame.child.withRect .unit).drawable]) ∧ ∀ part ∈ own, part.IsTag := by
  have measured : (frame.map Element.drawable).child.element.layoutAspect = .ok aspect := by
    rw [← planned]
    exact (frame.child.layoutAspect_moved _ frame.child.spec.align).symm
  have child : frame.child.drawable.mapSpec (·.withRect .unit) =
      (frame.child.withRect .unit).drawable := frame.child.drawable_mapSpec rfl
  rw [← child, Frame.parts, Frame.backdrop]
  by_cases bare : ((frame.map Element.drawable).border.isNone &&
      (frame.map Element.drawable).fill.isNone) = true
  · rw [if_pos bare]
    exact ⟨[], rfl, by simp⟩
  · rw [if_neg bare, measured]
    refine ⟨_, rfl, ?_⟩
    intro part hpart
    rw [List.mem_singleton.mp hpart]
    exact ⟨_, _, _, rfl⟩

/-- A stack draws its children in their seats. -/
theorem Stack.parts_eq (spec : Spec α) (stack : Stack α (Element α)) :
    (stack.map Element.drawable).parts spec =
      (fun layout => (stack.seated Element.mapSpec layout).map Element.drawable) <$>
        (stack.map Element.measured).layout spec := by
  have measured : (stack.map Element.drawable).map (·.element.measured) =
      stack.map Element.measured := by
    simp [Stack.map, StackChild.map, Function.comp_def, Element.drawable]
  rw [Stack.parts, measured]
  refine congrArg (· <$> _) (funext fun layout => ?_)
  apply Stack.seated_map
  intro range child
  exact child.drawable_mapSpec rfl

theorem Stack.parts_drawable {spec : Spec α} {stack : Stack α (Element α)} {layout : StackLayout α}
    (h : (stack.map Element.measured).layout spec = .ok layout) :
    (stack.map Element.drawable).parts spec =
      .ok ((stack.seated Element.mapSpec layout).map Element.drawable) := by
  rw [Stack.parts_eq, h]
  rfl

/-- A grid draws its children in their seats. -/
theorem Grid.parts_eq (grid : Grid α (Element α)) :
    (grid.map Element.drawable).parts =
      (fun layout => (grid.seated Element.mapSpec layout).map Element.drawable) <$>
        (grid.map Element.measured).layout := by
  have measured : (grid.map Element.drawable).map (·.element.measured) =
      grid.map Element.measured := by
    simp [Grid.map, Function.comp_def, Element.drawable]
  rw [Grid.parts, measured]
  refine congrArg (· <$> _) (funext fun layout => ?_)
  apply Grid.seated_map
  intro rect child
  exact child.drawable_mapSpec rfl

theorem Grid.parts_drawable {grid : Grid α (Element α)} {layout : GridLayout α}
    (h : (grid.map Element.measured).layout = .ok layout) :
    (grid.map Element.drawable).parts =
      .ok ((grid.seated Element.mapSpec layout).map Element.drawable) := by
  rw [Grid.parts_eq, h]
  rfl

/-- A node whose children have seats and can be planned with draws its own tags and then, in their
seats, the children that are not its mask. -/
theorem Shape.exists_parts {spec : Spec α} {shape : Shape α (Element α)} {seats : List (Element α)}
    (seated : shape.seats spec = .ok seats)
    (planned : ∀ seat ∈ seats, ∃ aspect, seat.layoutAspect = .ok aspect) (style : Style α)
    (ctx : Context α) :
    ∃ own drawn, (shape.map Element.drawable).parts spec style ctx =
        .ok (own ++ drawn.map Element.drawable) ∧
      (∀ part ∈ own, part.IsTag) ∧ seats = shape.masks ++ drawn := by
  cases shape with
  | primitive p =>
    rw [Shape.seats, Except.pure_eq_ok] at seated
    exact ⟨[], [], rfl, by simp, seated.symm⟩
  | arrow a =>
    rw [Shape.seats, Except.pure_eq_ok] at seated
    refine ⟨a.parts style ctx, [], ?_, ?_, seated.symm⟩
    · rw [List.map_nil, List.append_nil]
      rfl
    · intro part hpart
      rcases List.mem_cons.mp hpart with rfl | hpart
      · exact ⟨_, _, _, rfl⟩
      · rw [List.mem_singleton.mp hpart]
        exact ⟨_, _, _, rfl⟩
  | group g =>
    rw [Shape.seats, Except.pure_eq_ok] at seated
    exact ⟨[], g.children, rfl, by simp, seated.symm⟩
  | frame f =>
    rw [Shape.seats, Except.pure_eq_ok] at seated
    obtain ⟨aspect, haspect⟩ := planned (f.child.withRect .unit) (by simp [← seated])
    obtain ⟨own, parts, tags⟩ := Frame.exists_parts haspect
    exact ⟨own, [f.child.withRect .unit], parts, tags, seated.symm⟩
  | stack s =>
    rw [Shape.seats, Except.map_eq_ok] at seated
    obtain ⟨layout, hlayout, rfl⟩ := seated
    exact ⟨[], _, Stack.parts_drawable hlayout, by simp, rfl⟩
  | grid g =>
    rw [Shape.seats, Except.map_eq_ok] at seated
    obtain ⟨layout, hlayout, rfl⟩ := seated
    exact ⟨[], _, Grid.parts_drawable hlayout, by simp, rfl⟩

omit [NumberText α]

/-! ## All nodes -/

/-- What holds of every node of a tree in the context of its parent. The node is measured, drawn in
the context that its resolved spec determines, and seats its children there; none of this fails. -/
inductive Element.Everywhere (P : Context α → Element α → Prop) : Context α → Element α → Prop
  | node {parent : Context α} {e : Element α} {spec : Spec α} {seats : List (Element α)}
      (here : P parent e) (resolved : e.resolvedSpec = .ok spec) (seated : e.seats = .ok seats)
      (below : ∀ child ∈ seats, Everywhere P (parent.child spec) child) : Everywhere P parent e

namespace Element

variable {P : Context α → Element α → Prop} {parent : Context α}

/-- What holds everywhere holds of a node and of everything below its children in their seats. -/
theorem everywhere_iff {e : Element α} {spec : Spec α} {seats : List (Element α)}
    (resolved : e.resolvedSpec = .ok spec) (seated : e.seats = .ok seats) :
    e.Everywhere P parent ↔
      P parent e ∧ ∀ child ∈ seats, child.Everywhere P (parent.child spec) := by
  constructor
  · rintro ⟨here, resolved', seated', below⟩
    rw [resolved] at resolved'
    rw [seated] at seated'
    cases resolved'
    cases seated'
    exact ⟨here, below⟩
  · rintro ⟨here, below⟩
    exact .node here resolved seated below

/-- The contexts in which a tree is walked are those in which it is drawn. A node is drawn in the
context of its children, and there it draws tags of its own and the children that are walked, apart
from its mask, in the seats in which they are walked. -/
theorem Everywhere.follows_drawing [NumberText α]
    (planned : ∀ ctx e, P ctx e → ∃ aspect, e.layoutAspect = .ok aspect) {e : Element α}
    (h : e.Everywhere P parent) :
    ∃ spec own drawn, e.resolvedSpec = .ok spec ∧ e.seats = .ok (e.shape.masks ++ drawn) ∧
      e.drawable.contextIn parent = .ok (parent.child spec) ∧
      e.drawableShape.parts e.spec e.style (parent.child spec) =
        .ok (own ++ drawn.map Element.drawable) ∧
      (∀ part ∈ own, part.IsTag) ∧
      ∀ child ∈ e.shape.masks ++ drawn, child.Everywhere P (parent.child spec) := by
  obtain @⟨_, _, spec, seats, -, resolved, seated, below⟩ := h
  have known : ∀ seat ∈ seats, ∃ aspect, seat.layoutAspect = .ok aspect := by
    intro seat hseat
    obtain ⟨here, -⟩ := below seat hseat
    exact planned _ _ here
  obtain ⟨own, drawn, parts, tags, rfl⟩ :=
    Shape.exists_parts seated known e.style (parent.child spec)
  have context : e.drawable.contextIn parent = .ok (parent.child spec) := by
    rw [Drawable.contextIn, drawable, resolved]
    rfl
  exact ⟨spec, own, drawn, resolved, seated, context, parts, tags, below⟩

/-- Below a single tag there is nothing. -/
theorem everywhere_primitive {spec : Spec α} {style : Style α} {p : Primitive α} :
    (Element.mk spec style (.primitive p)).Everywhere P parent ↔
      P parent ⟨spec, style, .primitive p⟩ := by
  have resolved : (Element.mk spec style (.primitive p)).resolvedSpec =
      .ok (spec.resolve ⟨p.aspect spec, none⟩) := by
    rw [resolvedSpec, Measured.resolvedSpec, measured_eq]
    rfl
  have seated : (Element.mk spec style (.primitive p)).seats = .ok [] := rfl
  rw [everywhere_iff resolved seated]
  simp

end Element

end SvgLayout
