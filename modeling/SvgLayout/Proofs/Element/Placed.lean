import SvgLayout.Proofs.Element.Seats

/-!
# The children of stacks and grids in their places

A stack and a grid that have a layout place each of their children once, in order, and change
nothing of a child but its place: a stack gives it a range of the main axis, all of the cross axis
and maybe an alignment across, a grid gives it a cell. This is so for rows of any lengths, even for
empty ones, since there are as many ranges, columns and rows as the children need.

## Main definitions

* `Element.MovedTo` — a node in another place.
* `Stack.Places`, `Grid.Places` — where the children are.
* `Shape.ownParts` — the tags of its own that a node draws, in their places.

## Main statements

* `Stack.places_seated`, `Grid.places_seated` — every child is in its place.
* `Shape.parts_seated`, `Shape.parts_moved` — the children that a node draws are its own, in their
  seats, and only moved.
* `Shape.forall_parts_of_moved` — what holds of all parts of a node.
-/

namespace SvgLayout

variable {α : Type}

/-! ## Axes -/

namespace Direction

/-- The interval of a rectangle on the main axis. -/
def mainLimit (rect : Rect α) : Direction → Limit α
  | vertical => rect.yLimit
  | horizontal => rect.xLimit

/-- The interval of a rectangle on the cross axis. -/
def crossLimit (rect : Rect α) : Direction → Limit α
  | vertical => rect.xLimit
  | horizontal => rect.yLimit

/-- The part of an alignment on the main axis. -/
def mainAnchor (align : Align α) : Direction → α
  | vertical => align.y
  | horizontal => align.x

/-- The part of an alignment on the cross axis. -/
def crossAnchor (align : Align α) : Direction → α
  | vertical => align.x
  | horizontal => align.y

end Direction

variable [Scalar α]

/-! ## Places -/

/-- A node that differs from another at most in its rectangle and its alignment. -/
def Element.MovedTo (e placed : Element α) : Prop :=
  ∃ rect align, placed = e.moved rect align

omit [Scalar α] in
theorem Element.MovedTo.refl (e : Element α) : e.MovedTo e := by
  cases e
  exact ⟨_, _, rfl⟩

/-- The children of a stack are in their places: the `k`-th is as it was but for its place. It has
the `k`-th range on the main axis and the unit interval on the cross axis, and is aligned across as
the stack says, if it says so. -/
structure Stack.Places (stack : Stack α (Element α)) (layout : StackLayout α)
    (placed : List (Element α)) : Prop where
  count : placed.length = stack.children.length
  place : ∀ (k : Nat) (child : StackChild α (Element α)), stack.children[k]? = some child →
    ∃ range rect align, layout.ranges[k]? = some range ∧
      placed[k]? = some (child.element.moved (some rect) align) ∧
      stack.direction.mainLimit rect = range ∧ stack.direction.crossLimit rect = .unit ∧
      stack.direction.mainAnchor align = stack.direction.mainAnchor child.element.spec.align ∧
      stack.direction.crossAnchor align =
        stack.align.getD (stack.direction.crossAnchor child.element.spec.align)

/-- The children of a grid are in their places, row by row: each is as it was but for its rectangle,
which is the cell of its column and its row. -/
structure Grid.Places (grid : Grid α (Element α)) (layout : GridLayout α)
    (placed : List (Element α)) : Prop where
  count : placed.length = grid.rows.flatten.length
  place : ∀ (i j : Nat) (row : List (Element α)) (child : Element α), grid.rows[i]? = some row →
    row[j]? = some child → ∃ x y, layout.columns[j]? = some x ∧ layout.rows[i]? = some y ∧
      placed[(grid.rows.take i).flatten.length + j]? = some (child.withRect (.ofLimits x y))

/-! ## Lists -/

section

variable {β γ δ : Type}

/-- An entry of the `i`-th list stands behind all entries of the lists before it. -/
theorem getElem?_flatten {xss : List (List β)} {xs : List β} {i j : Nat} (hi : xss[i]? = some xs)
    (hj : j < xs.length) : xss.flatten[(xss.take i).flatten.length + j]? = xs[j]? := by
  induction xss generalizing i with
  | nil => simp at hi
  | cons first xss ih =>
    cases i with
    | zero =>
      obtain rfl : first = xs := by simpa using hi
      simp [List.getElem?_append_left hj]
    | succ i =>
      rw [List.getElem?_cons_succ] at hi
      rw [List.take_succ_cons, List.flatten_cons, List.flatten_cons, List.length_append,
        Nat.add_assoc, List.getElem?_append_right (Nat.le_add_right _ _), Nat.add_sub_cancel_left]
      exact ih hi

/-- Every entry of a list that corresponds to another one corresponds to an entry of it. -/
theorem exists_of_forall₂ {R : β → γ → Prop} {xs : List β} {ys : List γ}
    (h : List.Forall₂ R xs ys) : ∀ x ∈ xs, ∃ y ∈ ys, R x y := by
  induction h with
  | nil => simp
  | cons first _ ih =>
    rw [List.forall_mem_cons]
    refine ⟨⟨_, List.mem_cons_self, first⟩, fun x hx => ?_⟩
    obtain ⟨y, hy, hR⟩ := ih x hx
    exact ⟨y, List.mem_cons_of_mem _ hy, hR⟩

end

/-! ## Stacks -/

/-- A stack that has a layout places every child in its range. -/
theorem Stack.places_seated {spec : Spec α} {stack : Stack α (Element α)} {layout : StackLayout α}
    (h : (stack.map Element.measured).layout spec = .ok layout) :
    stack.Places layout (stack.seated Element.mapSpec layout) := by
  have length := Stack.length_ranges_map h
  constructor
  · simp [seated, length]
  · intro k child hchild
    obtain ⟨range, hrange⟩ : ∃ range, layout.ranges[k]? = some range :=
      ⟨_, List.getElem?_eq_getElem (length ▸ (List.getElem?_eq_some_iff.mp hchild).1)⟩
    let placed := stack.seat range child.element.spec
    refine ⟨range, stack.direction.slot range, placed.align, hrange, ?_, ?_, ?_, ?_, ?_⟩
    · rw [seated, List.getElem?_zipWith, hchild, hrange]
      rfl
    · cases stack.direction <;> rfl
    · cases stack.direction <;> rfl
    · cases align : stack.align <;> cases direction : stack.direction <;>
        simp [placed, seat, align, direction, Direction.alignCross, Direction.mainAnchor]
    · cases align : stack.align <;> cases direction : stack.direction <;>
        simp [placed, seat, align, direction, Direction.alignCross, Direction.crossAnchor]

/-! ## Grids -/

namespace Grid

/-- The children of a row in the columns of a layout. -/
def rowCells (layout : GridLayout α) (row : List (Element α)) (y : Limit α) : List (Element α) :=
  row.zipWith (fun child x => child.withRect (.ofLimits x y)) layout.columns

def cells (grid : Grid α (Element α)) (layout : GridLayout α) : List (List (Element α)) :=
  grid.rows.zipWith (rowCells layout) layout.rows

variable {grid : Grid α (Element α)} {layout : GridLayout α}

omit [Scalar α] in
theorem seated_eq_flatten : grid.seated Element.mapSpec layout = (grid.cells layout).flatten := by
  rw [seated, List.flatMap_def, List.zip, List.map_zipWith]
  rfl

/-- A grid that has a layout places every child in its cell. -/
theorem places_seated (h : (grid.map Element.measured).layout = .ok layout) :
    grid.Places layout (grid.seated Element.mapSpec layout) := by
  have moved :
      List.Forall₂ Element.MovedTo grid.rows.flatten (grid.seated Element.mapSpec layout) :=
    forall₂_seated h fun rect child => ⟨rect, child.spec.align, rfl⟩
  refine ⟨moved.length_eq.symm, ?_⟩
  intro i j row child hrow hchild
  have inRow : j < row.length := (List.getElem?_eq_some_iff.mp hchild).1
  have widest : row.length ≤ columnCount grid.rows :=
    length_le_columnCount (List.mem_of_getElem? hrow)
  obtain ⟨columns, rows⟩ := length_tracks_map h (by omega)
  obtain ⟨x, hx⟩ : ∃ x, layout.columns[j]? = some x := by
    have wide := columns row (List.mem_of_getElem? hrow)
    exact ⟨_, List.getElem?_eq_getElem (Nat.lt_of_lt_of_le inRow wide)⟩
  obtain ⟨y, hy⟩ : ∃ y, layout.rows[i]? = some y :=
    ⟨_, List.getElem?_eq_getElem (rows ▸ (List.getElem?_eq_some_iff.mp hrow).1)⟩
  have hcells : (grid.cells layout)[i]? = some (rowCells layout row y) := by
    rw [cells, List.getElem?_zipWith, hrow, hy]
  have hcell : (rowCells layout row y)[j]? = some (child.withRect (.ofLimits x y)) := by
    rw [rowCells, List.getElem?_zipWith, hchild, hx]
  have lengths : (grid.cells layout).map List.length = grid.rows.map List.length := by
    refine map_eq_map_of_forall₂ (forall₂_zipWith (Nat.le_of_eq rows.symm) fun row hrow y => ?_)
    simp [rowCells, columns row hrow]
  have before :
      (grid.rows.take i).flatten.length = ((grid.cells layout).take i).flatten.length := by
    rw [List.length_flatten, List.length_flatten, List.map_take, List.map_take, lengths]
  refine ⟨x, y, hx, hy, ?_⟩
  rw [seated_eq_flatten, before, getElem?_flatten hcells, hcell]
  exact (List.getElem?_eq_some_iff.mp hcell).1

end Grid

/-! ## Parts -/

variable [NumberText α]

/-- Behind its child a frame draws tags only. -/
theorem Frame.isTag_backdrop {frame : Frame α (Drawable α)} {back : List (Drawable α)}
    (h : frame.backdrop = .ok back) : ∀ part ∈ back, part.IsTag := by
  rw [Frame.backdrop] at h
  split at h
  next =>
    rw [← Except.pure_eq_ok.mp h]
    simp
  next =>
    obtain ⟨aspect, -, h⟩ := Except.bind_eq_ok.mp h
    rw [← Except.pure_eq_ok.mp h]
    simpa using ⟨_, _, _, rfl⟩

/-- The tags of its own that a node draws before its children, in their places. -/
def Shape.ownParts (style : Style α) (ctx : Context α) :
    Shape α (Drawable α) → Except (LayoutError α) (List (Drawable α))
  | arrow a => pure (a.parts style ctx)
  | frame f => f.backdrop
  | _ => pure []

theorem Shape.isTag_ownParts {style : Style α} {ctx : Context α} {shape : Shape α (Drawable α)}
    {own : List (Drawable α)} (h : shape.ownParts style ctx = .ok own) :
    ∀ part ∈ own, part.IsTag := by
  cases shape with
  | arrow a =>
    rw [← Except.pure_eq_ok.mp h]
    simpa [Arrow.parts] using ⟨⟨_, _, _, rfl⟩, ⟨_, _, _, rfl⟩⟩
  | frame f => exact Frame.isTag_backdrop h
  | _ =>
    rw [← Except.pure_eq_ok.mp h]
    simp

/-- The parts of a node are tags of its own and then its children in their seats, each of them only
moved. -/
theorem Shape.parts_seated {spec : Spec α} {style : Style α} {ctx : Context α}
    {shape : Shape α (Element α)} {parts : List (Drawable α)}
    (h : (shape.map Element.drawable).parts spec style ctx = .ok parts) :
    ∃ own drawn, (shape.map Element.drawable).ownParts style ctx = .ok own ∧
      parts = own ++ drawn.map Element.drawable ∧ shape.seats spec = .ok (shape.masks ++ drawn) ∧
      List.Forall₂ Element.MovedTo shape.placed drawn := by
  cases shape with
  | primitive p =>
    rw [← Except.pure_eq_ok.mp h]
    exact ⟨[], [], rfl, rfl, rfl, .nil⟩
  | arrow a =>
    rw [← Except.pure_eq_ok.mp h]
    exact ⟨a.parts style ctx, [], rfl, (List.append_nil _).symm, rfl, .nil⟩
  | group g =>
    rw [← Except.pure_eq_ok.mp h]
    refine ⟨[], g.children, rfl, rfl, rfl, ?_⟩
    exact List.forall₂_same.mpr fun child _ => .refl child
  | frame f =>
    obtain ⟨back, hback, h⟩ := Except.bind_eq_ok.mp h
    rw [← Except.pure_eq_ok.mp h]
    refine ⟨back, [f.child.withRect .unit], hback, ?_, rfl, ?_⟩
    · exact congrArg (back ++ [·]) (f.child.drawable_mapSpec rfl)
    · exact .cons ⟨some .unit, f.child.spec.align, rfl⟩ .nil
  | stack s =>
    rw [map, Shape.parts, Stack.parts_eq, Except.map_eq_ok] at h
    obtain ⟨layout, hlayout, rfl⟩ := h
    have seated : (stack s).seats spec = .ok (s.seated Element.mapSpec layout) := by
      rw [seats, hlayout]
      rfl
    refine ⟨[], _, rfl, rfl, seated, Stack.forall₂_seated hlayout fun range child => ?_⟩
    exact ⟨_, _, rfl⟩
  | grid g =>
    rw [map, Shape.parts, Grid.parts_eq, Except.map_eq_ok] at h
    obtain ⟨layout, hlayout, rfl⟩ := h
    have seated : (grid g).seats spec = .ok (g.seated Element.mapSpec layout) := by
      rw [seats, hlayout]
      rfl
    refine ⟨[], _, rfl, rfl, seated, Grid.forall₂_seated hlayout fun rect child => ?_⟩
    exact ⟨_, _, rfl⟩

/-- What holds of the tags of a node's own and of its children in all places holds of its parts. -/
theorem Shape.forall_parts_of_moved {spec : Spec α} {style : Style α} {ctx : Context α}
    {shape : Shape α (Element α)} {parts : List (Drawable α)} {P : Drawable α → Prop}
    (h : (shape.map Element.drawable).parts spec style ctx = .ok parts)
    (own : ∀ own, (shape.map Element.drawable).ownParts style ctx = .ok own → ∀ part ∈ own, P part)
    (below : ∀ child ∈ shape.placed, ∀ d, child.MovedTo d → P d.drawable) :
    ∀ part ∈ parts, P part := by
  obtain ⟨tags, drawn, htags, rfl, -, moved⟩ := Shape.parts_seated h
  intro part hpart
  rcases List.mem_append.mp hpart with htag | hdrawn
  · exact own tags htags part htag
  · obtain ⟨d, hd, rfl⟩ := List.mem_map.mp hdrawn
    obtain ⟨child, hplaced, hmoved⟩ := exists_of_forall₂ moved.flip d hd
    exact below child hplaced d hmoved

/-- The parts of a node are tags of its own and then its children, each of them only moved. -/
theorem Shape.parts_moved {spec : Spec α} {style : Style α} {ctx : Context α}
    {shape : Shape α (Element α)} {parts : List (Drawable α)}
    (h : (shape.map Element.drawable).parts spec style ctx = .ok parts) :
    ∃ own drawn, parts = own ++ drawn.map Element.drawable ∧ (∀ part ∈ own, part.IsTag) ∧
      List.Forall₂ Element.MovedTo shape.placed drawn := by
  obtain ⟨own, drawn, hown, hparts, -, moved⟩ := Shape.parts_seated h
  exact ⟨own, drawn, hparts, Shape.isTag_ownParts hown, moved⟩

end SvgLayout
