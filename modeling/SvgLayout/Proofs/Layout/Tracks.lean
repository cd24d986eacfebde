import Mathlib.Data.List.Forall2
import SvgLayout.Element.Grid
import SvgLayout.Element.Stack

/-!
# A track for every child

A layout that was found has as many tracks as a container has children: one range for each child of
a stack, one row for each row of a grid, and a column for each child of its longest row.

## Main statements

* `Except.mapM_eq_ok` — a list of results is a result for each entry.
* `Stack.length_ranges` — one range for each child.
* `Grid.length_tracks` — a column and a row for each child.
* `Stack.forall₂_seated`, `Grid.forall₂_seated` — every child has a seat, in order.
* `Stack.mem_seated` — every seat of a stack is a child's.
-/

/-! ## Results -/

namespace Except

variable {ε α β : Type}

@[simp] theorem pure_eq_ok {a b : α} : (pure a : Except ε α) = .ok b ↔ a = b := by
  simp [pure, Except.pure]

@[simp] theorem throw_eq_ok {e : ε} {b : α} : (throw e : Except ε α) = .ok b ↔ False := by
  simp [throw, throwThe, MonadExceptOf.throw]

/-- One computation after another has a result if both have one. -/
@[simp] theorem bind_eq_ok {x : Except ε α} {f : α → Except ε β} {b : β} :
    (x >>= f) = .ok b ↔ ∃ a, x = .ok a ∧ f a = .ok b := by
  cases x <;> simp [bind, Except.bind]

@[simp] theorem map_eq_ok {x : Except ε α} {f : α → β} {b : β} :
    (f <$> x) = .ok b ↔ ∃ a, x = .ok a ∧ f a = b := by
  cases x <;> simp [Functor.map, Except.map]

/-- A list of results is a result for each entry. -/
theorem mapM_eq_ok {f : α → Except ε β} {xs : List α} {ys : List β} :
    xs.mapM f = .ok ys ↔ List.Forall₂ (fun x y => f x = .ok y) xs ys := by
  induction xs generalizing ys with
  | nil =>
    rw [List.mapM_nil, pure_eq_ok, List.forall₂_nil_left_iff, eq_comm]
  | cons x xs ih =>
    simp only [List.mapM_cons, bind_eq_ok, pure_eq_ok, ih]
    constructor
    · rintro ⟨y, hy, ys, hys, rfl⟩
      exact .cons hy hys
    · rintro (_ | ⟨hy, hys⟩)
      exact ⟨_, hy, _, hys, rfl⟩

end Except

namespace SvgLayout

variable {α : Type} [Scalar α]

/-! ## Stacks -/

theorem length_divideStack (items : List (StackItem α)) (room : α) (length : Option α) :
    (divideStack items room length).1.length = items.length := by
  rw [divideStack]
  by_cases settled : isSettled items (Scalar.sum (items.map StackItem.share)) = true
  · rw [if_pos settled, fixedShares]
    by_cases excess : 1.0 < Scalar.sum (items.map StackItem.share) <;> simp [excess]
  · rw [if_neg settled]
    simp [grownShares]

/-- Every item gets a range. -/
theorem length_ranges_solveStack (items : List (StackItem α)) (gap : α) (length : Option α) :
    (solveStack items gap length).ranges.length = items.length := by
  rw [solveStack]
  by_cases empty : items.isEmpty = true
  · rw [if_pos empty, List.isEmpty_iff.mp empty]
    rfl
  · rw [if_neg empty, length_tracks, List.length_map]
    exact length_divideStack items _ length

/-- Every child of a stack gets a range. -/
theorem Stack.length_ranges {spec : Spec α} {stack : Stack α (Measured α)} {layout : StackLayout α}
    (h : stack.layout spec = .ok layout) : layout.ranges.length = stack.children.length := by
  rw [Stack.layout, Except.bind_eq_ok] at h
  obtain ⟨items, hitems, hlayout⟩ := h
  rw [Except.pure_eq_ok] at hlayout
  rw [← hlayout, length_ranges_solveStack]
  exact (Except.mapM_eq_ok.mp hitems).length_eq.symm

/-! ## Grids -/

omit [Scalar α] in
/-- No row is longer than there are columns. -/
theorem length_le_columnCount {β : Type} {rows : List (List β)} {row : List β} (h : row ∈ rows) :
    row.length ≤ columnCount rows := by
  have grow : ∀ (lengths : List Nat) (n : Nat), n ≤ lengths.foldl Nat.max n ∧
      ∀ l ∈ lengths, l ≤ lengths.foldl Nat.max n := by
    intro lengths
    induction lengths with
    | nil => simp
    | cons l lengths ih =>
      intro n
      obtain ⟨start, rest⟩ := ih (n.max l)
      have hn : n ≤ n.max l := Nat.le_max_left n l
      have hl : l ≤ n.max l := Nat.le_max_right n l
      rw [List.foldl_cons, List.forall_mem_cons]
      exact ⟨Nat.le_trans hn start, Nat.le_trans hl start, rest⟩
  exact (grow (rows.map List.length) 0).2 _ (List.mem_map_of_mem h)

omit [Scalar α] in
/-- No more columns are needed than the longest row has cells. -/
theorem columnCount_le {β : Type} {rows : List (List β)} {columns : Nat}
    (h : ∀ row ∈ rows, row.length ≤ columns) : columnCount rows ≤ columns := by
  have grow : ∀ (lengths : List Nat) (n : Nat), n ≤ columns → (∀ l ∈ lengths, l ≤ columns) →
      lengths.foldl Nat.max n ≤ columns := by
    intro lengths
    induction lengths with
    | nil => exact fun _ start _ => start
    | cons l lengths ih =>
      intro n start all
      obtain ⟨first, rest⟩ := List.forall_mem_cons.mp all
      exact ih _ (Nat.max_le.mpr ⟨start, first⟩) rest
  exact grow _ 0 (Nat.zero_le _) (List.forall_mem_map.mpr h)

omit [Scalar α] in
/-- As many columns are needed by rows of the same lengths. -/
theorem columnCount_congr {β γ : Type} {rows : List (List β)} {others : List (List γ)}
    (h : others.map List.length = rows.map List.length) :
    columnCount others = columnCount rows := by
  rw [columnCount, columnCount, h]

omit [Scalar α] in
/-- Where a column is needed there is a row. -/
theorem ne_nil_of_columnCount {β : Type} {rows : List (List β)} (nonempty : columnCount rows ≠ 0) :
    rows ≠ [] := by
  rintro rfl
  exact nonempty rfl

omit [Scalar α] in
theorem isEmpty_or_eq_false {β : Type} {rows : List (List β)} (nonempty : columnCount rows ≠ 0) :
    (rows.isEmpty || columnCount rows == 0) = false := by
  simp [ne_nil_of_columnCount nonempty, nonempty]

theorem checkWeights_eq_ok {axis : String} {weights : Option (List α)} {count : Nat} {u : Unit}
    (h : Grid.checkWeights axis weights count = .ok u) :
    ∀ ws ∈ weights, ws.length = count ∧ ws.all Scalar.isPositive := by
  cases weights with
  | none => simp
  | some ws =>
    rw [Grid.checkWeights] at h
    by_cases hw : ws.length = count ∧ ws.all Scalar.isPositive
    · simpa using hw
    · rw [if_neg hw, Except.throw_eq_ok] at h
      exact h.elim

theorem length_logAspects (columns : Nat) (aspects : List (List (Option α))) :
    (logAspects columns aspects).length = aspects.length := by
  simp [logAspects]

/-- The weights of the columns, given or fitted. -/
theorem length_widths_gridWeights {columns : Nat} {aspects : List (List (Option α))}
    {widths heights : Option (List α)} (h : ∀ ws ∈ widths, ws.length = columns) :
    (gridWeights columns aspects widths heights).widths.length = columns := by
  cases widths with
  | none => simp [gridWeights, normalize]
  | some ws => simpa [gridWeights, normalize] using h

/-- The weights of the rows, given or fitted. -/
theorem length_heights_gridWeights {columns : Nat} {aspects : List (List (Option α))}
    {widths heights : Option (List α)} (h : ∀ ws ∈ heights, ws.length = aspects.length) :
    (gridWeights columns aspects widths heights).heights.length = aspects.length := by
  cases heights with
  | none => simp [gridWeights, normalize, length_logAspects]
  | some ws => simpa [gridWeights, normalize] using h

/-- A grid with children has a column for each child of its longest row, and a row for each row. -/
theorem length_solveGrid {aspects : List (List (Option α))} {widths heights : Option (List α)}
    (hw : ∀ ws ∈ widths, ws.length = columnCount aspects)
    (hh : ∀ ws ∈ heights, ws.length = aspects.length) (spacing : GridSpacing α)
    (nonempty : columnCount aspects ≠ 0) :
    (solveGrid aspects widths heights spacing).columns.length = columnCount aspects ∧
      (solveGrid aspects widths heights spacing).rows.length = aspects.length := by
  simp only [solveGrid, isEmpty_or_eq_false nonempty]
  constructor
  · simp [length_widths_gridWeights hw]
  · simp [length_heights_gridWeights hh]

/-- The ratios of the children of a grid are as many in each row. -/
theorem lengths_of_mapM {rows : List (List (Measured α))} {aspects : List (List (Option α))}
    (h : rows.mapM (List.mapM Measured.layoutAspect) = .ok aspects) :
    aspects.map List.length = rows.map List.length := by
  symm
  rw [← List.forall₂_eq_eq_eq, List.forall₂_map_left_iff, List.forall₂_map_right_iff]
  exact (Except.mapM_eq_ok.mp h).imp fun _ _ hrow => (Except.mapM_eq_ok.mp hrow).length_eq

/-- A layout is that of the ratios of the children and of the given weights, which pass their
checks. -/
theorem Grid.layout_eq_ok {grid : Grid α (Measured α)} {layout : GridLayout α}
    (h : grid.layout = .ok layout) :
    ∃ aspects, grid.rows.mapM (List.mapM Measured.layoutAspect) = .ok aspects ∧
      columnCount aspects = columnCount grid.rows ∧ aspects.length = grid.rows.length ∧
      checkWeights "column" grid.widths (columnCount grid.rows) = .ok () ∧
      checkWeights "row" grid.heights grid.rows.length = .ok () ∧
      layout = solveGrid aspects grid.widths grid.heights grid.spacing := by
  simp only [Grid.layout, Except.bind_eq_ok, Except.pure_eq_ok] at h
  obtain ⟨_, hw, _, hh, aspects, ha, rfl⟩ := h
  have lengths := lengths_of_mapM ha
  exact ⟨aspects, ha, columnCount_congr lengths, by simpa using congrArg List.length lengths, hw,
    hh, rfl⟩

/-- A grid that has a layout has a cell for each of its children. -/
theorem Grid.length_tracks {grid : Grid α (Measured α)} {layout : GridLayout α}
    (h : grid.layout = .ok layout) (nonempty : columnCount grid.rows ≠ 0) :
    layout.columns.length = columnCount grid.rows ∧ layout.rows.length = grid.rows.length := by
  obtain ⟨aspects, -, count, rows, hw, hh, rfl⟩ := Grid.layout_eq_ok h
  rw [← count] at nonempty hw ⊢
  rw [← rows] at hh ⊢
  exact length_solveGrid (fun ws hws => (checkWeights_eq_ok hw ws hws).1)
    (fun ws hws => (checkWeights_eq_ok hh ws hws).1) _ nonempty

/-! ## Seats -/

section

variable {β γ δ ε : Type}

/-- The entries of a list correspond to what they are combined to with the entries of a list that is
long enough. -/
theorem forall₂_zipWith {R : β → γ → Prop} {f : β → δ → γ} {xs : List β} {ys : List δ}
    (long : xs.length ≤ ys.length) (h : ∀ x ∈ xs, ∀ y, R x (f x y)) :
    List.Forall₂ R xs (List.zipWith f xs ys) := by
  induction xs generalizing ys with
  | nil => exact .nil
  | cons x xs ih =>
    cases ys with
    | nil => simp at long
    | cons y ys =>
      obtain ⟨hx, hxs⟩ := List.forall_mem_cons.mp h
      exact .cons (hx y) (ih (Nat.le_of_succ_le_succ long) hxs)

/-- Entries that correspond by having the same value make lists of the same values. -/
theorem map_eq_map_of_forall₂ {f : β → δ} {g : γ → δ} {xs : List β} {ys : List γ}
    (h : List.Forall₂ (fun x y => g y = f x) xs ys) : ys.map g = xs.map f := by
  rw [eq_comm, ← List.forall₂_eq_eq_eq, List.forall₂_map_left_iff, List.forall₂_map_right_iff]
  exact h.imp fun _ _ same => same.symm

variable {place : (Spec α → Spec α) → ε → ε} {measure : ε → Measured α}

section

variable {spec : Spec α} {stack : Stack α ε} {layout : StackLayout α}
  (h : (stack.map measure).layout spec = .ok layout)

include h

/-- Every child of a measured stack gets a range. -/
theorem Stack.length_ranges_map : layout.ranges.length = stack.children.length := by
  simpa [Stack.map] using Stack.length_ranges h

/-- Every child of a measured stack has a seat, in order, and is related to it as each child is to
each of its seats. -/
theorem Stack.forall₂_seated {R : ε → ε → Prop}
    (seats : ∀ range x, R x (place (stack.seat range) x)) :
    List.Forall₂ R (stack.children.map StackChild.element) (stack.seated place layout) := by
  rw [List.forall₂_map_left_iff]
  refine forall₂_zipWith (Nat.le_of_eq (Stack.length_ranges_map h).symm) ?_
  intro child _ range
  exact seats range child.element

/-- What does not depend on the place of a child is seated as it is. -/
theorem Stack.map_seated {g : ε → γ} (keeps : ∀ f x, g (place f x) = g x) :
    (stack.seated place layout).map g = stack.children.map fun child => g child.element := by
  rw [map_eq_map_of_forall₂ (Stack.forall₂_seated h fun _ _ => keeps _ _), List.map_map]
  rfl

end

/-- A seat of a stack is a child in a range. -/
theorem Stack.mem_seated {stack : Stack α ε} {layout : StackLayout α} {seat : ε}
    (h : seat ∈ stack.seated place layout) :
    ∃ child range, (child, range) ∈ stack.children.zip layout.ranges ∧
      seat = place (stack.seat range) child.element := by
  rw [Stack.seated, ← List.map_uncurry_zip_eq_zipWith] at h
  obtain ⟨⟨child, range⟩, hzip, rfl⟩ := List.mem_map.mp h
  exact ⟨child, range, hzip, rfl⟩

section

variable {grid : Grid α ε} {layout : GridLayout α}
  (h : (grid.map measure).layout = .ok layout)

include h

/-- A measured grid with a column has one for each child of a row, and a row for each row. -/
theorem Grid.length_tracks_map (nonempty : columnCount grid.rows ≠ 0) :
    (∀ row ∈ grid.rows, row.length ≤ layout.columns.length) ∧
      layout.rows.length = grid.rows.length := by
  have count : columnCount (grid.map measure).rows = columnCount grid.rows :=
    columnCount_congr (by simp [Grid.map])
  obtain ⟨columns, rows⟩ := Grid.length_tracks h (count ▸ nonempty)
  rw [count] at columns
  rw [Grid.map, List.length_map] at rows
  exact ⟨fun row hrow => columns ▸ length_le_columnCount hrow, rows⟩

/-- Every child of a measured grid has a seat, row by row, and is related to it as each child is to
each of its seats. -/
theorem Grid.forall₂_seated {R : ε → ε → Prop}
    (seats : ∀ rect x, R x (place (·.withRect rect) x)) :
    List.Forall₂ R grid.rows.flatten (grid.seated place layout) := by
  rw [Grid.seated, List.flatMap_def]
  by_cases empty : columnCount grid.rows = 0
  · -- The layout has no rows then, but all rows of the grid are empty.
    have empty : ∀ row ∈ grid.rows, row = [] := by
      intro row hrow
      exact List.length_eq_zero_iff.mp (Nat.le_zero.mp (empty ▸ length_le_columnCount hrow))
    rw [List.flatten_eq_nil_iff.mpr empty, List.forall₂_nil_left_iff, List.flatten_eq_nil_iff,
      List.forall_mem_map]
    rintro ⟨row, y⟩ hzip
    rw [empty row (List.of_mem_zip hzip).1]
    rfl
  · obtain ⟨columns, rows⟩ := Grid.length_tracks_map h empty
    rw [List.zip, List.map_zipWith]
    refine List.rel_flatten (forall₂_zipWith (Nat.le_of_eq rows.symm) fun row hrow y => ?_)
    refine forall₂_zipWith (columns row hrow) fun child _ x => ?_
    exact seats _ child

/-- What does not depend on the place of a child is seated as it is. -/
theorem Grid.map_seated {g : ε → γ} (keeps : ∀ f x, g (place f x) = g x) :
    (grid.seated place layout).map g = grid.rows.flatten.map g :=
  map_eq_map_of_forall₂ (Grid.forall₂_seated h fun _ _ => keeps _ _)

end

end

end SvgLayout
