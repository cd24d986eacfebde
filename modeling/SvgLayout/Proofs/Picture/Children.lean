import SvgLayout.Proofs.Element.Leaves
import SvgLayout.Proofs.Element.Placed
import SvgLayout.Proofs.Picture.Drawn

/-!
# Every child is drawn once

Stacks and grids place each of their children once and in order, and change nothing of them but
their places. So what is seen of a tree is drawn once each, in the order of the tree.

## Main statements

* `children_are_kept` — no child is lost, repeated, reordered or altered.
-/

namespace SvgLayout

variable {α : Type} [Scalar α] [NumberText α]

/-- The leaves of a picture are those of its tree. -/
theorem Picture.leaves_body {root : Element α} {options : RenderOptions α} {picture : Picture α}
    (h : Picture.draw root options = .ok picture)
    (plain : ∀ node ∈ root.nodes, node.shape.debug = false) :
    picture.body.leaves.map Markup.skeleton = root.leaves.map (Trim.sketch options.precision) := by
  have leaves := root.leaves_sketch options.precision plain .empty
  rw [Picture.sketch_run h, Markup.leaves_skeleton] at leaves
  exact leaves

/-- Stacks and grids keep their children. One that has a layout places each of its children once, in
order, and only its rectangle and the alignment across a stack may differ from the child: it has its
range of a stack, or the cell of its column and row in a grid, whatever the lengths of the rows. So
the leaves of a picture without outlines are those of its tree, once each and in order, up to the
attributes that depend on pixels. -/
theorem children_are_kept :
    (∀ (spec : Spec α) (stack : Stack α (Element α)) (layout : StackLayout α),
      (stack.map Element.measured).layout spec = .ok layout → ∃ placed,
        (stack.map Element.drawable).parts spec = .ok (placed.map Element.drawable) ∧
        stack.Places layout placed) ∧
    (∀ (grid : Grid α (Element α)) (layout : GridLayout α),
      (grid.map Element.measured).layout = .ok layout → ∃ placed,
        (grid.map Element.drawable).parts = .ok (placed.map Element.drawable) ∧
        grid.Places layout placed) ∧
    ∀ (root : Element α) (options : RenderOptions α) (svg : String),
      renderSvg root options = .ok svg → (∀ node ∈ root.nodes, node.shape.debug = false) →
        ∃ picture, Picture.draw root options = .ok picture ∧
          svg = picture.text options.precision ∧
          picture.body.leaves.map Markup.skeleton =
            root.leaves.map (Trim.sketch options.precision) := by
  refine ⟨?_, ?_, ?_⟩
  · intro spec stack layout h
    exact ⟨_, Stack.parts_drawable h, Stack.places_seated h⟩
  · intro grid layout h
    exact ⟨_, Grid.parts_drawable h, Grid.places_seated h⟩
  · intro root options svg h plain
    obtain ⟨picture, hdraw, rfl⟩ := renderSvg_eq_ok.mp h
    exact ⟨picture, hdraw, rfl, Picture.leaves_body hdraw plain⟩

/-! ## A shelf -/

/-- A grid whose second row is empty and whose last row is the longest. -/
def raggedGrid : Grid Float (Element Float) :=
  ⟨[[.ellipse], [], [.rectangle none, .ellipse]], some [1.0, 2.0], some [1.0, 1.0, 2.0],
    ⟨0.1, 0.0⟩, false⟩

/-- The children of the shelf: a framed text, and the grid. -/
def shelfStack : Stack Float (Element Float) :=
  let note : Element Float := ⟨.plain, .empty, .primitive (.text "note" 2.0)⟩
  let framed : Element Float :=
    ⟨Spec.plain.withAutoCoord, .empty, .frame ⟨note, 0.25, 0.0, some .plain, none⟩⟩
  let grid : Element Float := ⟨.ofAspect 1.0, .empty, .grid raggedGrid⟩
  ⟨.horizontal, [⟨framed, none, true⟩, ⟨grid, none, true⟩], 0.1, some 0.0, false⟩

/-- A framed text beside a grid. -/
def shelf : Element Float :=
  .stack shelfStack

/-- The stack and the grid of the shelf keep their children, and five tags are seen of it: the
frame, its text, and the three children of the grid. -/
theorem children_are_kept_shelf :
    (∃ layout placed, (shelfStack.map Element.measured).layout .plain = .ok layout ∧
      (shelfStack.map Element.drawable).parts .plain = .ok (placed.map Element.drawable) ∧
      shelfStack.Places layout placed) ∧
    (∃ layout placed, (raggedGrid.map Element.measured).layout = .ok layout ∧
      (raggedGrid.map Element.drawable).parts = .ok (placed.map Element.drawable) ∧
      raggedGrid.Places layout placed ∧ placed.length = 3) ∧
    ∃ picture, Picture.draw shelf .plain = .ok picture ∧ picture.body.leaves.length = 5 := by
  obtain ⟨ofStack, ofGrid, ofTree⟩ := children_are_kept (α := Float)
  refine ⟨?_, ?_, ?_⟩
  · obtain ⟨layout, h⟩ : ∃ layout, (shelfStack.map Element.measured).layout .plain = .ok layout :=
      ⟨_, rfl⟩
    obtain ⟨placed, parts, places⟩ := ofStack _ _ _ h
    exact ⟨layout, placed, h, parts, places⟩
  · obtain ⟨layout, h⟩ : ∃ layout, (raggedGrid.map Element.measured).layout = .ok layout :=
      ⟨_, rfl⟩
    obtain ⟨placed, parts, places⟩ := ofGrid _ _ h
    exact ⟨layout, placed, h, parts, places, places.count⟩
  · obtain ⟨svg, h⟩ : ∃ svg, renderSvg shelf .plain = .ok svg :=
      exists_of_isSome_renderSvg (by decide +kernel)
    have plain : ∀ node ∈ shelf.nodes, node.shape.debug = false := by
      decide +kernel
    obtain ⟨picture, hdraw, -, leaves⟩ := ofTree shelf .plain svg h plain
    refine ⟨picture, hdraw, ?_⟩
    have count := congrArg List.length leaves
    rw [List.length_map, List.length_map] at count
    exact count

end SvgLayout
