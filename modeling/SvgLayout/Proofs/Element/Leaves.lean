import SvgLayout.Proofs.Element.Nodes
import SvgLayout.Proofs.Element.Sketch
import SvgLayout.Proofs.Markup.Leaves

/-!
# Leaves of a tree

What is seen of a tree are its shapes of a single tag, the shaft and the head of each arrow, and the
rectangle behind the child of each frame that has one. They are drawn once each, in the order of the
tree; what is drawn into masks is not among them, as it is drawn elsewhere.

## Main definitions

* `Shape.ownLeaves`, `Element.leaves` — what is seen of a node and of a tree, in order.

## Main statements

* `Element.leaves_sketch` — the leaves of a sketch are the sketches of the leaves.
-/

namespace SvgLayout

variable {α ε : Type} [Scalar α]

/-! ## Leaves -/

/-- What is seen of a node besides its children; the shaft of an arrow ends at its tip, up to the
pixels of its outline. -/
def Shape.ownLeaves (style : Style α) : Shape α ε → List (Trim α)
  | primitive p => [(style, p)]
  | arrow a =>
    [(style, .line (.ofPoint a.tail) (.ofPoint a.tip)), (style, .arrowHead a.direction a.head)]
  | frame f => f.trim
  | _ => []

@[simp] theorem Shape.ownLeaves_map {β : Type} (f : ε → β) (style : Style α) (shape : Shape α ε) :
    (shape.map f).ownLeaves style = shape.ownLeaves style := by
  cases shape <;> rfl

namespace Element

/-- What is seen of a tree, in order: what is seen of a node comes before what is seen of its
children. -/
def leaves : Element α → List (Trim α) :=
  fold fun _ style shape => shape.ownLeaves style ++ (shape.placed.map Prod.snd).flatten

/-- What is seen of a tree is what is seen of its root, and then of each child that is drawn inside
it. -/
theorem leaves_eq (e : Element α) :
    e.leaves = e.shape.ownLeaves e.style ++ e.shape.placed.flatMap leaves := by
  rw [leaves, fold_eq, Shape.placed_map, List.map_map, Shape.ownLeaves_map, List.flatMap_def]
  rfl

end Element

variable [NumberText α]

/-! ## Sketches -/

/-- How a leaf is sketched. -/
def Trim.sketch (precision : Nat) (leaf : Trim α) : Markup :=
  leaf.2.sketch precision leaf.1

/-- A shape of a single tag is sketched as a leaf. -/
theorem Trim.leaves_sketch (precision : Nat) (leaf : Trim α) :
    (leaf.sketch precision).leaves = [leaf.sketch precision] := by
  refine Markup.leaves_element ?_ _ _
  cases leaf.2 with
  | rectangle rounded => cases h : (roundedCorners rounded).isSome <;> simp [Primitive.tag, h]
  | polyline points closed => cases closed <;> simp [Primitive.tag]
  | _ => simp [Primitive.tag]

/-- Whatever the registry, the leaves of what is sketched are given. -/
def Sketch.HasLeaves (sketch : Sketch Markup) (leaves : List Markup) : Prop :=
  ∀ r, (sketch.run r).1.leaves = leaves

/-- Without outlines the leaves of children are those of one child after another. -/
theorem flatMap_leaves_sketchChildren {sketches : List (Sketch Markup)}
    {leaves : List (List Markup)} (h : List.Forall₂ Sketch.HasLeaves sketches leaves)
    (r : Registry) :
    ((sketchChildren false sketches).run r).1.flatMap Markup.leaves = leaves.flatten := by
  -- Identifiers are issued from child to child, so the list is walked from every registry.
  let piece := fun (child : Sketch Markup) => do
    let markup ← child
    pure (if false then [markup, debugSketch] else [markup])
  have pieces : ∀ r, ((sketches.mapM piece).run r).1.flatten.flatMap Markup.leaves =
      leaves.flatten := by
    induction h with
    | nil => exact fun _ => rfl
    | @cons child ls _ _ first _ ih =>
      intro r
      have head : ((piece child).run r).1.flatMap Markup.leaves = ls := by
        rw [← first r]
        exact List.append_nil _
      rw [List.mapM_cons]
      simp only [Sketch.run_bind, Sketch.run_pure, List.flatten_cons, List.flatMap_append, ih, head]
  exact (Markup.flatMap_lines Markup.leaves_newline _).trans (pieces r)

namespace Shape

variable {precision : Nat} {style : Style α}

/-- The sketches of the tags of its own that a container draws are those of its leaves. -/
theorem trimSketches_eq_ownLeaves {shape : Shape α ε} (h : shape.isPrimitive = false) :
    shape.trimSketches precision style =
      (shape.ownLeaves style).map (Trim.sketch precision) := by
  cases shape with
  | primitive p => cases h
  | _ => rfl

variable {shape : Shape α ε} {sketch : ε → Sketch Markup} {leaves : ε → List Markup}

/-- The pieces that a container draws have its own leaves, one each, and those of its children. -/
theorem forall₂_hasLeaves (container : shape.isPrimitive = false)
    (below : ∀ child ∈ shape.placed, (sketch child).HasLeaves (leaves child)) :
    List.Forall₂ Sketch.HasLeaves
      (((shape.map sketch).trimSketches precision style).map pure ++ (shape.map sketch).placed)
      ((shape.ownLeaves style).map (fun leaf => [leaf.sketch precision]) ++
        shape.placed.map leaves) := by
  have own : (shape.map sketch).trimSketches precision style =
      (shape.ownLeaves style).map (Trim.sketch precision) := by
    rw [trimSketches_eq_ownLeaves (by simpa using container), ownLeaves_map]
  rw [own, placed_map, List.map_map]
  refine List.rel_append ?_ ?_
  · rw [List.forall₂_map_left_iff, List.forall₂_map_right_iff, List.forall₂_same]
    exact fun leaf _ _ => leaf.leaves_sketch precision
  · rw [List.forall₂_map_left_iff, List.forall₂_map_right_iff, List.forall₂_same]
    exact below

/-- The leaves of the sketch of a node are those of its own and those of its children. -/
theorem leaves_sketch (plain : shape.debug = false)
    (below : ∀ child ∈ shape.placed, (sketch child).HasLeaves (leaves child)) :
    ((shape.map sketch).sketch precision style).HasLeaves
      ((shape.ownLeaves style).map (Trim.sketch precision) ++ shape.placed.flatMap leaves) := by
  intro r
  cases primitive : shape.isPrimitive with
  | true =>
    cases shape with
    | primitive p => exact Trim.leaves_sketch precision (style, p)
    | _ => cases primitive
  | false =>
    have group : (shape.map sketch).tag = "g" := by
      cases shape with
      | primitive p => cases primitive
      | _ => rfl
    have container : (shape.map sketch).isPrimitive = false := by
      simpa using primitive
    rw [Shape.sketch, sketchContent_eq precision style container, debug_map, plain, group,
      Sketch.run_bind, Sketch.run_bind, Sketch.run_map, Sketch.run_pure, sketchTag,
      Markup.element, Markup.leaves_group,
      flatMap_leaves_sketchChildren (forall₂_hasLeaves primitive below), List.flatten_append,
      ← List.flatMap_def, ← List.flatMap_def, ← List.map_eq_flatMap]

end Shape

/-- The leaves of a sketch are the sketches of the leaves. -/
theorem Element.leaves_sketch (precision : Nat) (e : Element α)
    (plain : ∀ node ∈ e.nodes, node.shape.debug = false) :
    (e.sketch precision).HasLeaves (e.leaves.map (Trim.sketch precision)) := by
  have node : Hereditary fun e : Element α => (∀ node ∈ e.nodes, node.shape.debug = false) →
      (e.sketch precision).HasLeaves (e.leaves.map (Trim.sketch precision)) := by
    intro e ih plain
    obtain ⟨root, below⟩ := forall_nodes.mp plain
    rw [sketch_eq, leaves_eq, List.map_append, List.map_flatMap]
    refine Shape.leaves_sketch root fun child hplaced => ?_
    have hchild := Shape.mem_children_of_placed hplaced
    exact ih child hchild (below child hchild)
  exact induction_on node e plain

end SvgLayout
