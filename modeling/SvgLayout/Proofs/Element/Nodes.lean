import SvgLayout.Proofs.Element.Every

/-!
# All nodes of a tree

The nodes of a tree are listed from the root down. Nothing is left out: the children of a container
count at any depth, and so does what is drawn into a mask.

## Main definitions

* `Element.nodes` — all nodes of a tree.

## Main statements

* `Element.mem_nodes` — a node of a tree is the root, or a node below one of its children.
* `Element.forall_nodes` — what holds of all nodes.
-/

namespace SvgLayout

variable {α ε : Type}

/-- Children that stay as they are make the same shape. -/
theorem Shape.map_id (shape : Shape α ε) : (shape.map fun e => e) = shape := by
  have child : (StackChild.map fun e : ε => e) = (id : StackChild α ε → _) := rfl
  cases shape <;> simp [map, Group.map, Frame.map, Stack.map, Grid.map, child]

namespace Element

/-- All nodes of a tree, each before those below it, and a mask before the other children. -/
def nodes : Element α → List (Element α) :=
  fold fun spec style shape =>
    ⟨spec, style, shape.map Prod.fst⟩ :: (shape.children.map Prod.snd).flatten

/-- The nodes of a tree are the root and the nodes below each of its children. -/
theorem nodes_eq (e : Element α) : e.nodes = e :: e.shape.children.flatMap nodes := by
  cases e
  rw [nodes, fold_eq, Shape.map_map, Shape.children_map, List.map_map, Shape.map_id,
    List.flatMap_def]
  rfl

/-- A node of a tree is the root, or a node below one of its children. -/
theorem mem_nodes {e node : Element α} :
    node ∈ e.nodes ↔ node = e ∨ ∃ child ∈ e.shape.children, node ∈ child.nodes := by
  rw [nodes_eq, List.mem_cons, List.mem_flatMap]

/-- What holds of all nodes holds of the root and of all nodes below its children. -/
theorem forall_nodes {P : Element α → Prop} {e : Element α} :
    (∀ node ∈ e.nodes, P node) ↔
      P e ∧ ∀ child ∈ e.shape.children, ∀ node ∈ child.nodes, P node := by
  rw [nodes_eq, List.forall_mem_cons, List.forall_mem_flatMap]

end Element

end SvgLayout
