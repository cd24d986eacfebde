import SvgLayout.Proofs.Markup.References
import SvgLayout.Proofs.Markup.Skeleton

/-!
# Leaves of markup

A drawing nests its tags in groups, the `g` tags. The other tags are what is seen, and are the
leaves of the drawing.

## Main definitions

* `Markup.leaves` — the tags that are not groups, in the order in which they are written.

## Main statements

* `Markup.leaves_skeleton` — the leaves of a skeleton are the skeletons of the leaves.
-/

namespace SvgLayout.Markup

mutual

/-- The tags that are not groups, in order. -/
def leaves : Markup → List Markup
  | text _ => []
  | verbatim _ => []
  | empty name attrs => [empty name attrs]
  | tag name attrs content => if name = "g" then leavesAll content else [tag name attrs content]

/-- The tags of several pieces that are not groups, in order. -/
def leavesAll : List Markup → List Markup
  | [] => []
  | piece :: pieces => piece.leaves ++ leavesAll pieces

end

theorem leavesAll_eq (pieces : List Markup) : leavesAll pieces = pieces.flatMap leaves := by
  induction pieces with
  | nil => rfl
  | cons piece pieces ih => rw [leavesAll, ih, List.flatMap_cons]

@[simp] theorem leaves_newline : newline.leaves = [] := by
  rw [newline, leaves]

/-- The leaves of a group are those of its content. -/
theorem leaves_group (attrs : Attrs) (content : List Markup) :
    (tag "g" attrs content).leaves = content.flatMap leaves := by
  rw [leaves, if_pos rfl, leavesAll_eq]

/-- Any other tag is a leaf. -/
theorem leaves_element {name : String} (h : name ≠ "g") (attrs : Attrs)
    (content : Option (List Markup)) :
    (element name attrs content).leaves = [element name attrs content] := by
  cases content with
  | none => rw [element, leaves]
  | some content => rw [element, leaves, if_neg h]

mutual

/-- The leaves of a skeleton are the skeletons of the leaves. -/
theorem leaves_skeleton : ∀ piece : Markup, piece.skeleton.leaves = piece.leaves.map skeleton
  | text _ => by simp [leaves]
  | verbatim _ => by simp [skeleton, leaves]
  | empty _ _ => by simp [leaves]
  | tag name attrs content => by
    have ih := leavesAll_skeleton content
    by_cases group : name = "g"
    · simp only [skeleton, leaves, group, if_true, ih]
    · simp [leaves, group]

private theorem leavesAll_skeleton :
    ∀ pieces : List Markup, leavesAll (skeletonAll pieces) = (leavesAll pieces).map skeleton
  | [] => rfl
  | piece :: pieces => by
    rw [skeletonAll, leavesAll, leavesAll, List.map_append, leaves_skeleton piece,
      leavesAll_skeleton pieces]

end

end SvgLayout.Markup
