import SvgLayout.Markup.Registry
import SvgLayout.Proofs.Markup.Attrs

/-!
# The skeleton of markup

The pixels of a drawing appear in the values of certain attributes only. Without them what is left
of a piece of markup is its skeleton: the tags with their nesting and order, character data, paint,
identifiers and references.

## Main definitions

* `pixelKeys` — the attributes whose values are pixels.
* `Attrs.skeleton`, `Markup.skeleton`, `Registry.skeleton` — what is left without them.
-/

namespace SvgLayout

/-- The attributes whose values depend on pixels. -/
def pixelKeys : List String :=
  ["x", "y", "width", "height", "cx", "cy", "rx", "ry", "x1", "y1", "x2", "y2", "points", "d",
   "font-size", "transform"]

/-- Values of this attribute do not depend on pixels. -/
def isSteadyKey (key : String) : Bool :=
  !pixelKeys.contains key

/-- The attributes that do not depend on pixels. -/
def Attrs.skeleton (attrs : Attrs) : Attrs :=
  attrs.restrict isSteadyKey

namespace Attrs

@[simp] theorem skeleton_empty : empty.skeleton = empty := rfl

theorem skeleton_ofList (pairs : List (String × String)) :
    (ofList pairs).skeleton = ofList (pairs.filter fun pair => isSteadyKey pair.1) :=
  restrict_ofList isSteadyKey pairs

theorem skeleton_merge (attrs other : Attrs) :
    (attrs.merge other).skeleton = attrs.skeleton.merge other.skeleton :=
  restrict_merge isSteadyKey attrs other

theorem skeleton_skeleton (attrs : Attrs) : attrs.skeleton.skeleton = attrs.skeleton := by
  rw [skeleton, skeleton, restrict, restrict, List.filter_filter]
  simp only [Bool.and_self]

/-- A transformation is not part of the skeleton. -/
@[simp] theorem skeleton_set_transform (attrs : Attrs) (value : String) :
    (attrs.set "transform" value).skeleton = attrs.skeleton := by
  rw [skeleton, restrict_set]
  rfl

end Attrs

namespace Markup

mutual

/-- Markup without the attributes of pixels. -/
def skeleton : Markup → Markup
  | text content => text content
  | verbatim written => verbatim written
  | empty name attrs => empty name attrs.skeleton
  | tag name attrs content => tag name attrs.skeleton (skeletonAll content)

def skeletonAll : List Markup → List Markup
  | [] => []
  | piece :: pieces => piece.skeleton :: skeletonAll pieces

end

theorem skeletonAll_eq_map (pieces : List Markup) : skeletonAll pieces = pieces.map skeleton := by
  induction pieces with
  | nil => rfl
  | cons piece pieces ih => rw [skeletonAll, ih, List.map_cons]

@[simp] theorem skeleton_text (content : String) : (text content).skeleton = text content := by
  rw [skeleton]

@[simp] theorem skeleton_empty (name : String) (attrs : Attrs) :
    (empty name attrs).skeleton = empty name attrs.skeleton := by
  rw [skeleton]

@[simp] theorem skeleton_tag (name : String) (attrs : Attrs) (content : List Markup) :
    (tag name attrs content).skeleton = tag name attrs.skeleton (content.map skeleton) := by
  rw [skeleton, skeletonAll_eq_map]

@[simp] theorem skeleton_element (name : String) (attrs : Attrs) (content : Option (List Markup)) :
    (element name attrs content).skeleton =
      element name attrs.skeleton (content.map (List.map skeleton)) := by
  cases content <;> simp [element]

/-- The line ends between pieces are part of the skeleton. -/
theorem map_skeleton_lines : ∀ (pieces : List Markup),
    (lines pieces).map skeleton = lines (pieces.map skeleton)
  | [] => rfl
  | [_] => rfl
  | first :: second :: pieces => by
    have ih := map_skeleton_lines (second :: pieces)
    have line : newline.skeleton = newline := skeleton_text "\n"
    simp only [lines, List.intersperse_cons_cons, List.map_cons, line] at ih ⊢
    rw [ih]

end Markup

/-- A registry without the attributes of pixels in its definitions. -/
def Registry.skeleton (registry : Registry) : Registry :=
  { registry with defs := registry.defs.map Markup.skeleton }

namespace Registry

@[simp] theorem defs_skeleton (registry : Registry) :
    registry.skeleton.defs = registry.defs.map Markup.skeleton := rfl

theorem skeleton_define (registry : Registry) (definition : Markup) :
    (registry.define definition).skeleton = registry.skeleton.define definition.skeleton := by
  simp [skeleton, define]

end Registry

end SvgLayout
