import SvgLayout.Markup.Document
import SvgLayout.Proofs.Markup.References
import SvgLayout.Proofs.Markup.Skeleton

/-!
# Opacities over the leaves of markup

An opacity covers all that is drawn inside its tag, so a leaf of a drawing is covered by the
opacities on all tags from the root down to it. The document, its definitions, masks and groups only
hold other tags. A clip is not drawn, and has no leaves.

## Main definitions

* `Attrs.opacities` — the opacities that a tag sets.
* `Veiled` — a leaf with the opacities over it.
* `Markup.veiled` — the leaves of a piece of markup, each with the opacities over it.

## Main statements

* `Markup.veiled_skeleton` — pixels do not matter to opacities.
* `veiled_document` — the leaves of a document are those of its definitions and of its body.
-/

namespace SvgLayout

/-! ## Attributes -/

def isOpacityKey (key : String) : Bool :=
  key == "opacity"

namespace Attrs

def opacities (attrs : Attrs) : List String :=
  (attrs.restrict isOpacityKey).entries.map Prod.snd

/-- Pairs of other keys set no opacity. -/
theorem opacities_setAll {attrs : Attrs} {pairs : List (String × String)}
    (h : ∀ pair ∈ pairs, isOpacityKey pair.1 = false) :
    (attrs.setAll pairs).opacities = attrs.opacities := by
  have filtered : pairs.filter (fun pair => isOpacityKey pair.1) = [] := by
    simpa [List.filter_eq_nil_iff] using h
  rw [opacities, restrict_setAll, filtered]
  rfl

theorem opacities_ofList {pairs : List (String × String)}
    (h : ∀ pair ∈ pairs, isOpacityKey pair.1 = false) : (ofList pairs).opacities = [] :=
  opacities_setAll h

/-- Attributes that are merged into some without an opacity keep their own. -/
theorem opacities_merge {attrs other : Attrs} (clear : attrs.opacities = [])
    (distinct : other.keys.Nodup) : (attrs.merge other).opacities = other.opacities := by
  have bare : attrs.restrict isOpacityKey = empty :=
    Attrs.ext (List.map_eq_nil_iff.mp clear)
  have keys : ((other.restrict isOpacityKey).entries.map Prod.fst).Nodup :=
    distinct.sublist (List.filter_sublist.map Prod.fst)
  rw [opacities, restrict_merge, bare]
  exact congrArg (List.map Prod.snd) (entries_ofList keys)

/-- An opacity does not depend on pixels. -/
@[simp] theorem opacities_skeleton (attrs : Attrs) :
    attrs.skeleton.opacities = attrs.opacities := by
  have steady : ∀ key, (isOpacityKey key && isSteadyKey key) = isOpacityKey key := by
    intro key
    by_cases opacity : key = "opacity"
    · rw [opacity]
      decide
    · simp [isOpacityKey, opacity]
  rw [opacities, opacities, skeleton, restrict, restrict, restrict, List.filter_filter]
  simp only [steady]

end Attrs

/-! ## Leaves -/

/-- A tag that is drawn, and the opacities over it from the outermost to its own. -/
@[ext]
structure Veiled where
  opacities : List String
  leaf : Markup

namespace Veiled

/-- Opacities over a leaf that has some already. -/
def under (outer : List String) (v : Veiled) : Veiled :=
  ⟨outer ++ v.opacities, v.leaf⟩

theorem under_injective (outer : List String) : Function.Injective (under outer) := by
  intro v w h
  obtain ⟨opacities, leaf⟩ := Veiled.mk.inj h
  exact Veiled.ext (List.append_cancel_left opacities) leaf

/-- No opacities cover nothing. -/
@[simp] theorem map_under_nil (vs : List Veiled) : vs.map (·.under []) = vs :=
  List.map_id vs

/-- A leaf without the attributes of pixels. -/
def skeleton (v : Veiled) : Veiled :=
  ⟨v.opacities, v.leaf.skeleton⟩

end Veiled

namespace Markup

/-- The tags that only hold others. -/
def holders : List String :=
  ["svg", "defs", "mask", "g"]

mutual

/-- The leaves of a piece of markup in order, each with the opacities on the tags from the piece
down to it. -/
def veiled : Markup → List Veiled
  | text _ => []
  | verbatim _ => []
  | empty name attrs => [⟨attrs.opacities, empty name attrs⟩]
  | tag name attrs content =>
    if name = "clipPath" then []
    else if holders.contains name then (veiledAll content).map (·.under attrs.opacities)
    else [⟨attrs.opacities, tag name attrs content⟩]

def veiledAll : List Markup → List Veiled
  | [] => []
  | piece :: pieces => piece.veiled ++ veiledAll pieces

end

theorem veiledAll_eq (pieces : List Markup) : veiledAll pieces = pieces.flatMap veiled := by
  induction pieces with
  | nil => rfl
  | cons piece pieces ih => rw [veiledAll, ih, List.flatMap_cons]

@[simp] theorem veiled_newline : newline.veiled = [] := by
  rw [newline, veiled]

/-- A tag that holds others covers their leaves. -/
theorem veiled_holder {name : String} (h : name ∈ holders) (attrs : Attrs)
    (content : List Markup) :
    (tag name attrs content).veiled = (content.flatMap veiled).map (·.under attrs.opacities) := by
  have drawn : name ≠ "clipPath" := by
    rintro rfl
    exact absurd h (by decide)
  rw [veiled, if_neg drawn, if_pos (List.contains_iff_mem.mpr h), veiledAll_eq]

/-- A clip has no leaves. -/
@[simp] theorem veiled_clip (attrs : Attrs) (content : List Markup) :
    (tag "clipPath" attrs content).veiled = [] := by
  rw [veiled, if_pos rfl]

/-- Any other tag is a leaf. -/
theorem veiled_leaf {name : String} (h : name ∉ "clipPath" :: holders) (attrs : Attrs)
    (content : Option (List Markup)) :
    (element name attrs content).veiled = [⟨attrs.opacities, element name attrs content⟩] := by
  rw [List.mem_cons, not_or] at h
  cases content with
  | none => rw [element, veiled]
  | some content => rw [element, veiled, if_neg h.1, if_neg (by simpa using h.2)]

mutual

/-- The leaves of a skeleton are the skeletons of the leaves, with the same opacities over them. -/
theorem veiled_skeleton :
    ∀ piece : Markup, piece.skeleton.veiled = piece.veiled.map Veiled.skeleton
  | text _ => by simp [veiled]
  | verbatim _ => by simp [skeleton, veiled]
  | empty _ _ => by simp [veiled, Veiled.skeleton]
  | tag name attrs content => by
    have ih := veiledAll_skeleton content
    by_cases clip : name = "clipPath"
    · simp [clip]
    · by_cases holder : holders.contains name = true
      · simp only [skeleton, veiled, if_neg clip, if_pos holder, ih, List.map_map,
          Attrs.opacities_skeleton]
        rfl
      · simp only [skeleton, veiled, if_neg clip, if_neg holder, Attrs.opacities_skeleton]
        simp [Veiled.skeleton, skeleton]

private theorem veiledAll_skeleton :
    ∀ pieces : List Markup, veiledAll (skeletonAll pieces) = (veiledAll pieces).map Veiled.skeleton
  | [] => rfl
  | piece :: pieces => by
    rw [skeletonAll, veiledAll, veiledAll, List.map_append, veiled_skeleton piece,
      veiledAll_skeleton pieces]

end

end Markup

/-! ## Documents -/

/-- A document holds the leaves of its definitions and of its body. -/
theorem veiled_document {α : Type} [NumberText α] (size : Size α) (registry : Registry)
    (body : Markup) (precision : Nat) :
    (document size registry body precision).veiled =
      registry.defs.flatMap Markup.veiled ++ body.veiled := by
  have bare : (documentAttrs size precision).opacities = [] := by
    apply Attrs.opacities_ofList
    simp [isOpacityKey]
  have block : (definitionBlock registry.defs).flatMap Markup.veiled =
      registry.defs.flatMap Markup.veiled := by
    cases registry.defs with
    | nil => rfl
    | cons definition defs =>
      have block : definitionBlock (definition :: defs) =
          [.tag "defs" .empty (.newline :: (definition :: defs).flatMap fun d => [d, .newline]),
            .newline] := rfl
      have bare : Attrs.empty.opacities = [] := rfl
      rw [block, List.flatMap_cons, Markup.veiled_holder (by decide), bare]
      simp [List.flatMap_assoc]
  rw [document, Markup.veiled_holder (by decide), bare, documentContent]
  simp [block]

end SvgLayout
