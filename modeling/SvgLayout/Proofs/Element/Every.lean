import SvgLayout.Element.Fold
import SvgLayout.Proofs.Markup.Attrs

/-!
# Every style of a tree

A condition on the styles of all nodes of a tree, masks included, and the keys that a style sets.

## Main definitions

* `Element.EveryStyle` — every style in the tree satisfies a condition.
* `styleKeys` — the keys of the typed fields of a style.

## Main statements

* `Element.everyStyle_iff` — the style of the root does, and every style below its children.
* `Style.mem_keys_attrs` — a style sets the keys of its typed fields and those it adds.
-/

namespace SvgLayout

variable {α ε β : Type}

@[simp] theorem Shape.children_map (f : ε → β) (shape : Shape α ε) :
    (shape.map f).children = shape.children.map f := by
  cases shape with
  | group g => cases h : g.mask <;> simp [children, map, Group.map, h]
  | stack s => simp [children, map, Stack.map, StackChild.map]
  | grid g => simp [children, map, Grid.map, List.map_flatten]
  | _ => rfl

/-! ## Keys of a style -/

/-- The keys of the typed fields of a style. -/
def styleKeys : List String :=
  ["stroke", "fill", "stroke-width", "opacity", "stroke-dasharray"]

/-- A style sets the keys of its typed fields and those it adds. -/
theorem Style.mem_keys_attrs [NumberText α] {style : Style α} {precision : Nat} {key : String}
    (h : key ∈ (style.attrs precision).keys) :
    key ∈ styleKeys ∨ key ∈ style.extra.map Prod.fst := by
  have typed : ∀ (name : String) (value : Option String), name ∈ styleKeys →
      key ∈ (Style.entry name value).map Prod.fst → key ∈ styleKeys := by
    intro name value hn hkey
    cases value with
    | none => simp [Style.entry] at hkey
    | some v =>
      rw [List.mem_singleton.mp hkey]
      exact hn
  rw [Style.attrs, Attrs.mem_keys_ofList] at h
  simp only [Style.entries, List.map_append, List.mem_append] at h
  rcases h with ((((h | h) | h) | h) | h) | h
  · exact .inl (typed _ _ (by decide) h)
  · exact .inl (typed _ _ (by decide) h)
  · exact .inl (typed _ _ (by decide) h)
  · exact .inl (typed _ _ (by decide) h)
  · exact .inl (typed _ _ (by decide) h)
  · exact .inr h

/-! ## Styles of a tree -/

namespace Element

def EveryStyle (P : Style α → Prop) : Element α → Prop :=
  fold fun _ style shape => P style ∧ ∀ child ∈ shape.children, child.2

/-- The style of the root satisfies the condition, and every style below its children. -/
theorem everyStyle_iff {P : Style α → Prop} {e : Element α} :
    e.EveryStyle P ↔ P e.style ∧ ∀ child ∈ e.shape.children, child.EveryStyle P := by
  rw [EveryStyle, fold_eq]
  simp

/-- A node without children has one style. -/
theorem everyStyle_leaf {P : Style α → Prop} {e : Element α} (childless : e.shape.children = [])
    (h : P e.style) : e.EveryStyle P := by
  refine everyStyle_iff.mpr ⟨h, ?_⟩
  simp [childless]

end Element

end SvgLayout
