import Mathlib.Data.List.Basic
import SvgLayout.Proofs.Markup.Attrs
import SvgLayout.Markup.Registry

/-!
# References and definitions

A tag refers to a definition with its `clip-path` or `mask` attribute, and a definition is the tag
whose `id` it refers to.

## Main definitions

* `linkKeys`, `Attrs.references`, `Markup.references` — what is referred to anywhere in markup.
* `Markup.id?` — what a definition is called.
-/

namespace SvgLayout

/-- The attributes that refer to definitions. -/
def linkKeys : List String :=
  ["clip-path", "mask"]

def isLinkKey (key : String) : Bool :=
  linkKeys.contains key

namespace Attrs

/-- The values of the attributes that refer to definitions. -/
def references (attrs : Attrs) : List String :=
  (attrs.restrict isLinkKey).entries.map Prod.snd

end Attrs

namespace Markup

mutual

/-- All references in a piece of markup, in order. -/
def references : Markup → List String
  | text _ => []
  | verbatim _ => []
  | empty _ attrs => attrs.references
  | tag _ attrs content => attrs.references ++ referencesAll content

def referencesAll : List Markup → List String
  | [] => []
  | piece :: pieces => piece.references ++ referencesAll pieces

end

/-- What is collected from pieces is not collected from the line ends between them. -/
theorem flatMap_lines {β : Type} {f : Markup → List β} (h : f newline = []) :
    ∀ (pieces : List Markup), (lines pieces).flatMap f = pieces.flatMap f
  | [] => rfl
  | [_] => rfl
  | first :: second :: pieces => by
    have ih := flatMap_lines h (second :: pieces)
    simp only [lines, List.intersperse_cons_cons, List.flatMap_cons, h] at ih ⊢
    rw [ih]
    rfl

/-- What a definition is called. -/
def id? : Markup → Option String
  | tag _ attrs _ => attrs.get? "id"
  | empty _ attrs => attrs.get? "id"
  | _ => none

end Markup

end SvgLayout
