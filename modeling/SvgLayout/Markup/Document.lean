import SvgLayout.Geometry.Rect
import SvgLayout.Markup.Registry
import SvgLayout.Style.Defaults

/-!
# Documents

A document is one `svg` tag around the definitions of a registry and a body, each on lines of its
own.

## Main definitions

* `documentAttrs`, `documentContent`, `document`.
* `documentText` — the text of a whole document.
-/

namespace SvgLayout

variable {α : Type} [NumberText α]

/-- The attributes of a document of a given size. -/
def documentAttrs (size : Size α) (precision : Nat) : Attrs :=
  let w := formatNumber size.w precision
  let h := formatNumber size.h precision
  .ofList
    [("viewBox", "0 0 " ++ w ++ " " ++ h),
     ("width", w),
     ("height", h),
     ("xmlns", "http://www.w3.org/2000/svg"),
     ("stroke", Defaults.stroke),
     ("fill", Defaults.fill)]

/-- A tag around all definitions, one on each line; there is none for no definitions. -/
def definitionBlock : List Markup → List Markup
  | [] => []
  | defs =>
    [.tag "defs" .empty (.newline :: defs.flatMap fun definition => [definition, .newline]),
     .newline]

def documentContent (registry : Registry) (body : Markup) : List Markup :=
  .newline :: definitionBlock registry.defs ++ [body, .newline]

/-- A document as a tag. -/
def document (size : Size α) (registry : Registry) (body : Markup) (precision : Nat) : Markup :=
  .tag "svg" (documentAttrs size precision) (documentContent registry body)

/-- The text of a document, which ends its last line. -/
def documentText (size : Size α) (registry : Registry) (body : Markup) (precision : Nat) : String :=
  (document size registry body precision).write ++ "\n"

end SvgLayout
