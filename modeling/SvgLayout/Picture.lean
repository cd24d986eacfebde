import SvgLayout.Element.Draw
import SvgLayout.Markup.Document

/-!
# Pictures

A tree drawn on a canvas. The canvas is as large as can be inside the requested size when the root
wants a ratio, and the root is drawn into it.

## Main definitions

* `RenderOptions` — the requested size and the precision.
* `Picture`, `Picture.draw` — what is drawn.
* `renderSvg` — the text of the document.
-/

namespace SvgLayout

/-- How a document is made. -/
structure RenderOptions (α : Type) where
  width : α
  height : α
  precision : Nat
  tolerance : α

/-- A square canvas of the default size. -/
def RenderOptions.plain {α : Type} [Scalar α] : RenderOptions α where
  width := Defaults.canvasSize
  height := Defaults.canvasSize
  precision := Defaults.precision
  tolerance := Defaults.tolerance

/-- A tree drawn on a canvas. -/
structure Picture (α : Type) where
  canvas : Size α
  registry : Registry
  body : Markup

variable {α : Type} [Scalar α] [NumberText α]

omit [NumberText α] in
/-- The requested size, which must be finite and positive. -/
def RenderOptions.size (options : RenderOptions α) : Except (LayoutError α) (Size α) :=
  (Size.checked options.width options.height).mapError fun _ =>
    .invalidSize options.width options.height

omit [NumberText α] in
def RenderOptions.canvas (options : RenderOptions α) (root : Element α) :
    Except (LayoutError α) (Size α) := do
  let size ← options.size
  let aspect ← root.layoutAspect
  pure (embed size aspect false)

omit [NumberText α] in
def RenderOptions.context (options : RenderOptions α) (canvas : Size α) : Context α :=
  { Context.root canvas with precision := options.precision, tolerance := options.tolerance }

/-- A tree drawn on its canvas. -/
def Picture.draw (root : Element α) (options : RenderOptions α) :
    Except (LayoutError α) (Picture α) := do
  let canvas ← options.canvas root
  let (body, registry) := (root.drawIn (options.context canvas)).run.run Registry.empty
  let body ← body
  pure ⟨canvas, registry, body⟩

omit [Scalar α] in
/-- The text of the document of a picture. -/
def Picture.text (picture : Picture α) (precision : Nat) : String :=
  documentText picture.canvas picture.registry picture.body precision

/-- The text of the document that shows a tree. -/
def renderSvg (root : Element α) (options : RenderOptions α) : Except (LayoutError α) String :=
  (·.text options.precision) <$> Picture.draw root options

end SvgLayout
