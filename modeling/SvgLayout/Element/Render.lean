import SvgLayout.Element.Primitive
import SvgLayout.Element.Sizing
import SvgLayout.Markup.Registry

/-!
# Drawing computations

Drawing reads and extends the registry of the document and may fail. A failure keeps what was given
out and defined before it, so no identifier is used twice.

## Main definitions

* `Render` — a drawing computation.
* `newId`, `addDefinition` — its effects on the registry.
* `drawTag` — a node as a tag with attributes and content.
* `Drawable` — a node with the way it is drawn in a context; `Drawable.drawIn`, `drawChildren`.
-/

namespace SvgLayout

/-- A computation that extends a registry and may fail. -/
abbrev Render (α β : Type) := ExceptT (LayoutError α) (StateM Registry) β

variable {α : Type}

def newId (stem : String) : Render α String :=
  modifyGet fun registry => registry.allocate stem

def addDefinition (definition : Markup) : Render α Unit :=
  modify fun registry => registry.define definition

variable [Scalar α] [NumberText α]

/-! ## Tags -/

/-- The attributes of a node: those of its geometry, of its style, and its transformation. Pixels
must be finite. -/
def nodeAttrs (kind : String) (style : Style α) (ctx : Context α) (geometry : Render α Attrs) :
    Render α Attrs := do
  if !ctx.pixels.isFinite then throw (.nonFinite kind)
  let attrs ← geometry
  let styled := attrs.merge (style.attrs ctx.precision)
  match ctx.transform? with
  | some transform => pure (styled.set "transform" transform)
  | none => pure styled

/-- A node as a tag: first its attributes, then its content. -/
def drawTag (kind tag : String) (style : Style α) (ctx : Context α) (geometry : Render α Attrs)
    (content : Render α (Option (List Markup))) : Render α Markup := do
  let attrs ← nodeAttrs kind style ctx geometry
  let content ← content
  pure (.element tag attrs content)

/-- A shape of a single tag. -/
def Primitive.draw (style : Style α) (p : Primitive α) (ctx : Context α) : Render α Markup :=
  drawTag p.kind p.tag style ctx (pure (p.attrs style ctx)) (pure p.content)

/-! ## Children -/

/-- A node with the way it is drawn in the context it was placed in. -/
structure Drawable (α : Type) where
  element : Element α
  draw : Context α → Render α Markup

namespace Drawable

/-- A shape of a single tag, to be drawn. -/
def ofPrimitive (spec : Spec α) (style : Style α) (p : Primitive α) : Drawable α :=
  ⟨⟨spec, style, .primitive p⟩, p.draw style⟩

omit [Scalar α] [NumberText α] in
/-- The node placed by a spec made from its own. Only its place may change: it is drawn in its
context as before. -/
def mapSpec (f : Spec α → Spec α) (d : Drawable α) : Drawable α :=
  { d with element := d.element.mapSpec f }

omit [NumberText α] in
/-- The context of the node in that of its parent. -/
def contextIn (d : Drawable α) (parent : Context α) : Except (LayoutError α) (Context α) :=
  parent.child <$> d.element.resolvedSpec

omit [NumberText α] in
/-- The node drawn in the context of its parent. -/
def drawIn (d : Drawable α) (parent : Context α) : Render α Markup := do
  let ctx ← d.contextIn parent
  d.draw ctx

end Drawable

/-- The outline of a child for debugging. -/
def debugBox (ctx : Context α) : Markup :=
  let entries :=
    ctx.boxEntries ++
      [("stroke", Defaults.debugStroke), ("stroke-dasharray", Defaults.debugDash),
       ("fill", "none")] ++
      (ctx.transform?.map ("transform", ·)).toList
  .empty "rect" (.ofList entries)

/-- Children drawn in a context, each followed by its outline if `debug` is set. -/
def drawChildren (debug : Bool) (ctx : Context α) (children : List (Drawable α)) :
    Render α (List Markup) := do
  let drawn ← children.mapM fun child => do
    let childCtx ← child.contextIn ctx
    let markup ← child.draw childCtx
    pure (if debug then [markup, debugBox childCtx] else [markup])
  pure (Markup.lines drawn.flatten)

end SvgLayout
