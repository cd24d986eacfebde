import SvgLayout.Element.Render

/-!
# Drawing trees

Every node of a tree is drawn from the way its children are drawn.

## Main definitions

* `Arrow.parts` — the shaft and the head of an arrow.
* `Shape.attrs`, `Shape.content` — one step.
* `Element.draw` — a whole tree in the context of its root; `Element.drawIn` in that of its parent.
-/

namespace SvgLayout

variable {α : Type} [Scalar α]

/-! ## Arrows -/

namespace Arrow

def middle : Point α :=
  ⟨0.5, 0.5⟩

/-- The tip of an arrow in its unit square. -/
def tip (arrow : Arrow α) : Point α :=
  middle + Point.atAngle arrow.direction / (2.0 : α)

/-- The end without a head. -/
def tail (arrow : Arrow α) : Point α :=
  middle - Point.atAngle arrow.direction / (2.0 : α)

def headCenter (arrow : Arrow α) : Point α :=
  arrow.tip - Point.atAngle arrow.direction * arrow.head.size

/-- Where the shaft ends: at the centre of a closed head, or at the tip of an open one, which is
pulled back by half of the outline. -/
def shaftEnd (arrow : Arrow α) (style : Style α) (ctx : Context α) : NudgedPoint α :=
  if arrow.head.base then
    .ofPoint arrow.headCenter
  else
    let scale := (ctx.mapSize ⟨1.0, 1.0⟩).abs
    let along := ((Point.atAngle arrow.direction).stretch ⟨scale.w, scale.h⟩).normalizeOrOrigin
    let back := along * (style.outlineWidth / (2.0 : α))
    .nudge arrow.tip ⟨-back.x, -back.y⟩

/-- The spec of the head: as far around its centre as the head is large. -/
def headSpec (arrow : Arrow α) : Spec α :=
  .ofRect (RadialBox.mk arrow.headCenter arrow.head.size arrow.head.size).toRect

/-- The shaft and the head, in the unit square of the arrow. -/
def parts [NumberText α] (arrow : Arrow α) (style : Style α) (ctx : Context α) :
    List (Drawable α) :=
  [.ofPrimitive .plain style (.line (.ofPoint arrow.tail) (arrow.shaftEnd style ctx)),
   .ofPrimitive arrow.headSpec style (.arrowHead arrow.direction arrow.head)]

end Arrow

variable [NumberText α]

/-! ## Containers -/

namespace Group

/-- A definition that clips to the pixels of a context, and the attribute that refers to it. -/
def clipEntry (ctx : Context α) : Render α (String × String) := do
  let id ← newId "clip"
  addDefinition (.tag "clipPath" (.ofList [("id", id)]) [.empty "rect" (.ofList ctx.boxEntries)])
  pure ("clip-path", reference id)

omit [NumberText α] in
/-- A definition of the mask, and the attribute that refers to it. -/
def maskEntry (mask : Drawable α) (ctx : Context α) : Render α (String × String) := do
  let id ← newId "mask"
  let body ← mask.drawIn ctx
  addDefinition (.tag "mask" (.ofList [("id", id)]) [body])
  pure ("mask", reference id)

/-- The attributes of a group: its clipping, then its mask. -/
def attrs (group : Group (Drawable α)) (ctx : Context α) : Render α Attrs := do
  let clip ← if group.clip then (fun entry => [entry]) <$> clipEntry ctx else pure []
  let mask ←
    match group.mask with
    | some mask => (fun entry => [entry]) <$> maskEntry mask ctx
    | none => pure []
  pure (.ofList (clip ++ mask))

end Group

namespace Frame

/-- The style of the rectangle behind the child; without a border only the background is painted. -/
def backStyle {ε : Type} (frame : Frame α ε) : Style α :=
  let outline :=
    match frame.border with
    | some border => border.style
    | none => { stroke := some .none }
  { outline with fill := frame.fill }

/-- The rectangle behind the child, if the frame has a border or a background. -/
def backdrop (frame : Frame α (Drawable α)) :
    Except (LayoutError α) (List (Drawable α)) := do
  if frame.border.isNone && frame.fill.isNone then
    pure []
  else
    let childAspect ← frame.child.element.layoutAspect
    let radius := (frame.border.map Border.rounded).getD 0.0
    let rounded := if 0.0 < radius then some (.uniform radius) else none
    pure [.ofPrimitive (.ofRect (frame.borderRect childAspect)) frame.backStyle
      (.rectangle rounded)]

/-- What a frame draws: the rectangle behind the child, then the child in the unit square. -/
def parts (frame : Frame α (Drawable α)) : Except (LayoutError α) (List (Drawable α)) := do
  let backdrop ← frame.backdrop
  pure (backdrop ++ [frame.child.mapSpec (·.withRect .unit)])

end Frame

omit [NumberText α] in
def Stack.parts (spec : Spec α) (stack : Stack α (Drawable α)) :
    Except (LayoutError α) (List (Drawable α)) :=
  stack.seated Drawable.mapSpec <$> (stack.map (·.element.measured)).layout spec

omit [NumberText α] in
def Grid.parts (grid : Grid α (Drawable α)) : Except (LayoutError α) (List (Drawable α)) :=
  grid.seated Drawable.mapSpec <$> (grid.map (·.element.measured)).layout

/-! ## Nodes -/

namespace Shape

omit [Scalar α] [NumberText α] in
/-- The name of the shape in errors. -/
def kind {ε : Type} : Shape α ε → String
  | primitive p => p.kind
  | arrow _ => "Arrow"
  | group _ => "Group"
  | frame _ => "Frame"
  | stack _ => "Stack"
  | grid _ => "Grid"

omit [NumberText α] in
/-- The tag that draws the shape. -/
def tag {ε : Type} : Shape α ε → String
  | primitive p => p.tag
  | _ => "g"

/-- The attributes that draw the shape in a context. -/
def attrs (style : Style α) (ctx : Context α) : Shape α (Drawable α) → Render α Attrs
  | primitive p => pure (p.attrs style ctx)
  | group g => g.attrs ctx
  | _ => pure .empty

def content (spec : Spec α) (style : Style α) (ctx : Context α) :
    Shape α (Drawable α) → Render α (Option (List Markup))
  | primitive p => pure p.content
  | arrow a => some <$> drawChildren false ctx (a.parts style ctx)
  | group g => some <$> drawChildren g.debug ctx g.children
  | frame f => do
    let parts ← f.parts
    some <$> drawChildren false ctx parts
  | stack s => do
    let parts ← s.parts spec
    some <$> drawChildren s.debug ctx parts
  | grid g => do
    let parts ← g.parts
    some <$> drawChildren g.debug ctx parts

/-- A node as a tag. -/
def draw (spec : Spec α) (style : Style α) (shape : Shape α (Drawable α)) (ctx : Context α) :
    Render α Markup :=
  drawTag shape.kind shape.tag style ctx (shape.attrs style ctx) (shape.content spec style ctx)

/-- Of its spec a node draws only the ratio it was given. -/
theorem draw_congr {a b : Spec α} (style : Style α) (shape : Shape α (Drawable α))
    (h : a.fixedAspect = b.fixedAspect) : shape.draw a style = shape.draw b style := by
  funext ctx
  cases shape <;> simp [draw, content, Stack.parts, Stack.layout, h]

end Shape

namespace Element

/-- A node drawn in the context that it was placed in. -/
def draw : Element α → Context α → Render α Markup :=
  fold fun spec style shape => (shape.map fun child => ⟨child.1, child.2⟩).draw spec style

def drawable (e : Element α) : Drawable α :=
  ⟨e, e.draw⟩

/-- The shape of a node with its children to be drawn. -/
def drawableShape (e : Element α) : Shape α (Drawable α) :=
  e.shape.map drawable

/-- A node is drawn from the way its children are drawn. -/
theorem draw_eq (e : Element α) : e.draw = e.drawableShape.draw e.spec e.style := by
  rw [draw, fold_eq, Shape.map_map]
  rfl

/-- A node that is placed differently is drawn in its context as before. -/
theorem draw_mapSpec (e : Element α) (f : Spec α → Spec α)
    (h : (f e.spec).fixedAspect = e.spec.fixedAspect) : (e.mapSpec f).draw = e.draw := by
  rw [draw_eq, draw_eq]
  exact Shape.draw_congr _ _ h

/-- A node drawn in the context of its parent. -/
def drawIn (e : Element α) (parent : Context α) : Render α Markup :=
  e.drawable.drawIn parent

def geometry (e : Element α) (ctx : Context α) : Render α Attrs :=
  e.drawableShape.attrs e.style ctx

/-- All attributes of a node. -/
def attrs (e : Element α) (ctx : Context α) : Render α Attrs :=
  nodeAttrs e.shape.kind e.style ctx (e.geometry ctx)

def content (e : Element α) (ctx : Context α) : Render α (Option (List Markup)) :=
  e.drawableShape.content e.spec e.style ctx

end Element

end SvgLayout
