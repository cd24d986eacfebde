import SvgLayout.Proofs.Element.Every
import SvgLayout.Proofs.Element.Parts
import SvgLayout.Proofs.Markup.Skeleton
import SvgLayout.Proofs.Render.Outcome

/-!
# Sketches

A sketch of a tree is drawn without any layout: it has the tags, the nesting and the order of the
drawing, its paint, its identifiers, definitions and references, and no pixels. It needs no context
and cannot fail. Whenever a tree is drawn, what is drawn is its sketch up to the attributes of
pixels.

## Main definitions

* `Sketch` — a drawing computation without pixels.
* `Shape.sketch`, `Element.sketch` — the sketch of a node and of a tree.
* `Render.Follows` — a drawing computation succeeds only with what a sketch answers.

## Main statements

* `Element.draw_follows` — a tree is drawn as its sketch.
-/

namespace SvgLayout

/-! ## Computations without pixels -/

/-- A computation that extends a registry and does not fail. -/
abbrev Sketch (β : Type) := StateM Registry β

namespace Sketch

variable {β γ : Type}

def newId (stem : String) : Sketch String :=
  modifyGet fun registry => registry.allocate stem

def addDefinition (definition : Markup) : Sketch Unit :=
  modify fun registry => registry.define definition

@[simp] theorem run_pure (b : β) (r : Registry) : (pure b : Sketch β).run r = (b, r) := rfl

@[simp] theorem run_bind (s : Sketch β) (f : β → Sketch γ) (r : Registry) :
    (s >>= f).run r = (f (s.run r).1).run (s.run r).2 := rfl

@[simp] theorem run_map (f : β → γ) (s : Sketch β) (r : Registry) :
    (f <$> s).run r = (f (s.run r).1, (s.run r).2) := rfl

@[simp] theorem run_newId (stem : String) (r : Registry) :
    (newId stem).run r = r.allocate stem := rfl

@[simp] theorem run_addDefinition (definition : Markup) (r : Registry) :
    (addDefinition definition).run r = ((), r.define definition) := rfl

end Sketch

variable {α : Type} [Scalar α] [NumberText α]

/-! ## Shapes of a single tag -/

/-- A tag without the attributes of pixels. -/
def sketchTag (precision : Nat) (tag : String) (style : Style α) (geometry : Attrs)
    (content : Option (List Markup)) : Markup :=
  .element tag (geometry.merge (style.attrs precision)).skeleton content

namespace Primitive

/-- The attributes of a shape that do not depend on pixels. -/
def steadyEntries (style : Style α) : Primitive α → List (String × String)
  | arrowHead _ head => headFill style head ++ [("stroke-linejoin", "round")]
  | text _ _ => [("text-anchor", "middle"), ("dominant-baseline", "central")]
  | _ => []

def sketch (precision : Nat) (style : Style α) (p : Primitive α) : Markup :=
  sketchTag precision p.tag style (.ofList (p.steadyEntries style)) p.content

end Primitive

/-! ## Nodes -/

def debugSketch : Markup :=
  .empty "rect" (.ofList
    [("stroke", Defaults.debugStroke), ("stroke-dasharray", Defaults.debugDash), ("fill", "none")])

/-- Children one after another, each followed by its outline if `debug` is set. -/
def sketchChildren (debug : Bool) (children : List (Sketch Markup)) : Sketch (List Markup) := do
  let drawn ← children.mapM fun child => do
    let markup ← child
    pure (if debug then [markup, debugSketch] else [markup])
  pure (Markup.lines drawn.flatten)

namespace Group

/-- A definition that clips, and the attribute that refers to it. -/
def clipSketch : Sketch (String × String) := do
  let id ← Sketch.newId "clip"
  Sketch.addDefinition (.tag "clipPath" (.ofList [("id", id)]) [.empty "rect" .empty])
  pure ("clip-path", reference id)

/-- A definition of the mask, and the attribute that refers to it. -/
def maskSketch (mask : Sketch Markup) : Sketch (String × String) := do
  let id ← Sketch.newId "mask"
  let body ← mask
  Sketch.addDefinition (.tag "mask" (.ofList [("id", id)]) [body])
  pure ("mask", reference id)

/-- The attribute of a group that is cut off. -/
def clipSketches (group : Group (Sketch Markup)) : Sketch (List (String × String)) :=
  if group.clip then (fun entry => [entry]) <$> clipSketch else pure []

/-- The attribute of a group that is masked. -/
def maskSketches (group : Group (Sketch Markup)) : Sketch (List (String × String)) :=
  match group.mask with
  | some mask => (fun entry => [entry]) <$> maskSketch mask
  | none => pure []

/-- The attributes of a group: its clipping, then its mask. -/
def sketchAttrs (group : Group (Sketch Markup)) : Sketch Attrs := do
  let clip ← group.clipSketches
  let mask ← group.maskSketches
  pure (.ofList (clip ++ mask))

end Group

namespace Shape

/-- The sketches of the tags of its own that a node draws before its children. -/
def trimSketches (precision : Nat) (style : Style α) {ε : Type} : Shape α ε → List Markup
  | arrow a =>
    [Primitive.sketch precision style (.line (.ofPoint a.tail) (.ofPoint a.tip)),
     Primitive.sketch precision style (.arrowHead a.direction a.head)]
  | frame f => f.trim.map fun trim => trim.2.sketch precision trim.1
  | _ => []

/-- The attributes of a node that do not depend on pixels. -/
def sketchAttrs (style : Style α) : Shape α (Sketch Markup) → Sketch Attrs
  | primitive p => pure (.ofList (p.steadyEntries style))
  | group g => g.sketchAttrs
  | _ => pure .empty

def sketchContent (precision : Nat) (style : Style α) (shape : Shape α (Sketch Markup)) :
    Sketch (Option (List Markup)) :=
  match shape with
  | primitive p => pure p.content
  | shape =>
    some <$> sketchChildren shape.debug
      ((shape.trimSketches precision style).map pure ++ shape.placed)

def sketch (precision : Nat) (style : Style α) (shape : Shape α (Sketch Markup)) :
    Sketch Markup := do
  let attrs ← shape.sketchAttrs style
  let content ← shape.sketchContent precision style
  pure (sketchTag precision shape.tag style attrs content)

theorem sketchContent_eq (precision : Nat) (style : Style α) {shape : Shape α (Sketch Markup)}
    (h : shape.isPrimitive = false) :
    shape.sketchContent precision style =
      some <$> sketchChildren shape.debug
        ((shape.trimSketches precision style).map pure ++ shape.placed) := by
  cases shape <;> first | rfl | simp [isPrimitive] at h

end Shape

namespace Element

def sketch (precision : Nat) : Element α → Sketch Markup :=
  fold fun _ style shape => (shape.map Prod.snd).sketch precision style

/-- A node is sketched from the sketches of its children. -/
theorem sketch_eq (precision : Nat) (e : Element α) :
    e.sketch precision = (e.shape.map (sketch precision)).sketch precision e.style := by
  rw [sketch, fold_eq, Shape.map_map]

end Element

/-! ## Following a sketch -/

namespace Render

variable {β γ δ : Type} {ω : Type}

/-- Whenever the computation succeeds, the sketch answers the same up to `view`, and leaves the
skeleton of the registry. -/
def Follows (m : Render ω β) (view : β → γ) (s : Sketch γ) : Prop :=
  ∀ ⦃r b r'⦄, m.Returns r b r' → s.run r.skeleton = (view b, r'.skeleton)

namespace Follows

variable {view : β → γ}

theorem pure (b : β) : Follows (Pure.pure b : Render ω β) view (Pure.pure (view b)) := by
  intro r c r' hc
  obtain ⟨rfl, rfl⟩ := returns_pure.mp hc
  rfl

theorem bind {δ' : Type} {view' : δ → δ'} {m : Render ω β} {f : β → Render ω δ} {s : Sketch γ}
    {g : γ → Sketch δ'} (hm : Follows m view s) (hf : ∀ b, Follows (f b) view' (g (view b))) :
    Follows (m >>= f) view' (s >>= g) := by
  intro r d r' h
  obtain ⟨b, r₁, hb, hd⟩ := returns_bind.mp h
  rw [Sketch.run_bind, hm hb]
  exact hf b hd

/-- What is only measured has no counterpart in the sketch. -/
theorem lift_bind {x : Except (LayoutError ω) β} {f : β → Render ω δ} {view' : δ → γ}
    {s : Sketch γ} (hf : ∀ b, x = .ok b → Follows (f b) view' s) :
    Follows ((liftM x : Render ω β) >>= f) view' s := by
  intro r d r' h
  obtain ⟨b, r₁, hb, hd⟩ := returns_bind.mp h
  obtain ⟨hx, eq⟩ := returns_lift.mp hb
  rw [eq] at hd
  exact hf b hx hd

theorem map {δ' : Type} {view' : δ → δ'} {m : Render ω β} {s : Sketch γ} {f : β → δ} {g : γ → δ'}
    (hm : Follows m view s) (hf : ∀ b, g (view b) = view' (f b)) :
    Follows (f <$> m) view' (g <$> s) := by
  intro r d r' hd
  obtain ⟨b, hb, rfl⟩ := returns_map.mp hd
  rw [Sketch.run_map, hm hb, hf]

theorem newId (stem : String) :
    Follows (SvgLayout.newId stem : Render ω String) id (Sketch.newId stem) := by
  intro r id r' hid
  obtain ⟨rfl, rfl⟩ := returns_newId.mp hid
  rfl

theorem addDefinition (definition : Markup) :
    Follows (SvgLayout.addDefinition definition : Render ω Unit) id
      (Sketch.addDefinition definition.skeleton) := by
  intro r u r' hu
  rw [returns_addDefinition.mp hu, Registry.skeleton_define]
  rfl

/-- A list of computations follows a list of sketches, entry by entry. -/
theorem mapM {κ ι : Type} {f : κ → Render ω β} {g : ι → Sketch γ} {xs : List κ} {ys : List ι}
    (h : List.Forall₂ (fun x y => Follows (f x) view (g y)) xs ys) :
    Follows (xs.mapM f) (List.map view) (ys.mapM g) := by
  induction h with
  | nil =>
    rw [List.mapM_nil, List.mapM_nil]
    exact .pure []
  | cons hx _ ih =>
    rw [List.mapM_cons, List.mapM_cons]
    exact hx.bind fun b => ih.bind fun bs => .pure (b :: bs)

end Follows

end Render

/-- In every context of a precision the node is drawn as its sketch. -/
def DrawsSketch (precision : Nat) (draw : Context α → Render α Markup) (s : Sketch Markup) : Prop :=
  ∀ ctx, ctx.precision = precision → (draw ctx).Follows Markup.skeleton s

/-! ## Drawing shapes of a single tag -/

/-- Position and size are pixels. -/
theorem Context.filter_steady_boxEntries (ctx : Context α) :
    (ctx.boxEntries.filter fun entry => isSteadyKey entry.1) = [] := by
  simp [boxEntries, isSteadyKey, pixelKeys]

namespace Primitive

theorem skeleton_attrs (style : Style α) (ctx : Context α) (p : Primitive α) :
    (p.attrs style ctx).skeleton = .ofList (p.steadyEntries style) := by
  rw [attrs, Attrs.skeleton_ofList]
  congr 1
  cases p with
  | rectangle rounded =>
    rw [entries]
    cases roundedCorners rounded with
    | none => exact ctx.filter_steady_boxEntries
    | some corners => simp [steadyEntries, isSteadyKey, pixelKeys]
  | arrowHead direction head =>
    rw [entries, headFill, steadyEntries, headFill]
    by_cases closed : (head.base && style.fill.isNone) = true
    · simp [closed, isSteadyKey, pixelKeys]
    · simp [closed, isSteadyKey, pixelKeys]
  | _ => simp [entries, steadyEntries, isSteadyKey, pixelKeys]

end Primitive

omit [Scalar α] in
/-- The attributes of a node that do not depend on pixels come from its geometry and its style. -/
theorem skeleton_nodeEntries (style : Style α) (ctx : Context α) (attrs : Attrs) :
    (Render.nodeEntries style ctx attrs).skeleton =
      (attrs.skeleton.merge (style.attrs ctx.precision)).skeleton := by
  have turned : (Render.nodeEntries style ctx attrs).skeleton =
      (attrs.merge (style.attrs ctx.precision)).skeleton := by
    rw [Render.nodeEntries]
    cases ctx.transform? with
    | none => rfl
    | some t => exact Attrs.skeleton_set_transform _ t
  rw [turned, Attrs.skeleton_merge, Attrs.skeleton_merge, Attrs.skeleton_skeleton]

/-- A tag is drawn as its sketch if its geometry and its content are. -/
theorem drawTag_follows {kind tag : String} {style : Style α} {ctx : Context α}
    {geometry : Render α Attrs} {content : Render α (Option (List Markup))}
    {attrs : Sketch Attrs} {pieces : Sketch (Option (List Markup))}
    (hg : geometry.Follows Attrs.skeleton attrs)
    (hc : content.Follows (Option.map (List.map Markup.skeleton)) pieces) :
    (drawTag kind tag style ctx geometry content).Follows Markup.skeleton
      (do
        let attrs ← attrs
        let content ← pieces
        pure (sketchTag ctx.precision tag style attrs content)) := by
  intro r m r' hm
  obtain ⟨-, a, s, c, ha, hcontent, rfl⟩ := Render.returns_drawTag.mp hm
  rw [Sketch.run_bind, hg ha, Sketch.run_bind, hc hcontent, Sketch.run_pure, sketchTag,
    Markup.skeleton_element, skeleton_nodeEntries]

omit [Scalar α] [NumberText α] in
/-- The content of a single tag has no attributes. -/
theorem Primitive.skeleton_content (p : Primitive α) :
    p.content.map (List.map Markup.skeleton) = p.content := by
  cases p <;> simp [Primitive.content]

theorem Primitive.drawsSketch (precision : Nat) (style : Style α) (p : Primitive α) :
    DrawsSketch precision (p.draw style) (pure (p.sketch precision style)) := by
  intro ctx hp r m r' hm
  have follows := drawTag_follows (.pure (p.attrs style ctx)) (.pure p.content) hm
  rw [p.skeleton_content, p.skeleton_attrs, hp] at follows
  exact follows

/-! ## Drawing children -/

omit [NumberText α] in
/-- All contexts of a tree have the same precision. -/
theorem precision_contextIn {d : Drawable α} {parent ctx : Context α}
    (h : d.contextIn parent = .ok ctx) {precision : Nat} (hp : parent.precision = precision) :
    ctx.precision = precision := by
  rw [Drawable.contextIn, Except.map_eq_ok] at h
  obtain ⟨spec, -, rfl⟩ := h
  exact hp

theorem skeleton_debugBox (ctx : Context α) : (debugBox ctx).skeleton = debugSketch := by
  rw [debugBox, debugSketch, Markup.skeleton_empty, Attrs.skeleton_ofList]
  cases ctx.transform? <;> simp [Context.boxEntries, isSteadyKey, pixelKeys]

omit [NumberText α] in
theorem drawIn_follows {precision : Nat} {d : Drawable α} {s : Sketch Markup}
    (h : DrawsSketch precision d.draw s) {ctx : Context α} (hp : ctx.precision = precision) :
    (d.drawIn ctx).Follows Markup.skeleton s := by
  refine Render.Follows.lift_bind fun childCtx hctx => ?_
  exact h childCtx (precision_contextIn hctx hp)

/-- Children are drawn as their sketches, one after another. -/
theorem drawChildren_follows {precision : Nat} (debug : Bool) {children : List (Drawable α)}
    {sketches : List (Sketch Markup)}
    (h : List.Forall₂ (fun child s => DrawsSketch precision child.draw s) children sketches)
    {ctx : Context α} (hp : ctx.precision = precision) :
    (drawChildren debug ctx children).Follows (List.map Markup.skeleton)
      (sketchChildren debug sketches) := by
  have each : ∀ (child : Drawable α) (s : Sketch Markup), DrawsSketch precision child.draw s →
      (do
        let childCtx ← child.contextIn ctx
        let markup ← child.draw childCtx
        pure (if debug then [markup, debugBox childCtx] else [markup]) :
          Render α (List Markup)).Follows (List.map Markup.skeleton)
        (do
          let markup ← s
          pure (if debug then [markup, debugSketch] else [markup])) := by
    intro child s hs
    refine Render.Follows.lift_bind fun childCtx hctx => ?_
    refine (hs childCtx (precision_contextIn hctx hp)).bind fun markup => ?_
    have pieces : (if debug then [markup.skeleton, debugSketch] else [markup.skeleton]) =
        (if debug then [markup, debugBox childCtx] else [markup]).map Markup.skeleton := by
      cases debug <;> simp [skeleton_debugBox]
    rw [pieces]
    exact .pure _
  refine (Render.Follows.mapM (h.imp each)).bind fun drawn => ?_
  have lines : Markup.lines (drawn.map (List.map Markup.skeleton)).flatten =
      (Markup.lines drawn.flatten).map Markup.skeleton := by
    rw [Markup.map_skeleton_lines, List.map_flatten]
  rw [lines]
  exact .pure _

/-! ## Drawing groups -/

namespace Group

theorem clipEntry_follows (ctx : Context α) : (clipEntry ctx).Follows id clipSketch := by
  refine (Render.Follows.newId "clip").bind fun id' => ?_
  have box : (Attrs.ofList ctx.boxEntries).skeleton = .empty := by
    rw [Attrs.skeleton_ofList, ctx.filter_steady_boxEntries]
    rfl
  have definition : (Markup.tag "clipPath" (.ofList [("id", id')])
      [.empty "rect" (.ofList ctx.boxEntries)]).skeleton =
      .tag "clipPath" (.ofList [("id", id')]) [.empty "rect" .empty] := by
    rw [Markup.skeleton_tag, List.map_singleton, Markup.skeleton_empty, box]
    rfl
  have defined : (addDefinition (.tag "clipPath" (.ofList [("id", id')])
      [.empty "rect" (.ofList ctx.boxEntries)]) : Render α Unit).Follows id _ :=
    .addDefinition _
  rw [definition] at defined
  exact defined.bind fun _ => .pure _

omit [NumberText α] in
theorem maskEntry_follows {precision : Nat} {mask : Drawable α} {s : Sketch Markup}
    (h : DrawsSketch precision mask.draw s) {ctx : Context α} (hp : ctx.precision = precision) :
    (maskEntry mask ctx).Follows id (maskSketch s) := by
  refine (Render.Follows.newId "mask").bind fun id' => ?_
  refine (drawIn_follows h hp).bind fun body => ?_
  have definition : (Markup.tag "mask" (.ofList [("id", id')]) [body]).skeleton =
      .tag "mask" (.ofList [("id", id')]) [body.skeleton] := by
    rw [Markup.skeleton_tag, List.map_singleton]
    rfl
  have defined : (addDefinition (.tag "mask" (.ofList [("id", id')]) [body]) :
      Render α Unit).Follows id _ := .addDefinition _
  rw [definition] at defined
  exact defined.bind fun _ => .pure _

/-- The attributes of a group are drawn as in its sketch if its mask is. -/
theorem attrs_follows {ε : Type} {f : ε → Drawable α} {g : ε → Sketch Markup} {precision : Nat}
    {group : Group ε} (h : ∀ c ∈ group.mask, DrawsSketch precision (f c).draw (g c))
    {ctx : Context α} (hp : ctx.precision = precision) :
    ((group.map f).attrs ctx).Follows Attrs.skeleton (group.map g).sketchAttrs := by
  have clip : ((group.map f).clipEntries ctx).Follows id (group.map g).clipSketches := by
    rw [clipEntries, clipSketches, map, map]
    by_cases hc : group.clip = true
    · simp only [hc, if_true]
      exact (clipEntry_follows ctx).map fun _ => rfl
    · simp only [hc]
      exact .pure []
  have mask : ((group.map f).maskEntries ctx).Follows id (group.map g).maskSketches := by
    rw [maskEntries, maskSketches, map, map]
    cases hm : group.mask with
    | none => exact .pure []
    | some c => exact (maskEntry_follows (h c hm) hp).map fun _ => rfl
  intro r attrs r' hr
  rw [attrs_eq] at hr
  obtain ⟨clips, s, hclips, hr⟩ := Render.returns_bind.mp hr
  obtain ⟨masks, s', hmasks, hr⟩ := Render.returns_bind.mp hr
  obtain ⟨rfl, rfl⟩ := Render.returns_pure.mp hr
  have steady : ∀ key ∈ (clips ++ masks).map Prod.fst, isSteadyKey key = true := by
    rw [List.map_append, keys_clipEntries hclips, keys_maskEntries hmasks]
    cases (group.map f).clip <;> cases (group.map f).mask.isSome <;> decide
  have all : (clips ++ masks).filter (fun entry => isSteadyKey entry.1) = clips ++ masks :=
    List.filter_eq_self.mpr fun entry hentry => steady _ (List.mem_map_of_mem hentry)
  rw [sketchAttrs, Sketch.run_bind, clip hclips, Sketch.run_bind, mask hmasks,
    Attrs.skeleton_ofList, all]
  rfl

end Group

/-! ## Drawing nodes -/

namespace Shape

variable {ε : Type} {f : ε → Drawable α} {g : ε → Sketch Markup} {precision : Nat}

/-- The attributes of a node are drawn as in its sketch. -/
theorem attrs_follows (style : Style α) {shape : Shape α ε}
    (h : ∀ c ∈ shape.children, DrawsSketch precision (f c).draw (g c)) {ctx : Context α}
    (hp : ctx.precision = precision) :
    ((shape.map f).attrs style ctx).Follows Attrs.skeleton ((shape.map g).sketchAttrs style) := by
  cases shape with
  | primitive p =>
    have follows : (pure (p.attrs style ctx) : Render α Attrs).Follows Attrs.skeleton _ := .pure _
    rw [p.skeleton_attrs] at follows
    exact follows
  | group grp =>
    refine Group.attrs_follows ?_ hp
    intro mask hm
    exact h mask (List.mem_append_left _ (Option.mem_toList.mpr hm))
  | _ =>
    have follows : (pure .empty : Render α Attrs).Follows Attrs.skeleton _ := .pure _
    exact follows

/-- The sketches of the tags of a node's own are those of its trim. -/
theorem trimSketches_eq (style : Style α) (ctx : Context α) (shape : Shape α ε) :
    shape.trimSketches precision style =
      (shape.trim style ctx).map fun trim => trim.2.sketch precision trim.1 := by
  cases shape <;> rfl

/-- The parts of a node are drawn as the sketches of its tags and of its children. -/
theorem parts_follow {spec : Spec α} (style : Style α) {shape : Shape α ε}
    (h : ∀ c ∈ shape.children, DrawsSketch precision (f c).draw (g c)) {ctx : Context α}
    {parts : List (Drawable α)} (hparts : (shape.map f).parts spec style ctx = .ok parts) :
    List.Forall₂ (fun part s => DrawsSketch precision part.draw s) parts
      (((shape.map g).trimSketches precision style).map pure ++ (shape.map g).placed) := by
  have sketches : ((shape.map g).trimSketches precision style).map pure ++ (shape.map g).placed =
      (shape.trim style ctx).map (fun trim => pure (trim.2.sketch precision trim.1)) ++
        shape.placed.map g := by
    rw [trimSketches_eq style ctx, trim_map, placed_map, List.map_map]
    rfl
  rw [sketches]
  refine forall₂_parts (R := DrawsSketch precision) hparts ?_ ?_
  · intro trim _
    exact trim.2.drawsSketch precision trim.1
  · intro child hplaced
    exact h child (mem_children_of_placed hplaced)

/-- The content of a node is drawn as in its sketch. -/
theorem content_follows (spec : Spec α) (style : Style α) {shape : Shape α ε}
    (h : ∀ c ∈ shape.children, DrawsSketch precision (f c).draw (g c)) {ctx : Context α}
    (hp : ctx.precision = precision) :
    ((shape.map f).content spec style ctx).Follows (Option.map (List.map Markup.skeleton))
      ((shape.map g).sketchContent precision style) := by
  by_cases primitive : shape.isPrimitive = true
  · cases shape with
    | primitive p =>
      have follows : (pure p.content : Render α _).Follows
        (Option.map (List.map Markup.skeleton)) _ := .pure p.content
      rw [p.skeleton_content] at follows
      exact follows
    | _ => simp [isPrimitive] at primitive
  · rw [Bool.not_eq_true] at primitive
    rw [content_eq spec style ctx (by simpa using primitive),
      sketchContent_eq precision style (by simpa using primitive), debug_map, debug_map]
    refine Render.Follows.lift_bind fun parts hparts => ?_
    exact (drawChildren_follows shape.debug (parts_follow style h hparts) hp).map fun _ => rfl

end Shape

/-- A tree is drawn as its sketch, whatever the context. -/
theorem Element.draw_follows (precision : Nat) (e : Element α) :
    DrawsSketch precision e.draw (e.sketch precision) := by
  have node :
      Hereditary fun e : Element α => DrawsSketch precision e.draw (e.sketch precision) := by
    intro e ih
    rw [draw_eq, sketch_eq]
    intro ctx hp
    have follows : (e.drawableShape.draw e.spec e.style ctx).Follows Markup.skeleton _ :=
      drawTag_follows (Shape.attrs_follows e.style ih hp)
        (Shape.content_follows e.spec e.style ih hp)
    rw [hp, drawableShape, Shape.tag_map] at follows
    rw [Shape.sketch, Shape.tag_map]
    exact follows
  exact induction_on node e

end SvgLayout
