import SvgLayout.Proofs.Element.Every
import SvgLayout.Proofs.Element.Placed
import SvgLayout.Proofs.Element.Tame
import SvgLayout.Proofs.Render.Tells

/-!
# When a tree shows finite numbers

The pixels of every node of a drawn tree are finite, or it would not be drawn. The other numbers are
finite exactly if every node is tame, in the context of its parent: nothing that is not tame is
hidden behind something else, and nothing else is drawn that is not finite.

## Main definitions

* `Style.PaintsOnly` — a style that sets no attribute of geometry.
* `Drawable.TellsIn` — a node shows finite numbers exactly if a condition holds.
* `Element.TellsMoved` — a tree does so wherever it is moved.

## Main statements

* `drawTag_tells`, `drawChildren_tells` — tags and children.
* `Shape.everywhere_ownParts`, `Shape.tellsIn_ownParts` — the tags of a node's own.
* `Element.tells` — a tree shows finite numbers exactly if every node is tame.
-/

namespace SvgLayout

section

variable {α : Type}

/-- None of the attributes that a style adds is one of geometry. -/
def Style.PaintsOnly (style : Style α) : Prop :=
  ∀ pair ∈ style.extra, isGeometryKey pair.1 = false

/-- The rectangle behind the child of a frame is only painted. -/
theorem Frame.paintsOnly_backStyle {ε : Type} (frame : Frame α ε) : frame.backStyle.PaintsOnly := by
  have extra : frame.backStyle.extra = [] := by
    rw [backStyle]
    cases frame.border <;> rfl
  simp [Style.PaintsOnly, extra]

variable [Scalar α] [NumberText α]

omit [Scalar α] in
/-- Attributes of other keys than those of geometry. -/
theorem Style.isGeometryKey_of_mem {style : Style α} (paints : style.PaintsOnly) {precision : Nat}
    {key : String} (h : key ∈ (style.attrs precision).keys) : isGeometryKey key = false := by
  have typed : ∀ k ∈ styleKeys, isGeometryKey k = false := by decide
  rcases Style.mem_keys_attrs h with h | h
  · exact typed key h
  · obtain ⟨pair, hpair, rfl⟩ := List.mem_map.mp h
    exact paints pair hpair

omit [Scalar α] in
/-- A tag shows the numbers of its geometry and of its rotation. -/
theorem showsNumbers_nodeEntries {style : Style α} (paints : style.PaintsOnly) {ctx : Context α}
    {attrs : Attrs} (still : "transform" ∉ attrs.keys) :
    (Render.nodeEntries style ctx attrs).ShowsNumbers ↔
      attrs.ShowsNumbers ∧ ∀ text ∈ ctx.transform?, IsNumeric text := by
  have painted : (attrs.merge (style.attrs ctx.precision)).ShowsNumbers ↔ attrs.ShowsNumbers :=
    Attrs.showsNumbers_setAll fun pair hpair =>
      Style.isGeometryKey_of_mem paints (List.mem_map_of_mem hpair)
  have new : "transform" ∉ (attrs.merge (style.attrs ctx.precision)).keys := by
    rw [Attrs.merge, Attrs.mem_keys_setAll]
    rintro (h | h)
    · exact still h
    · cases Style.isGeometryKey_of_mem paints h
  rw [Render.nodeEntries]
  cases ctx.transform? with
  | none => simpa using painted
  | some text =>
    rw [Option.map_some, Option.toList_some, Attrs.setAll_cons, Attrs.setAll_nil,
      Attrs.showsNumbers_set new rfl, painted]
    simp

/-- A tag shows the numbers of its geometry, of its rotation and of its content. -/
theorem drawTag_tells {kind tag : String} {style : Style α} {ctx : Context α}
    {geometry : Render α Attrs} {content : Render α (Option (List Markup))} {R G C : Prop}
    (paints : style.PaintsOnly)
    (still : ∀ r attrs r', geometry.Returns r attrs r' → "transform" ∉ attrs.keys)
    (turned : ctx.pixels.isFinite = true → ((∀ text ∈ ctx.transform?, IsNumeric text) ↔ R))
    (hg : ctx.pixels.isFinite = true → geometry.Tells Attrs.ShowsNumbers G)
    (hc : ctx.pixels.isFinite = true →
      content.Tells (fun c => ∀ pieces ∈ c, ∀ piece ∈ pieces, piece.ShowsNumbers) C) :
    (drawTag kind tag style ctx geometry content).Tells Markup.ShowsNumbers (R ∧ G ∧ C) := by
  intro r m r' returns
  obtain ⟨finite, attrs, s, c, ha, hcontent, rfl⟩ := Render.returns_drawTag.mp returns
  have first := hg finite ha
  have second := hc finite hcontent
  rw [Markup.showsNumbers_element, showsNumbers_nodeEntries paints (still r attrs s ha),
    turned finite]
  tauto

end

/-! ## Nodes in their contexts -/

section

variable {α : Type} [Scalar α]

/-- Drawn in the context of its parent, a node shows finite numbers exactly if `T` holds. Its pixels
are finite then, and its rotation as well if `T` holds. -/
structure Drawable.TellsIn (d : Drawable α) (parent : Context α) (T : Prop) : Prop where
  tells : ∀ spec, d.element.resolvedSpec = .ok spec →
    (d.draw (parent.child spec)).Tells Markup.ShowsNumbers T
  guarded : ∀ spec, d.element.resolvedSpec = .ok spec → ∀ r m r',
    (d.draw (parent.child spec)).Returns r m r' → (parent.child spec).pixels.isFinite = true
  turned : ∀ spec, d.element.resolvedSpec = .ok spec → T → Scalar.isFinite spec.rotate = true

theorem Drawable.TellsIn.drawIn {d : Drawable α} {parent : Context α} {T : Prop}
    (h : d.TellsIn parent T) : (d.drawIn parent).Tells Markup.ShowsNumbers T := by
  refine .lift_bind fun ctx hctx => ?_
  obtain ⟨spec, resolved, rfl⟩ := Except.map_eq_ok.mp hctx
  exact h.tells spec resolved

end

section

variable [NumberText Extended] [NumberText.Spells Extended]

/-- The outline of a child whose pixels and whose rotation are finite. -/
theorem showsNumbers_debugBox {parent : Context Extended} {spec : Spec Extended}
    (finite : (parent.child spec).pixels.isFinite = true)
    (turned : Scalar.isFinite spec.rotate = true) :
    (debugBox (parent.child spec)).ShowsNumbers := by
  have transform := (Context.isNumeric_transform finite).mpr turned
  have paint : isGeometryKey "stroke" = false ∧ isGeometryKey "stroke-dasharray" = false ∧
      isGeometryKey "fill" = false := by decide
  rw [debugBox, Markup.showsNumbers_empty, Attrs.showsNumbers_ofList]
  · simp only [pairsNumeric_append, pairsNumeric_cons, pairsNumeric_nil,
      Context.pairsNumeric_boxEntries finite, paint, Bool.false_eq_true, false_imp_iff, true_and]
    intro pair hpair _
    obtain ⟨text, htext, rfl⟩ := Option.mem_map.mp (Option.mem_toList.mp hpair)
    exact transform text htext
  · cases (parent.child spec).transform? <;> simp [Context.boxEntries]

/-- Children show finite numbers exactly if all conditions hold; their outlines add nothing. -/
theorem drawChildren_tells {debug : Bool} {ctx : Context Extended}
    {children : List (Drawable Extended)} {S : Drawable Extended → Prop}
    (h : ∀ child ∈ children, child.TellsIn ctx (S child)) :
    (drawChildren debug ctx children).Tells (fun pieces => ∀ piece ∈ pieces, piece.ShowsNumbers)
      (∀ child ∈ children, S child) := by
  have each : ∀ child ∈ children,
      (do
        let childCtx ← child.contextIn ctx
        let markup ← child.draw childCtx
        pure (if debug then [markup, debugBox childCtx] else [markup]) :
          Render Extended (List Markup)).Tells
        (fun pieces => ∀ piece ∈ pieces, piece.ShowsNumbers) (S child) := by
    intro child hchild
    have drawn := h child hchild
    refine .lift_bind fun childCtx hctx => ?_
    obtain ⟨spec, resolved, rfl⟩ := Except.map_eq_ok.mp hctx
    intro r pieces r' returns
    obtain ⟨m, s, first, second⟩ := Render.returns_bind.mp returns
    obtain ⟨rfl, rfl⟩ := Render.returns_pure.mp second
    have tells := drawn.tells spec resolved first
    have outline : S child → (debugBox (ctx.child spec)).ShowsNumbers := fun tame =>
      showsNumbers_debugBox (drawn.guarded spec resolved r m _ first)
        (drawn.turned spec resolved tame)
    cases debug with
    | false => simpa using tells
    | true =>
      simp only [if_true, List.forall_mem_cons, List.not_mem_nil, false_imp_iff, implies_true,
        and_true]
      tauto
  refine ((Render.Tells.mapM each).bind (U := True) fun pieces => .pure ?_).congr (by simp)
  rw [Markup.forall_lines, List.forall_mem_flatten, and_true]

/-! ## Groups -/

namespace Group

variable {group : Group (Drawable Extended)} {ctx : Context Extended}

omit [NumberText.Spells Extended] in
/-- The attributes of a group are references. -/
theorem isGeometryKey_attrs {r r' : Registry} {attrs : Attrs}
    (h : (group.attrs ctx).Returns r attrs r') : ∀ key ∈ attrs.keys, isGeometryKey key = false := by
  have links : ∀ key ∈ ["clip-path", "mask"], isGeometryKey key = false := by decide
  simp only [attrs_eq, Render.returns_bind, Render.returns_pure] at h
  obtain ⟨clip, s, hclip, mask, _, hmask, rfl, -⟩ := h
  intro key hkey
  refine links key ?_
  rw [Attrs.mem_keys_ofList, List.map_append, keys_clipEntries hclip,
    keys_maskEntries hmask] at hkey
  revert hkey
  cases group.clip <;> cases group.mask <;> simp +contextual

/-- What clips to finite pixels shows finite numbers. -/
theorem clipEntries_tells (finite : ctx.pixels.isFinite = true) :
    (group.clipEntries ctx).Tells (fun _ => True) True := by
  have box : (Attrs.ofList ctx.boxEntries).ShowsNumbers := by
    rw [Attrs.showsNumbers_ofList (by simp [Context.boxEntries])]
    exact Context.pairsNumeric_boxEntries finite
  have definition (id : String) : (Markup.tag "clipPath" (.ofList [("id", id)])
      [.empty "rect" (.ofList ctx.boxEntries)]).ShowsNumbers := by
    have plain : isGeometryKey "id" = false := by decide
    simp [box, Attrs.showsNumbers_ofList, pairsNumeric_cons, pairsNumeric_nil, plain]
  rw [clipEntries]
  split
  · refine .map (P := fun _ => True) ?_ fun _ => Iff.rfl
    refine ((Render.Tells.newId "clip").bind (U := True) fun id => ?_).congr (by simp)
    refine ((Render.Tells.addDefinition _).bind (U := True) fun _ => .pure ?_).congr ?_
    · simp
    · simp only [definition, and_true]
  · exact .pure Iff.rfl

omit [NumberText Extended] [NumberText.Spells Extended] in
/-- The definition of a mask shows the numbers that are drawn into it. -/
theorem maskEntries_tells {S : Drawable Extended → Prop}
    (h : ∀ mask ∈ group.mask.toList, mask.TellsIn ctx (S mask)) :
    (group.maskEntries ctx).Tells (fun _ => True) (∀ mask ∈ group.mask.toList, S mask) := by
  have definition (id : String) (body : Markup) :
      (Markup.tag "mask" (.ofList [("id", id)]) [body]).ShowsNumbers ↔ body.ShowsNumbers := by
    have plain : isGeometryKey "id" = false := by decide
    simp [Attrs.showsNumbers_ofList, pairsNumeric_cons, pairsNumeric_nil, plain]
  rw [maskEntries]
  cases hm : group.mask with
  | none => exact .pure (by simp)
  | some mask =>
    have drawn := (h mask (by simp [hm])).drawIn
    refine .map (P := fun _ => True) ?_ fun _ => Iff.rfl
    refine ((Render.Tells.newId "mask").bind (U := S mask) fun id => ?_).congr (by simp)
    refine (drawn.bind (U := True) fun body => ?_).congr (by simp)
    refine ((Render.Tells.addDefinition _).bind (U := True) fun _ => .pure ?_).congr ?_
    · simp
    · rw [definition]

/-- The attributes of a group show no numbers, but its definitions do. -/
theorem attrs_tells (finite : ctx.pixels.isFinite = true) {S : Drawable Extended → Prop}
    (h : ∀ mask ∈ group.mask.toList, mask.TellsIn ctx (S mask)) :
    (group.attrs ctx).Tells Attrs.ShowsNumbers (∀ mask ∈ group.mask.toList, S mask) := by
  have definitions :
      (group.attrs ctx).Tells (fun _ => True) (∀ mask ∈ group.mask.toList, S mask) := by
    rw [attrs_eq]
    refine ((clipEntries_tells finite).bind (U := ∀ mask ∈ group.mask.toList, S mask)
      fun clip => ?_).congr (by simp)
    refine ((maskEntries_tells h).bind (U := True) fun mask => .pure ?_).congr ?_
    · simp
    · simp
  intro r attrs r' returns
  have shown : attrs.ShowsNumbers := Attrs.showsNumbers_of_keys (isGeometryKey_attrs returns)
  simpa only [shown] using definitions returns

end Group

/-! ## Tags -/

omit [NumberText.Spells Extended] in
/-- A tag in a rectangle has the spec it is given. -/
theorem Drawable.resolvedSpec_ofPrimitive {rect : Option (Rect Extended)} {p : Primitive Extended}
    (free : p.aspect { Spec.plain with rect := rect } = none) (style : Style Extended) :
    (Drawable.ofPrimitive { Spec.plain with rect := rect } style p).element.resolvedSpec =
      .ok { Spec.plain with rect := rect } := by
  rw [Element.resolvedSpec, Measured.resolvedSpec, Element.measured_eq]
  have aspect : (Shape.sizing { Spec.plain with rect := rect } (.primitive p)).autoLayout =
      .ok ⟨none, none⟩ := by
    rw [Shape.sizing, free]
    rfl
  exact congrArg (Spec.resolve { Spec.plain with rect := rect } <$> ·) aspect

omit [NumberText.Spells Extended] in
/-- A tag in a rectangle is not turned. -/
theorem Drawable.tameIn_ofPrimitive {rect : Option (Rect Extended)} {p : Primitive Extended}
    (free : p.aspect { Spec.plain with rect := rect } = none) (style : Style Extended)
    (parent : Context Extended) :
    (Drawable.ofPrimitive { Spec.plain with rect := rect } style p).element.TameIn parent ↔
      p.Tame style (parent.child { Spec.plain with rect := rect }) := by
  rw [Element.tameIn_iff (resolvedSpec_ofPrimitive free style)]
  exact and_iff_right rfl

/-- A tag shows finite numbers exactly if it is tame. -/
theorem Drawable.tellsIn_ofPrimitive {style : Style Extended} (paints : style.PaintsOnly)
    (spec : Spec Extended) (p : Primitive Extended) (parent : Context Extended) :
    (Drawable.ofPrimitive spec style p).TellsIn parent
      ((Drawable.ofPrimitive spec style p).element.Everywhere Element.TameIn parent) := by
  have tame : (Drawable.ofPrimitive spec style p).element.Everywhere Element.TameIn parent ↔
      (Drawable.ofPrimitive spec style p).element.TameIn parent := Element.everywhere_primitive
  constructor
  · intro resolved hresolved
    refine Render.Tells.congr ?_ (tame.trans (Element.tameIn_iff hresolved)).symm
    refine (drawTag_tells (C := True) paints ?_ (fun finite => Context.isNumeric_transform finite)
      (fun finite => .pure (Primitive.showsNumbers_attrs finite)) fun _ => .pure ?_).congr
      (by rw [and_true]; rfl)
    · intro r attrs r' returns
      rw [(Render.returns_pure.mp returns).1]
      exact p.transform_notMem_attrs style _
    · cases p <;> simp [Primitive.content]
  · intro resolved _ r m r' returns
    exact (Render.returns_drawTag.mp returns).1
  · intro resolved hresolved h
    exact (tame.mp h resolved hresolved).1

section

variable {style : Style Extended} {ctx : Context Extended}
  {shape : Shape Extended (Element Extended)} {own : List (Drawable Extended)}

omit [NumberText.Spells Extended] in
/-- The tags of a node's own are tame if the node is. -/
theorem Shape.everywhere_ownParts (several : shape.isPrimitive = false)
    (h : (shape.map Element.drawable).ownParts style ctx = .ok own) :
    (∀ part ∈ own, part.element.Everywhere Element.TameIn ctx) ↔ shape.Tame style ctx := by
  have tag {rect : Option (Rect Extended)} {p : Primitive Extended}
      (free : p.aspect { Spec.plain with rect := rect } = none) (style : Style Extended) :
      (Drawable.ofPrimitive { Spec.plain with rect := rect } style p).element.Everywhere
          Element.TameIn ctx ↔
        p.Tame style (ctx.child { Spec.plain with rect := rect }) :=
    Element.everywhere_primitive.trans (Drawable.tameIn_ofPrimitive free style ctx)
  cases shape with
  | primitive p => cases several
  | arrow a =>
    have shaft : (Primitive.line (.ofPoint a.tail) (a.shaftEnd style ctx)).aspect .plain = none :=
      rfl
    have head : (Primitive.arrowHead a.direction a.head).aspect a.headSpec = none := rfl
    rw [← Except.pure_eq_ok.mp h, Arrow.parts, List.forall_mem_cons, List.forall_mem_singleton]
    exact and_congr (tag shaft style) (tag head style)
  | frame f =>
    have trim : (f.map Element.drawable).trim = f.trim := rfl
    have backdrop : (f.map Element.drawable).backdrop = .ok own := h
    rw [Frame.backdrop] at backdrop
    rw [Tame, ← trim, Frame.trim]
    by_cases bare : ((f.map Element.drawable).border.isNone &&
        (f.map Element.drawable).fill.isNone) = true
    · rw [if_pos bare] at backdrop ⊢
      simp [← Except.pure_eq_ok.mp backdrop]
    · rw [if_neg bare] at backdrop ⊢
      obtain ⟨aspect, measured, backdrop⟩ := Except.bind_eq_ok.mp backdrop
      have measured : f.child.layoutAspect = .ok aspect := measured
      rw [← Except.pure_eq_ok.mp backdrop]
      simp only [List.forall_mem_singleton, measured, Except.ok.injEq, forall_eq']
      exact tag rfl f.backStyle
  | _ =>
    rw [← Except.pure_eq_ok.mp h]
    simp [Tame]

/-- The tags of a node's own show finite numbers exactly if they are tame. -/
theorem Shape.tellsIn_ownParts (paints : style.PaintsOnly)
    (h : (shape.map Element.drawable).ownParts style ctx = .ok own) :
    ∀ part ∈ own, part.TellsIn ctx (part.element.Everywhere Element.TameIn ctx) := by
  cases shape with
  | arrow a =>
    rw [← Except.pure_eq_ok.mp h]
    intro part hpart
    rcases List.mem_cons.mp hpart with rfl | hpart
    · exact Drawable.tellsIn_ofPrimitive paints _ _ ctx
    · rw [List.mem_singleton.mp hpart]
      exact Drawable.tellsIn_ofPrimitive paints _ _ ctx
  | frame f =>
    have backdrop : (f.map Element.drawable).backdrop = .ok own := h
    rw [Frame.backdrop] at backdrop
    split at backdrop
    · simp [← Except.pure_eq_ok.mp backdrop]
    · obtain ⟨aspect, -, backdrop⟩ := Except.bind_eq_ok.mp backdrop
      rw [← Except.pure_eq_ok.mp backdrop, List.forall_mem_singleton]
      exact Drawable.tellsIn_ofPrimitive (Frame.paintsOnly_backStyle _) _ _ ctx
  | _ =>
    rw [← Except.pure_eq_ok.mp h]
    simp

end

/-! ## Trees -/

namespace Shape

variable {style : Style Extended} {ctx : Context Extended}
  {shape : Shape Extended (Drawable Extended)}

/-- The attributes of a node with children show no numbers, but the definition of its mask does. -/
theorem attrs_tells (several : shape.isPrimitive = false) (finite : ctx.pixels.isFinite = true)
    {S : Drawable Extended → Prop} (h : ∀ mask ∈ shape.masks, mask.TellsIn ctx (S mask)) :
    (shape.attrs style ctx).Tells Attrs.ShowsNumbers (∀ mask ∈ shape.masks, S mask) := by
  cases shape with
  | primitive p => cases several
  | group g => exact Group.attrs_tells finite h
  | _ => exact .pure (by simp [masks, Attrs.showsNumbers_empty])

omit [NumberText.Spells Extended] in
theorem transform_notMem_attrs (several : shape.isPrimitive = false) {r r' : Registry}
    {attrs : Attrs} (h : (shape.attrs style ctx).Returns r attrs r') :
    "transform" ∉ attrs.keys := by
  cases shape with
  | primitive p => cases several
  | group g =>
    intro mem
    cases Group.isGeometryKey_attrs h _ mem
  | _ =>
    rw [(Render.returns_pure.mp h).1]
    simp

end Shape

namespace Element

variable {e : Element Extended}

/-- Wherever it is moved, the tree shows finite numbers exactly if every node is tame. -/
def TellsMoved (e : Element Extended) : Prop :=
  ∀ d, e.MovedTo d → ∀ parent, d.drawable.TellsIn parent (d.Everywhere TameIn parent)

variable {parent ctx : Context Extended} {parts : List (Drawable Extended)}

omit [NumberText.Spells Extended] in
theorem masks_tellsIn (below : ∀ child ∈ e.shape.children, child.TellsMoved) :
    ∀ mask ∈ e.drawableShape.masks,
      mask.TellsIn ctx (mask.element.Everywhere TameIn ctx) := by
  intro mask hmask
  rw [drawableShape, Shape.masks_map] at hmask
  obtain ⟨child, hchild, rfl⟩ := List.mem_map.mp hmask
  exact below child (Shape.mem_children_of_masks hchild) child (.refl child) ctx

theorem parts_tellsIn (paints : e.style.PaintsOnly)
    (below : ∀ child ∈ e.shape.children, child.TellsMoved)
    (laid : e.drawableShape.parts e.spec e.style ctx = .ok parts) :
    ∀ part ∈ parts, part.TellsIn ctx (part.element.Everywhere TameIn ctx) := by
  refine Shape.forall_parts_of_moved laid (fun own tags => Shape.tellsIn_ownParts paints tags) ?_
  exact fun child hplaced d hmoved =>
    below child (Shape.mem_children_of_placed hplaced) d hmoved ctx

omit [NumberText.Spells Extended] in
/-- Every node of a tree is tame if the root is turned by a finite angle, and the nodes of its mask
and of its parts are tame. -/
theorem everywhere_iff_parts {spec : Spec Extended} (several : e.shape.isPrimitive = false)
    (resolved : e.resolvedSpec = .ok spec)
    (laid : e.drawableShape.parts e.spec e.style (parent.child spec) = .ok parts) :
    e.Everywhere TameIn parent ↔
      Scalar.isFinite spec.rotate = true ∧
        (∀ mask ∈ e.drawableShape.masks, mask.element.Everywhere TameIn (parent.child spec)) ∧
        ∀ part ∈ parts, part.element.Everywhere TameIn (parent.child spec) := by
  obtain ⟨own, drawn, hown, rfl, seated, -⟩ := Shape.parts_seated laid
  rw [everywhere_iff resolved seated, tameIn_iff resolved, drawableShape, Shape.masks_map,
    List.forall_mem_append, List.forall_mem_append, List.forall_mem_map, List.forall_mem_map,
    Shape.everywhere_ownParts several hown]
  simp only [drawable]
  tauto

/-- A node shows finite numbers exactly if it is tame and everything below it is, if that is so of
its children, wherever they are moved. -/
theorem tellsIn_node (paints : e.style.PaintsOnly)
    (below : ∀ child ∈ e.shape.children, child.TellsMoved) (parent : Context Extended) :
    e.drawable.TellsIn parent (e.Everywhere TameIn parent) := by
  cases several : e.shape.isPrimitive with
  | true =>
    obtain ⟨spec, style, shape⟩ := e
    cases shape with
    | primitive p => exact Drawable.tellsIn_ofPrimitive paints spec p parent
    | _ => cases several
  | false =>
    have several' : e.drawableShape.isPrimitive = false := by
      rw [drawableShape, Shape.isPrimitive_map]
      exact several
    have draw : e.drawable.draw = e.drawableShape.draw e.spec e.style := e.draw_eq
    constructor
    · intro spec resolved r m r' returns
      rw [draw] at returns
      -- What is below the node is only known once its parts are laid out.
      obtain ⟨-, _, _, _, -, hcontent, -⟩ := Render.returns_drawTag.mp returns
      rw [Shape.content_eq e.spec e.style _ several'] at hcontent
      obtain ⟨parts, _, hparts, -⟩ := Render.returns_bind.mp hcontent
      have laid := (Render.returns_lift.mp hparts).1
      rw [everywhere_iff_parts several resolved laid]
      refine drawTag_tells paints (fun _ _ _ => Shape.transform_notMem_attrs several')
        (fun finite => Context.isNumeric_transform finite)
        (fun finite => Shape.attrs_tells several' finite (masks_tellsIn below)) (fun _ => ?_)
        returns
      rw [Shape.content_eq e.spec e.style _ several']
      refine .lift_bind fun parts' laid' => ?_
      obtain rfl : parts' = parts := Except.ok.inj (laid'.symm.trans laid)
      exact .map (drawChildren_tells (parts_tellsIn paints below laid)) (by simp)
    · intro spec _ r m r' returns
      rw [draw] at returns
      exact (Render.returns_drawTag.mp returns).1
    · rintro spec resolved ⟨tame, -, -, -⟩
      exact (tame spec resolved).1

/-- A tree whose styles only paint shows finite numbers exactly if every node of it is tame. -/
theorem tells (e : Element Extended) (paints : e.EveryStyle Style.PaintsOnly)
    (parent : Context Extended) :
    (e.drawIn parent).Tells Markup.ShowsNumbers (e.Everywhere TameIn parent) := by
  -- As children are drawn in other places, the hypothesis is about a child in every place.
  have node : Hereditary fun e : Element Extended =>
      e.EveryStyle Style.PaintsOnly → e.TellsMoved := by
    rintro e ih paints _ ⟨rect, align, rfl⟩
    obtain ⟨here, below⟩ := everyStyle_iff.mp paints
    exact tellsIn_node (e := e.moved rect align) here fun child hchild =>
      ih child hchild (below child hchild)
  exact (induction_on node e paints e (.refl e) parent).drawIn

end Element

end

end SvgLayout
