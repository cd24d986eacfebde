import SvgLayout.Proofs.Element.Leaves
import SvgLayout.Proofs.Markup.Opacity

/-!
# Opacities over the leaves of a tree

A node sets the opacity of its style on its own tag, which covers all that is drawn inside. A leaf
of a tree is therefore covered by the opacities of the nodes on the path from the root down to it,
in this order. One shape does more: an arrow hands its style on to its shaft and its head, so its
opacity is set on them as well, inside the tag of the arrow that sets it already.

## Main definitions

* `Shape.again` — the opacity that a node sets again on tags of its own.
* `Element.veiled`, `Element.hidden` — the leaves of a tree, and those of its masks, with the
  opacities over them; with `twice` an arrow's own counts again.

## Main statements

* `Element.veiled_eq_iff` — it makes a difference only to arrows that set an opacity.
* `Element.sketch_yields` — a tree is sketched with these opacities over its leaves.
-/

namespace SvgLayout

variable {α ε : Type} [NumberText α]

/-! ## Styles -/

namespace Style

/-- The opacity of a style, if it has one, as it is written. -/
def opacities (precision : Nat) (style : Style α) : List String :=
  (style.opacity.map (formatNumber · precision)).toList

omit [NumberText α] in
/-- The other attributes of a style set no opacity. -/
def IsTyped (style : Style α) : Prop :=
  ∀ pair ∈ style.extra, isOpacityKey pair.1 = false

omit [NumberText α] in
theorem filter_entry (key : String) (value : Option String) :
    (entry key value).filter (fun pair => isOpacityKey pair.1) =
      if isOpacityKey key then entry key value else [] := by
  cases value with
  | none => simp [entry]
  | some v => simp [entry, List.filter_singleton]

/-- A style whose other attributes set no opacity writes the one it has. -/
theorem opacities_attrs {style : Style α} (typed : style.IsTyped) (precision : Nat) :
    (style.attrs precision).opacities = style.opacities precision := by
  have extra : style.extra.filter (fun pair => isOpacityKey pair.1) = [] :=
    List.filter_eq_nil_iff.mpr fun pair hpair => by simp [typed pair hpair]
  have only : (style.entries precision).filter (fun pair => isOpacityKey pair.1) =
      entry "opacity" (style.opacity.map (formatNumber · precision)) := by
    simp only [entries, List.filter_append, filter_entry, extra]
    simp [isOpacityKey]
  rw [Attrs.opacities, attrs, Attrs.restrict_ofList, only, opacities]
  cases style.opacity <;> rfl

end Style

variable [Scalar α]

omit [Scalar α] in
/-- A tag has the opacity of its style if its geometry has none. -/
theorem opacities_skeleton_merge {geometry : Attrs} {style : Style α}
    (bare : geometry.opacities = []) (typed : style.IsTyped) (precision : Nat) :
    (geometry.merge (style.attrs precision)).skeleton.opacities = style.opacities precision := by
  have distinct : (style.attrs precision).keys.Nodup := Attrs.nodup_keys_ofList _
  rw [Attrs.opacities_skeleton, Attrs.opacities_merge bare distinct, Style.opacities_attrs typed]

/-! ## Trees -/

namespace Shape

omit [Scalar α] in
/-- The opacity that a node sets again on the tags of its own. -/
def again (twice : Bool) (precision : Nat) (style : Style α) : Shape α ε → List String
  | arrow _ => if twice then style.opacities precision else []
  | _ => []

/-- The leaves of its own of a node, below its own tag. -/
def ownVeiled (twice : Bool) (precision : Nat) (style : Style α) (shape : Shape α ε) :
    List Veiled :=
  (shape.ownLeaves style).map fun leaf =>
    ⟨shape.again twice precision style, leaf.sketch precision⟩

@[simp] theorem ownVeiled_map {β : Type} (f : ε → β) (twice : Bool) (precision : Nat)
    (style : Style α) (shape : Shape α ε) :
    (shape.map f).ownVeiled twice precision style = shape.ownVeiled twice precision style := by
  cases shape <;> rfl

end Shape

namespace Element

variable (twice : Bool) (precision : Nat)

/-- The leaves of a tree in order, each with the opacities of the nodes from the root down to it.
With `twice` the opacity of an arrow counts again for its shaft and its head. -/
def veiled : Element α → List Veiled :=
  fold fun _ style shape =>
    (shape.ownVeiled twice precision style ++ (shape.placed.map Prod.snd).flatten).map
      (·.under (style.opacities precision))

/-- The leaves of the masks of a tree in the order in which the masks are defined, each with the
opacities of the nodes from the root of its mask down to it. -/
def hidden : Element α → List Veiled :=
  fold fun _ _ shape =>
    shape.masks.flatMap (fun mask => mask.2 ++ mask.1.veiled twice precision) ++
      (shape.placed.map Prod.snd).flatten

theorem veiled_eq (e : Element α) :
    e.veiled twice precision =
      (e.shape.ownVeiled twice precision e.style ++
        e.shape.placed.flatMap (veiled twice precision)).map
          (·.under (e.style.opacities precision)) := by
  rw [veiled, fold_eq, Shape.placed_map, List.map_map, Shape.ownVeiled_map, List.flatMap_def]
  rfl

theorem hidden_eq (e : Element α) :
    e.hidden twice precision =
      e.shape.masks.flatMap
          (fun mask => mask.hidden twice precision ++ mask.veiled twice precision) ++
        e.shape.placed.flatMap (hidden twice precision) := by
  rw [hidden, fold_eq, Shape.placed_map, List.map_map, Shape.masks_map, List.flatMap_map,
    List.flatMap_def]
  rfl

end Element

/-! ## Arrows -/

omit [NumberText α] [Scalar α] in
/-- The node is an arrow that sets an opacity. -/
def Element.IsVeiledArrow (e : Element α) : Prop :=
  (∃ a, e.shape = .arrow a) ∧ e.style.opacity.isSome = true

omit [NumberText α] [Scalar α] in
/-- Lists that are put together from two of the same lengths are equal if both are. -/
theorem append_eq_iff {γ : Type} {a b c d : List γ} (h : a.length = c.length) :
    a ++ b = c ++ d ↔ a = c ∧ b = d := by
  constructor
  · exact fun same => List.append_inj same h
  · rintro ⟨rfl, rfl⟩
    rfl

omit [NumberText α] [Scalar α] in
theorem length_flatMap_congr {β γ δ : Type} {f : β → List γ} {g : β → List δ} {xs : List β}
    (h : ∀ x ∈ xs, (f x).length = (g x).length) :
    (xs.flatMap f).length = (xs.flatMap g).length := by
  rw [List.length_flatMap, List.length_flatMap, List.map_congr_left h]

omit [NumberText α] [Scalar α] in
/-- Lists that are put together from pieces of the same lengths are equal piece by piece. -/
theorem flatMap_eq_iff {β γ : Type} {f g : β → List γ} {xs : List β}
    (h : ∀ x ∈ xs, (f x).length = (g x).length) :
    xs.flatMap f = xs.flatMap g ↔ ∀ x ∈ xs, f x = g x := by
  induction xs with
  | nil => simp
  | cons x xs ih =>
    rw [List.forall_mem_cons] at h ⊢
    rw [List.flatMap_cons, List.flatMap_cons, append_eq_iff h.1, ih h.2]

/-- What a node sets again on its own tags shows exactly on arrows that set an opacity. -/
theorem Shape.ownVeiled_eq_iff (precision : Nat) (e : Element α) :
    e.shape.ownVeiled true precision e.style = e.shape.ownVeiled false precision e.style ↔
      ¬e.IsVeiledArrow := by
  obtain ⟨spec, style, shape⟩ := e
  cases shape with
  | arrow a =>
    cases opacity : style.opacity <;>
      simp [ownVeiled, ownLeaves, again, Style.opacities, Element.IsVeiledArrow, opacity]
  | _ => simp [ownVeiled, again, Element.IsVeiledArrow]

namespace Element

/-- A tree has one list of opacities for each of its leaves. -/
theorem length_veiled (twice : Bool) (precision : Nat) (e : Element α) :
    (e.veiled twice precision).length = e.leaves.length := by
  have node : Hereditary fun e : Element α =>
      (e.veiled twice precision).length = e.leaves.length := by
    intro e ih
    have below : (e.shape.placed.flatMap (veiled twice precision)).length =
        (e.shape.placed.flatMap leaves).length :=
      length_flatMap_congr fun c hc => ih c (Shape.mem_children_of_placed hc)
    rw [veiled_eq, leaves_eq, List.length_map, List.length_append, List.length_append, below,
      Shape.ownVeiled, List.length_map]
  exact induction_on node e

theorem length_hidden (precision : Nat) (e : Element α) :
    (e.hidden true precision).length = (e.hidden false precision).length := by
  have node : Hereditary fun e : Element α =>
      (e.hidden true precision).length = (e.hidden false precision).length := by
    intro e ih
    rw [hidden_eq, hidden_eq, List.length_append, List.length_append]
    congr 1
    · refine length_flatMap_congr fun m hm => ?_
      rw [List.length_append, List.length_append, length_veiled, length_veiled,
        ih m (Shape.mem_children_of_masks hm)]
    · exact length_flatMap_congr fun c hc => ih c (Shape.mem_children_of_placed hc)
  exact induction_on node e

/-- Whether an arrow's opacity counts again makes the same difference to the leaves of a tree as to
the leaves of its root, and of its children. -/
theorem veiled_eq_veiled_iff (precision : Nat) (e : Element α) :
    e.veiled true precision = e.veiled false precision ↔
      ¬e.IsVeiledArrow ∧
        ∀ child ∈ e.shape.placed, child.veiled true precision = child.veiled false precision := by
  have own : (e.shape.ownVeiled true precision e.style).length =
      (e.shape.ownVeiled false precision e.style).length := by
    rw [Shape.ownVeiled, Shape.ownVeiled, List.length_map, List.length_map]
  have lengths : ∀ child ∈ e.shape.placed, (child.veiled true precision).length =
      (child.veiled false precision).length := fun child _ => by
    rw [length_veiled, length_veiled]
  rw [veiled_eq, veiled_eq, (List.map_injective_iff.mpr (Veiled.under_injective _)).eq_iff,
    append_eq_iff own, Shape.ownVeiled_eq_iff, flatMap_eq_iff lengths]

/-- So it does to the leaves of masks. -/
theorem hidden_eq_hidden_iff (precision : Nat) (e : Element α) :
    e.hidden true precision = e.hidden false precision ↔
      (∀ mask ∈ e.shape.masks, mask.hidden true precision = mask.hidden false precision ∧
        mask.veiled true precision = mask.veiled false precision) ∧
        ∀ child ∈ e.shape.placed, child.hidden true precision = child.hidden false precision := by
  have masks : ∀ mask ∈ e.shape.masks,
      (mask.hidden true precision ++ mask.veiled true precision).length =
        (mask.hidden false precision ++ mask.veiled false precision).length := fun mask _ => by
    rw [List.length_append, List.length_append, length_hidden, length_veiled, length_veiled]
  have placed : ∀ child ∈ e.shape.placed, (child.hidden true precision).length =
      (child.hidden false precision).length := fun child _ => child.length_hidden precision
  rw [hidden_eq, hidden_eq, append_eq_iff (length_flatMap_congr masks), flatMap_eq_iff masks,
    flatMap_eq_iff placed]
  simp only [append_eq_iff (length_hidden precision _)]

/-- An arrow's opacity that counts again makes a difference to the leaves of a tree and of its masks
exactly if one of its nodes is an arrow that sets an opacity. -/
theorem veiled_eq_iff (precision : Nat) (e : Element α) :
    (e.veiled true precision = e.veiled false precision ∧
      e.hidden true precision = e.hidden false precision) ↔
        ∀ node ∈ e.nodes, ¬node.IsVeiledArrow := by
  have node : Hereditary fun e : Element α =>
      (e.veiled true precision = e.veiled false precision ∧
        e.hidden true precision = e.hidden false precision) ↔
          ∀ node ∈ e.nodes, ¬node.IsVeiledArrow := by
    intro e ih
    have below : (∀ child ∈ e.shape.children, ∀ node ∈ child.nodes, ¬node.IsVeiledArrow) ↔
        ∀ child ∈ e.shape.children,
          child.veiled true precision = child.veiled false precision ∧
            child.hidden true precision = child.hidden false precision :=
      forall₂_congr fun child hchild => (ih child hchild).symm
    rw [forall_nodes, below, veiled_eq_veiled_iff, hidden_eq_hidden_iff, Shape.children_eq,
      List.forall_mem_append]
    constructor
    · rintro ⟨⟨root, seen⟩, masks, hidden⟩
      exact ⟨root, fun m hm => (masks m hm).symm, fun c hc => ⟨seen c hc, hidden c hc⟩⟩
    · rintro ⟨root, masks, placed⟩
      exact ⟨⟨root, fun c hc => (placed c hc).1⟩, fun m hm => (masks m hm).symm,
        fun c hc => (placed c hc).2⟩
  exact induction_on node e

end Element

/-! ## Sketches -/

namespace Sketch

variable {β γ : Type} {P : β → Prop} {Q : γ → Prop}

/-- Whatever the registry, the computation adds definitions with given leaves to it, and its value
satisfies `P`. -/
def Yields (s : Sketch β) (hidden : List Veiled) (P : β → Prop) : Prop :=
  ∀ r, P (s.run r).1 ∧
    (s.run r).2.defs.flatMap Markup.veiled = r.defs.flatMap Markup.veiled ++ hidden

namespace Yields

variable {s : Sketch β} {hidden hidden' : List Veiled}

theorem pure {b : β} (h : P b) : Yields (Pure.pure b : Sketch β) [] P := by
  intro r
  exact ⟨h, (List.append_nil _).symm⟩

theorem bind {f : β → Sketch γ} (hs : Yields s hidden P)
    (hf : ∀ b, P b → Yields (f b) hidden' Q) : Yields (s >>= f) (hidden ++ hidden') Q := by
  intro r
  obtain ⟨hP, first⟩ := hs r
  obtain ⟨hQ, second⟩ := hf _ hP (s.run r).2
  refine ⟨hQ, ?_⟩
  rw [run_bind, second, first, List.append_assoc]

theorem map {f : β → γ} (hs : Yields s hidden P) (hf : ∀ b, P b → Q (f b)) :
    Yields (f <$> s) hidden Q := by
  intro r
  obtain ⟨hP, defs⟩ := hs r
  exact ⟨hf _ hP, defs⟩

/-- A last step that only makes a value. -/
theorem bind_pure {f : β → γ} (hs : Yields s hidden P) (hf : ∀ b, P b → Q (f b)) :
    Yields (s >>= fun b => Pure.pure (f b)) hidden Q :=
  hs.map hf

theorem newId (stem : String) : Yields (Sketch.newId stem) [] fun _ => True := by
  intro r
  exact ⟨trivial, (List.append_nil _).symm⟩

theorem addDefinition (definition : Markup) :
    Yields (Sketch.addDefinition definition) definition.veiled fun _ => True := by
  intro r
  refine ⟨trivial, ?_⟩
  simp [List.flatMap_append]

end Yields

end Sketch

open Sketch

/-- Without outlines children are sketched one after another. -/
theorem sketchChildren_yields {sketches : List (Sketch Markup)}
    {leaves : List (List Veiled × List Veiled)}
    (h : List.Forall₂ (fun s l => Yields s l.2 fun m => m.veiled = l.1) sketches leaves) :
    Yields (sketchChildren false sketches) (leaves.flatMap Prod.snd) fun ms =>
      ms.flatMap Markup.veiled = leaves.flatMap Prod.fst := by
  have pieces : Yields (sketches.mapM fun child => do
      let markup ← child
      pure (if false then [markup, debugSketch] else [markup])) (leaves.flatMap Prod.snd)
        fun drawn => drawn.flatten.flatMap Markup.veiled = leaves.flatMap Prod.fst := by
    induction h with
    | nil => exact .pure rfl
    | @cons child l children leaves first _ ih =>
      rw [List.mapM_cons, List.flatMap_cons]
      have head : Yields (do
          let markup ← child
          pure (if false then [markup, debugSketch] else [markup])) l.2
            fun ms => ms.flatMap Markup.veiled = l.1 :=
        first.bind_pure fun m hm => by simpa using hm
      refine head.bind fun ms hms => ih.bind_pure fun rest hrest => ?_
      rw [List.flatten_cons, List.flatMap_append, hms, hrest, List.flatMap_cons]
  refine pieces.bind_pure fun drawn hd => ?_
  exact (Markup.flatMap_lines Markup.veiled_newline drawn.flatten).trans hd

omit [Scalar α] in
/-- The attributes of a shape that do not depend on pixels set no opacity. -/
theorem Primitive.steady_isOpacityKey (style : Style α) (p : Primitive α) :
    ∀ pair ∈ p.steadyEntries style, isOpacityKey pair.1 = false := by
  cases p with
  | arrowHead direction head =>
    by_cases closed : (head.base && style.fill.isNone) = true <;>
      simp [steadyEntries, headFill, closed, isOpacityKey]
  | _ => simp [steadyEntries, isOpacityKey]

/-- A leaf is covered by the opacity of its own style. -/
theorem Trim.veiled_sketch {precision : Nat} {leaf : Trim α} (typed : leaf.1.IsTyped) :
    (leaf.sketch precision).veiled =
      [⟨leaf.1.opacities precision, leaf.sketch precision⟩] := by
  have drawn : leaf.2.tag ∉ "clipPath" :: Markup.holders := by
    cases leaf.2 with
    | rectangle rounded =>
      cases h : (roundedCorners rounded).isSome <;> simp [Primitive.tag, h, Markup.holders]
    | polyline points closed => cases closed <;> simp [Primitive.tag, Markup.holders]
    | _ => simp [Primitive.tag, Markup.holders]
  have bare : (Attrs.ofList (leaf.2.steadyEntries leaf.1)).opacities = [] :=
    Attrs.opacities_ofList (leaf.2.steady_isOpacityKey leaf.1)
  rw [Trim.sketch, Primitive.sketch, sketchTag, Markup.veiled_leaf drawn,
    opacities_skeleton_merge bare typed]

namespace Group

omit [Scalar α] [NumberText α] in
/-- A clip has no leaves, and the attribute that refers to it is no opacity. -/
theorem clipSketches_yields (group : Group (Sketch Markup)) :
    Yields group.clipSketches [] fun entries => ∀ pair ∈ entries, isOpacityKey pair.1 = false := by
  have clip : Yields clipSketch [] fun entry => isOpacityKey entry.1 = false := by
    refine (Yields.newId "clip").bind fun id _ => ?_
    have defined := Yields.addDefinition
      (.tag "clipPath" (.ofList [("id", id)]) [.empty "rect" .empty])
    rw [Markup.veiled_clip] at defined
    exact defined.bind_pure fun _ _ => rfl
  rw [clipSketches]
  by_cases clipped : group.clip = true
  · rw [if_pos clipped]
    exact clip.map fun entry hentry => by simpa using hentry
  · rw [if_neg clipped]
    exact .pure (by simp)

omit [Scalar α] [NumberText α] in
/-- A mask is defined with the leaves that it shows, after the masks below it. -/
theorem maskSketches_yields {group : Group ε} {sketch : ε → Sketch Markup}
    {seen hidden : ε → List Veiled}
    (below : ∀ mask ∈ group.mask.toList, Yields (sketch mask) (hidden mask)
      (·.veiled = seen mask)) :
    Yields (group.map sketch).maskSketches
      (group.mask.toList.flatMap fun mask => hidden mask ++ seen mask)
      fun entries => ∀ pair ∈ entries, isOpacityKey pair.1 = false := by
  rw [maskSketches, map]
  cases masked : group.mask with
  | none => exact .pure (by simp)
  | some m =>
    have mask : Yields (maskSketch (sketch m)) (hidden m ++ seen m)
        fun entry => isOpacityKey entry.1 = false := by
      refine (Yields.newId "mask").bind fun id _ => ?_
      refine (below m (by simp [masked])).bind fun body hbody => ?_
      have defined := Yields.addDefinition (.tag "mask" (.ofList [("id", id)]) [body])
      have bare : (Attrs.ofList [("id", id)]).opacities = [] :=
        Attrs.opacities_ofList (by simp [isOpacityKey])
      rw [Markup.veiled_holder (by decide), bare, Veiled.map_under_nil, List.flatMap_singleton,
        hbody] at defined
      exact defined.bind_pure fun _ _ => rfl
    rw [Option.toList_some, List.flatMap_singleton]
    exact mask.map fun entry hentry => by simpa using hentry

end Group

namespace Shape

variable {precision : Nat} {style : Style α} {shape : Shape α ε} {sketch : ε → Sketch Markup}
  {seen hidden : ε → List Veiled}

omit [Scalar α] in
/-- The attributes of a node set no opacity, and its mask is defined with what it shows. -/
theorem sketchAttrs_yields
    (below : ∀ child ∈ shape.masks, Yields (sketch child) (hidden child) (·.veiled = seen child)) :
    Yields ((shape.map sketch).sketchAttrs style)
      (shape.masks.flatMap fun mask => hidden mask ++ seen mask) (·.opacities = []) := by
  cases shape with
  | primitive p => exact .pure (Attrs.opacities_ofList (p.steady_isOpacityKey style))
  | group g =>
    refine (Group.clipSketches_yields _).bind fun clip hclip => ?_
    refine (Group.maskSketches_yields below).bind_pure fun mask hmask => ?_
    exact Attrs.opacities_ofList (List.forall_mem_append.mpr ⟨hclip, hmask⟩)
  | _ => exact .pure rfl

/-- The tags of a container's own are painted with what it sets again, and with nothing else that
sets an opacity. -/
theorem opacities_ownLeaves (precision : Nat) (container : shape.isPrimitive = false)
    (typed : style.IsTyped) :
    ∀ leaf ∈ shape.ownLeaves style, leaf.1.IsTyped ∧
      leaf.1.opacities precision = shape.again true precision style := by
  cases shape with
  | primitive p => cases container
  | arrow a => simp [ownLeaves, again, typed]
  | frame f =>
    have back : f.backStyle.IsTyped ∧ f.backStyle.opacities precision = [] := by
      cases border : f.border <;>
        simp [Frame.backStyle, Style.IsTyped, Style.opacities, Border.style, border]
    intro leaf hleaf
    rw [ownLeaves, Frame.trim] at hleaf
    by_cases unseen : (f.border.isNone && f.fill.isNone) = true
    · simp [unseen] at hleaf
    · rw [if_neg unseen, List.mem_singleton] at hleaf
      rw [hleaf]
      exact back
  | _ => simp [ownLeaves]

/-- The pieces that a container draws are its own leaves, and its children. -/
theorem forall₂_yields (precision : Nat) (container : shape.isPrimitive = false)
    (typed : style.IsTyped)
    (below : ∀ child ∈ shape.placed, Yields (sketch child) (hidden child)
      (·.veiled = seen child)) :
    List.Forall₂ (fun s l => Yields s l.2 fun m => m.veiled = l.1)
      (((shape.map sketch).trimSketches precision style).map pure ++ (shape.map sketch).placed)
      ((shape.ownVeiled true precision style).map (fun v => ([v], [])) ++
        shape.placed.map fun child => (seen child, hidden child)) := by
  have own : (shape.map sketch).trimSketches precision style =
      (shape.ownLeaves style).map (Trim.sketch precision) := by
    rw [trimSketches_eq_ownLeaves (by simpa using container), ownLeaves_map]
  rw [own, placed_map, ownVeiled, List.map_map, List.map_map]
  refine List.rel_append ?_ ?_
  · rw [List.forall₂_map_left_iff, List.forall₂_map_right_iff, List.forall₂_same]
    intro leaf hleaf
    obtain ⟨leafTyped, again⟩ := opacities_ownLeaves precision container typed leaf hleaf
    refine .pure ?_
    rw [leaf.veiled_sketch leafTyped, again]
    rfl
  · rw [List.forall₂_map_left_iff, List.forall₂_map_right_iff, List.forall₂_same]
    exact below

/-- Inside its own tag a container shows its own leaves and those of its children. -/
theorem content_yields (plain : shape.debug = false) (container : shape.isPrimitive = false)
    (typed : style.IsTyped)
    (below : ∀ child ∈ shape.placed, Yields (sketch child) (hidden child)
      (·.veiled = seen child)) :
    Yields ((shape.map sketch).sketchContent precision style) (shape.placed.flatMap hidden)
      fun content => ∃ pieces, content = some pieces ∧ pieces.flatMap Markup.veiled =
        shape.ownVeiled true precision style ++ shape.placed.flatMap seen := by
  have parts := sketchChildren_yields (forall₂_yields precision container typed below)
  have defined : ((shape.ownVeiled true precision style).map (fun v => ([v], ([] : List Veiled))) ++
      shape.placed.map fun child => (seen child, hidden child)).flatMap Prod.snd =
        shape.placed.flatMap hidden := by
    simp [List.flatMap_map]
  have shown : ((shape.ownVeiled true precision style).map (fun v => ([v], ([] : List Veiled))) ++
      shape.placed.map fun child => (seen child, hidden child)).flatMap Prod.fst =
        shape.ownVeiled true precision style ++ shape.placed.flatMap seen := by
    simp [List.flatMap_map]
  rw [defined, shown] at parts
  rw [sketchContent_eq precision style (by simpa using container), debug_map, plain]
  exact parts.map fun pieces hpieces => ⟨pieces, rfl, hpieces⟩

/-- The sketch of a node covers its leaves and those of its children with the opacity of the node,
and defines the masks of the node and of its children. -/
theorem sketch_yields (plain : shape.debug = false) (typed : style.IsTyped)
    (below : ∀ child ∈ shape.children, Yields (sketch child) (hidden child)
      (·.veiled = seen child)) :
    Yields ((shape.map sketch).sketch precision style)
      (shape.masks.flatMap (fun mask => hidden mask ++ seen mask) ++ shape.placed.flatMap hidden)
      fun m => m.veiled = (shape.ownVeiled true precision style ++ shape.placed.flatMap seen).map
        (·.under (style.opacities precision)) := by
  cases primitive : shape.isPrimitive with
  | true =>
    cases shape with
    | primitive p =>
      have leaf : (Trim.sketch precision (style, p)).veiled = _ := Trim.veiled_sketch typed
      have one : (Trim.sketch precision (style, p)).veiled =
          ([Veiled.mk [] (Trim.sketch precision (style, p))] ++ []).map
            (Veiled.under (style.opacities precision)) := by
        simp [leaf, Veiled.under]
      exact .pure one
    | _ => cases primitive
  | false =>
    have group : (shape.map sketch).tag = "g" := by
      cases shape with
      | primitive p => cases primitive
      | _ => rfl
    have attrs : Yields ((shape.map sketch).sketchAttrs style)
        (shape.masks.flatMap fun mask => hidden mask ++ seen mask) (·.opacities = []) :=
      sketchAttrs_yields fun mask hmask => below mask (mem_children_of_masks hmask)
    refine attrs.bind fun geometry bare => ?_
    refine (content_yields plain primitive typed fun child hchild =>
      below child (mem_children_of_placed hchild)).bind_pure ?_
    rintro _ ⟨pieces, rfl, hpieces⟩
    rw [sketchTag, group, Markup.element, Markup.veiled_holder (by decide),
      opacities_skeleton_merge bare typed, hpieces]

end Shape

/-- A tree is sketched with the opacities of its nodes over its leaves, those of arrows twice. -/
theorem Element.sketch_yields (precision : Nat) (e : Element α)
    (plain : ∀ node ∈ e.nodes, node.shape.debug = false) (typed : e.EveryStyle Style.IsTyped) :
    Yields (e.sketch precision) (e.hidden true precision)
      (·.veiled = e.veiled true precision) := by
  have node : Hereditary fun e : Element α => (∀ node ∈ e.nodes, node.shape.debug = false) →
      e.EveryStyle Style.IsTyped →
      Yields (e.sketch precision) (e.hidden true precision)
        (·.veiled = e.veiled true precision) := by
    intro e ih plain typed
    obtain ⟨root, plainBelow⟩ := forall_nodes.mp plain
    obtain ⟨own, typedBelow⟩ := everyStyle_iff.mp typed
    rw [sketch_eq, hidden_eq, veiled_eq]
    exact Shape.sketch_yields root own fun child hchild =>
      ih child hchild (plainBelow child hchild) (typedBelow child hchild)
  exact induction_on node e plain typed

end SvgLayout
