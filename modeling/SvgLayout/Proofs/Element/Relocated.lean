import SvgLayout.Element.Build
import SvgLayout.Proofs.Element.Links
import SvgLayout.Proofs.Render.Parallel
import SvgLayout.Scalar.Double

/-!
# What a drawing learns from its registry

A tree is drawn in the same way whatever the registry holds. Two drawings of one tree answer with
the same markup, or fail with the same error, and make the same definitions, except that the numbers
in the identifiers are counted from the number that each registry starts with. A tree without
clipped and without masked groups learns not even that: its drawing answers the same and leaves the
registry as it is.

## Main definitions

* `Render.Steady` — a computation that does not use the registry.

## Main statements

* `Element.draw_parallel` — two drawings of one tree.
* `Element.draw_steady` — a drawing without identifiers.
* `draw_learns_numbers_only` — both as a whole.
-/

namespace SvgLayout

open Render

variable {α ε : Type} [Scalar α] [NumberText α] {n n' : Nat}

/-! ## Two drawings of one tree -/

variable (n n') in
/-- The node is drawn in the same way from two registries, in every context. -/
def DrawsParallel (draw : Context α → Render α Markup) : Prop :=
  ∀ ctx, Parallel n n' (Markup.Relocated n n') (draw ctx) (draw ctx)

theorem Primitive.drawsParallel (style : Style α) (p : Primitive α) :
    DrawsParallel n n' (p.draw style) := by
  intro ctx
  refine drawTag_parallel (.pure (.same n n' _)) (.pure ?_)
  cases p with
  | text content width => exact .some (.cons (.text content) .nil)
  | _ => exact .none

namespace Group

/-- An attribute that refers to an identifier, and a definition of it. -/
theorem clipEntry_parallel (ctx : Context α) :
    Parallel n n' (Entry.Relocated n n') (clipEntry ctx) (clipEntry ctx) := by
  refine (Parallel.newId "clip").bind ?_
  rintro _ _ ⟨k, rfl, rfl⟩
  refine (Parallel.addDefinition ?_).bind fun _ _ _ => .pure (.link (by decide) "clip" k)
  exact .tag "clipPath" (.ofList (.cons (.id "clip" k) .nil))
    (.cons (.empty "rect" (.same n n' _)) .nil)

omit [NumberText α] in
theorem maskEntry_parallel {mask : Drawable α} (h : DrawsParallel n n' mask.draw)
    (ctx : Context α) :
    Parallel n n' (Entry.Relocated n n') (maskEntry mask ctx) (maskEntry mask ctx) := by
  refine (Parallel.newId "mask").bind ?_
  rintro _ _ ⟨k, rfl, rfl⟩
  refine Parallel.bind (.lift_bind fun maskCtx _ => h maskCtx) fun body body' inside => ?_
  refine (Parallel.addDefinition ?_).bind fun _ _ _ => .pure (.link (by decide) "mask" k)
  exact .tag "mask" (.ofList (.cons (.id "mask" k) .nil)) (.cons inside .nil)

theorem attrs_parallel {group : Group (Drawable α)}
    (h : ∀ mask ∈ group.mask, DrawsParallel n n' mask.draw) (ctx : Context α) :
    Parallel n n' (Attrs.Relocated n n') (group.attrs ctx) (group.attrs ctx) := by
  have clip : Parallel n n' (List.Forall₂ (Entry.Relocated n n')) (group.clipEntries ctx)
      (group.clipEntries ctx) := by
    rw [clipEntries]
    split
    next => exact (clipEntry_parallel ctx).map fun _ _ entry => .cons entry .nil
    next => exact .pure .nil
  have mask : Parallel n n' (List.Forall₂ (Entry.Relocated n n')) (group.maskEntries ctx)
      (group.maskEntries ctx) := by
    rw [maskEntries]
    cases hm : group.mask with
    | none => exact .pure .nil
    | some mask => exact (maskEntry_parallel (h mask hm) ctx).map fun _ _ entry => .cons entry .nil
  rw [attrs_eq]
  exact clip.bind fun _ _ clips => mask.bind fun _ _ masks =>
    .pure (.ofList (List.rel_append clips masks))

end Group

theorem Shape.drawsParallel {spec : Spec α} {style : Style α} {shape : Shape α (Drawable α)}
    (h : ∀ child ∈ shape.children, DrawsParallel n n' child.draw) :
    DrawsParallel n n' (shape.draw spec style) := by
  intro ctx
  rw [Shape.children_eq] at h
  cases primitive : shape.isPrimitive with
  | true =>
    cases shape with
    | primitive p => exact p.drawsParallel style ctx
    | _ => simp [isPrimitive] at primitive
  | false =>
    refine drawTag_parallel ?_ ?_
    · cases shape with
      | group g =>
        refine Group.attrs_parallel ?_ ctx
        intro mask hm
        exact h mask (List.mem_append_left _ (Option.mem_toList.mpr hm))
      | primitive p => simp [isPrimitive] at primitive
      | _ => exact .pure (.same n n' _)
    · rw [content_eq spec style ctx primitive]
      refine .lift_bind fun parts hparts => .map (drawChildren_parallel ?_) fun _ _ all => .some all
      exact forall_parts (P := DrawsParallel n n') hparts
        (fun trim _ => trim.2.drawsParallel trim.1)
        fun child hc => h child (List.mem_append_right _ hc)

/-- A tree is drawn in the same way from two registries. -/
theorem Element.draw_parallel (e : Element α) : DrawsParallel n n' e.draw := by
  have node : Hereditary fun e : Element α => DrawsParallel n n' e.draw := by
    intro e ih
    rw [draw_eq]
    refine Shape.drawsParallel ?_
    intro child hchild
    rw [drawableShape, Shape.children_map] at hchild
    obtain ⟨c, hmem, rfl⟩ := List.mem_map.mp hchild
    exact ih c hmem
  exact induction_on node e

/-! ## Drawings without identifiers -/

namespace Render

variable {β γ δ κ : Type}

/-- The computation gives one answer whatever the registry, and leaves it as it is. -/
def Steady (m : Render κ β) : Prop :=
  ∃ answer, ∀ r, m.outcome r = (answer, r)

namespace Steady

theorem pure (b : β) : Steady (Pure.pure b : Render κ β) :=
  ⟨_, outcome_pure b⟩

theorem throw (e : LayoutError κ) : Steady (MonadExcept.throw e : Render κ β) :=
  ⟨_, outcome_throw e⟩

theorem bind {m : Render κ β} {f : β → Render κ γ} (hm : Steady m) (hf : ∀ b, Steady (f b)) :
    Steady (m >>= f) := by
  obtain ⟨answer, outcome⟩ := hm
  cases answer with
  | error e => exact ⟨.error e, fun r => by rw [outcome_bind, outcome]⟩
  | ok b =>
    obtain ⟨result, next⟩ := hf b
    exact ⟨result, fun r => by rw [outcome_bind, outcome]; exact next r⟩

theorem map {m : Render κ β} (hm : Steady m) (f : β → γ) : Steady (f <$> m) := by
  rw [map_eq_pure_bind]
  exact hm.bind fun b => .pure (f b)

theorem lift_bind {x : Except (LayoutError κ) δ} {f : δ → Render κ β}
    (hf : ∀ a, x = .ok a → Steady (f a)) : Steady ((liftM x : Render κ δ) >>= f) := by
  cases x with
  | error e => exact throw e
  | ok a => exact hf a rfl

theorem mapM {f : δ → Render κ β} {xs : List δ} (h : ∀ x ∈ xs, Steady (f x)) :
    Steady (xs.mapM f) := by
  induction xs with
  | nil => exact .pure []
  | cons x xs ih =>
    rw [List.forall_mem_cons] at h
    rw [List.mapM_cons]
    exact h.1.bind fun y => (ih h.2).bind fun ys => .pure (y :: ys)

end Steady

end Render

theorem drawTag_steady {kind tag : String} {style : Style α} {ctx : Context α}
    {geometry : Render α Attrs} {content : Render α (Option (List Markup))} (hg : geometry.Steady)
    (hc : content.Steady) : (drawTag kind tag style ctx geometry content).Steady := by
  have attrs : (nodeAttrs kind style ctx geometry).Steady := by
    rw [nodeAttrs]
    split
    next => exact (Steady.throw _).bind fun _ => hg.bind fun _ => by split <;> exact .pure _
    next => exact hg.bind fun _ => by split <;> exact .pure _
  exact attrs.bind fun attrs => hc.bind fun content => .pure _

theorem drawChildren_steady {debug : Bool} {ctx : Context α} {children : List (Drawable α)}
    (h : ∀ child ∈ children, ∀ ctx, (child.draw ctx).Steady) :
    (drawChildren debug ctx children).Steady := by
  refine (Steady.mapM fun child hchild => ?_).bind fun drawn => .pure _
  exact .lift_bind fun childCtx _ => (h child hchild childCtx).bind fun markup => .pure _

/-- A node without clipping and mask uses the registry only as its children do. -/
theorem Shape.draw_steady {spec : Spec α} {style : Style α} {shape : Shape α (Drawable α)}
    (own : shape.links = 0) (h : ∀ child ∈ shape.children, ∀ ctx, (child.draw ctx).Steady)
    (ctx : Context α) : (shape.draw spec style ctx).Steady := by
  rw [Shape.children_eq] at h
  refine drawTag_steady ?_ ?_
  · cases shape with
    | group g =>
      have plain : g.clip = false ∧ g.mask = none := by simpa [links] using own
      simp only [Shape.attrs, Group.attrs, plain]
      exact .pure _
    | _ => exact .pure _
  · cases primitive : shape.isPrimitive with
    | true =>
      cases shape with
      | primitive p => exact .pure _
      | _ => simp [isPrimitive] at primitive
    | false =>
      rw [content_eq spec style ctx primitive]
      refine .lift_bind fun parts hparts => .map (drawChildren_steady ?_) _
      exact forall_parts (P := fun draw => ∀ ctx, (draw ctx).Steady) hparts
        (fun _ _ _ => drawTag_steady (.pure _) (.pure _))
        fun child hc => h child (List.mem_append_right _ hc)

/-- A tree without clipped and without masked groups does not use the registry. -/
theorem Element.draw_steady {e : Element α} (bare : e.linkCount = 0) (ctx : Context α) :
    (e.draw ctx).Steady := by
  have node : Hereditary fun e : Element α => e.linkCount = 0 → ∀ ctx, (e.draw ctx).Steady := by
    intro e ih bare
    rw [linkCount_eq, Nat.add_eq_zero_iff, List.sum_eq_zero_iff_forall_eq_nat] at bare
    obtain ⟨own, below⟩ := bare
    rw [draw_eq]
    refine Shape.draw_steady ?_ ?_
    · rw [drawableShape, Shape.links_map]
      exact own
    · intro child hchild
      rw [drawableShape, Shape.children_map] at hchild
      obtain ⟨c, hmem, rfl⟩ := List.mem_map.mp hchild
      exact ih c hmem (below _ (List.mem_map_of_mem hmem))
  exact induction_on node e bare ctx

/-! ## What is learned from a registry -/

/-- Two drawings of one tree issue the same identifiers, each counted from the number that its own
registry was at. -/
theorem Element.draw_grows_alike (e : Element α) (ctx : Context α) {r r' : Registry} {count : ℕ}
    (next : ((e.draw ctx).outcome r).2.nextId = r.nextId + count)
    (next' : ((e.draw ctx).outcome r').2.nextId = r'.nextId + count) :
    ∃ stems, stems <+: e.stems ∧ stems.length = count ∧
      r.Grown (issued r.nextId stems) ((e.draw ctx).outcome r).2 ∧
      r'.Grown (issued r'.nextId stems) ((e.draw ctx).outcome r').2 := by
  obtain ⟨stems, first, grown, -⟩ := e.draw_grows ctx r
  obtain ⟨stems', first', grown', -⟩ := e.draw_grows ctx r'
  have length : stems.length = count := Nat.add_left_cancel (grown.nextId_eq.symm.trans next)
  have length' : stems'.length = count := Nat.add_left_cancel (grown'.nextId_eq.symm.trans next')
  have same_length : stems.length = stems'.length := length.trans length'.symm
  have same : stems = stems' :=
    (List.prefix_of_prefix_length_le first first' (Nat.le_of_eq same_length)).eq_of_length
      same_length
  exact ⟨stems, first, length, grown, same ▸ grown'⟩

/-- Two drawings of one tree in one context, from any two registries, both succeed or fail with the
same error. Either way both registries issue as many identifiers, and keep what they held before
their own new definitions. The markup and the new definitions are the same in both, except that a
number `r.nextId + k` of an identifier in the one is `r'.nextId + k` in the other: both registries
issue the first identifiers of the tree, counted from the number that they were at, and define only
these. If the tree has no clipped and no masked group, the drawing has one answer for all
registries, and changes none. -/
theorem draw_learns_numbers_only (e : Element α) (ctx : Context α) :
    (∀ r r' : Registry,
      let Same := Markup.Relocated r.nextId r'.nextId
      let (answer, s) := (e.draw ctx).outcome r
      let (answer', s') := (e.draw ctx).outcome r'
      Except.Rel Same answer answer' ∧
        ∃ count defs defs', s = ⟨r.nextId + count, r.defs ++ defs⟩ ∧
          s' = ⟨r'.nextId + count, r'.defs ++ defs'⟩ ∧ List.Forall₂ Same defs defs' ∧
          ∃ stems, stems <+: e.stems ∧ stems.length = count ∧
            r.Grown (issued r.nextId stems) s ∧ r'.Grown (issued r'.nextId stems) s') ∧
    (e.linkCount = 0 → ∃ answer, ∀ r, (e.draw ctx).outcome r = (answer, r)) := by
  constructor
  · intro r r'
    obtain ⟨answers, count, defs, defs', left, left', same⟩ :=
      e.draw_parallel ctx (Nat.add_zero r.nextId).symm (Nat.add_zero r'.nextId).symm
    refine ⟨answers, count, defs, defs', left, left', same, ?_⟩
    exact e.draw_grows_alike ctx (congrArg Registry.nextId left) (congrArg Registry.nextId left')
  · intro bare
    exact e.draw_steady bare ctx

/-- An outlined ellipse in a group has no identifiers. -/
theorem draw_learns_numbers_only_outlined :
    let outlined : Element Float := .ofShape (.group ⟨[.ellipse], false, none, true⟩)
    let ctx : Context Float := .new .unit .unit
    outlined.linkCount = 0 ∧ ∃ answer, ∀ r, (outlined.draw ctx).outcome r = (answer, r) :=
  ⟨rfl, (draw_learns_numbers_only _ _).2 rfl⟩

end SvgLayout
