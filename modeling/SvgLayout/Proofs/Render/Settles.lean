import SvgLayout.Proofs.Element.Faults
import SvgLayout.Proofs.Element.Parts

/-!
# How drawing ends

A drawing computation ends with a value or with an error. What is known of either, whatever the
registry, is put together from what is known of the steps.

## Main definitions

* `Render.Settles` — what holds of every value and of every error of a computation.

## Main statements

* `Render.Settles.bind`, `Render.Settles.mapM` — composed computations.
* `Shape.draw_settles` — a node ends with a failure of its own, of its parts or of its mask, or else
  all of them are drawn.
-/

namespace SvgLayout

variable {α β γ δ : Type}

/-- Every value of the computation satisfies `P`, and every error satisfies `E`. -/
def Render.Settles (m : Render α β) (P : β → Prop) (E : LayoutError α → Prop) : Prop :=
  ∀ r, match (m.outcome r).1 with
    | .ok b => P b
    | .error err => E err

namespace Render.Settles

variable {P : β → Prop} {Q : γ → Prop} {E : LayoutError α → Prop}

theorem pure {b : β} (h : P b) : Settles (Pure.pure b : Render α β) P E := fun _ => h

theorem throw {err : LayoutError α} (h : E err) :
    Settles (MonadExcept.throw err : Render α β) P E := fun _ => h

theorem newId (stem : String) : Settles (newId stem : Render α String) (fun _ => True) E :=
  fun _ => trivial

theorem addDefinition (definition : Markup) :
    Settles (addDefinition definition : Render α Unit) (fun _ => True) E :=
  fun _ => trivial

theorem mono {m : Render α β} {P' : β → Prop} {E' : LayoutError α → Prop} (hm : Settles m P E)
    (value : ∀ b, P b → P' b) (error : ∀ err, E err → E' err) : Settles m P' E' := by
  intro r
  have settled := hm r
  cases h : (m.outcome r).1 with
  | ok b =>
    rw [h] at settled
    exact value b settled
  | error err =>
    rw [h] at settled
    exact error err settled

theorem bind {m : Render α β} {f : β → Render α γ} (hm : Settles m P E)
    (hf : ∀ b, P b → Settles (f b) Q E) : Settles (m >>= f) Q E := by
  intro r
  have settled := hm r
  rw [outcome_bind]
  rcases h : m.outcome r with ⟨err | b, s⟩
  · rw [h] at settled
    exact settled
  · rw [h] at settled
    exact hf b settled s

theorem map {m : Render α β} {f : β → γ} (hm : Settles m P E) (hf : ∀ b, P b → Q (f b)) :
    Settles (f <$> m) Q E := by
  rw [map_eq_pure_bind]
  exact hm.bind fun b hb => .pure (hf b hb)

theorem failsOnly {m : Render α β} (hm : Settles m P E) (r : Registry) :
    (m.outcome r).1.FailsOnly E := by
  intro err h
  have settled := hm r
  rw [h] at settled
  exact settled

/-- If errors do not matter, a computation settles as it succeeds. -/
theorem iff_returns {m : Render α β} :
    Settles m P (fun _ => True) ↔ ∀ r b r', m.Returns r b r' → P b := by
  constructor
  · intro hm r b r' returns
    have settled := hm r
    rw [returns] at settled
    exact settled
  · intro h r
    rcases outcome : m.outcome r with ⟨err | b, r'⟩
    · trivial
    · exact h r b r' outcome

/-- What is only measured ends as it was measured. -/
theorem lift_bind_iff {x : Except (LayoutError α) β} {f : β → Render α γ} :
    Settles (liftM x >>= f) Q E ↔ x.FailsOnly E ∧ ∀ b, x = .ok b → Settles (f b) Q E := by
  cases x with
  | error err =>
    constructor
    · intro h
      exact ⟨.throw (h .empty), fun b hb => by cases hb⟩
    · rintro ⟨h, -⟩ r
      exact h err rfl
  | ok b =>
    constructor
    · intro h
      refine ⟨.pure b, ?_⟩
      rintro _ ⟨⟩
      exact h
    · rintro ⟨-, h⟩
      exact h b rfl

/-- A list of computations ends as one of them fails, or else all of them have values. -/
theorem mapM {S : δ → Prop} {f : δ → Render α β} {xs : List δ}
    (h : ∀ x ∈ xs, Settles (f x) (fun _ => S x) E) :
    Settles (xs.mapM f) (fun _ => ∀ x ∈ xs, S x) E := by
  induction xs with
  | nil => exact .pure (by simp)
  | cons x xs ih =>
    obtain ⟨hx, hxs⟩ := List.forall_mem_cons.mp h
    rw [List.mapM_cons]
    refine hx.bind fun y first => (ih hxs).bind fun ys rest => .pure ?_
    exact List.forall_mem_cons.mpr ⟨first, rest⟩

end Render.Settles

open Render

variable [Scalar α] [NumberText α] {E : LayoutError α → Prop}

/-! ## Nodes -/

/-- A node ends as its geometry or its content fails, or because its pixels are not finite. -/
theorem drawTag_settles {kind tag : String} {style : Style α} {ctx : Context α}
    {geometry : Render α Attrs} {content : Render α (Option (List Markup))} {G C : Prop}
    (finite : ctx.pixels.isFinite = false → E (.nonFinite kind))
    (hg : geometry.Settles (fun _ => G) E) (hc : content.Settles (fun _ => C) E) :
    (drawTag kind tag style ctx geometry content).Settles (fun _ => G ∧ C) E := by
  have attrs : (nodeAttrs kind style ctx geometry).Settles (fun _ => G) E := by
    rw [nodeAttrs]
    split
    next infinite =>
      have refused : E (.nonFinite kind) := finite (by simpa using infinite)
      exact .bind (P := fun _ => False) (.throw refused) fun _ h => h.elim
    next =>
      refine hg.bind fun attrs g => ?_
      cases ctx.transform? with
      | none => exact .pure g
      | some t => exact .pure g
  exact attrs.bind fun _ g => hc.bind fun _ c => .pure ⟨g, c⟩

variable {S : Drawable α → Prop}

/-- Children end as one of them fails, or else all of them are drawn. -/
theorem drawChildren_settles {debug : Bool} {ctx : Context α} {children : List (Drawable α)}
    (h : ∀ child ∈ children, (child.drawIn ctx).Settles (fun _ => S child) E) :
    (drawChildren debug ctx children).Settles (fun _ => ∀ child ∈ children, S child) E := by
  refine .bind (.mapM ?_) fun _ all => .pure all
  intro child hchild
  obtain ⟨measured, drawn⟩ := Settles.lift_bind_iff.mp (h child hchild)
  refine Settles.lift_bind_iff.mpr ⟨measured, fun childCtx hctx => ?_⟩
  exact (drawn childCtx hctx).bind fun _ s => .pure s

/-- The attributes of a group fail only as its mask does. -/
theorem Group.attrs_settles {group : Group (Drawable α)} {ctx : Context α}
    (h : ∀ mask ∈ group.mask.toList, (mask.drawIn ctx).Settles (fun _ => S mask) E) :
    (group.attrs ctx).Settles (fun _ => ∀ mask ∈ group.mask.toList, S mask) E := by
  rw [Group.attrs_eq]
  have clip : (group.clipEntries ctx).Settles (fun _ => True) E := by
    rw [Group.clipEntries]
    split
    next =>
      refine .map ?_ fun _ h => h
      exact .bind (.newId _) fun _ _ => .bind (.addDefinition _) fun _ _ => .pure trivial
    next => exact .pure trivial
  have mask : (group.maskEntries ctx).Settles (fun _ => ∀ mask ∈ group.mask.toList, S mask) E := by
    rw [Group.maskEntries]
    cases hm : group.mask with
    | none => exact .pure (by simp)
    | some mask =>
      refine .map (P := fun _ => S mask) ?_ fun _ s => by simpa using s
      exact .bind (.newId _) fun _ _ => (h mask (by simp [hm])).bind fun _ s =>
        .bind (.addDefinition _) fun _ _ => .pure s
  exact clip.bind fun _ _ => mask.bind fun _ s => .pure s

/-- The attributes of a shape fail only as its mask does. -/
theorem Shape.attrs_settles {style : Style α} {ctx : Context α} {shape : Shape α (Drawable α)}
    (h : ∀ mask ∈ shape.masks, (mask.drawIn ctx).Settles (fun _ => S mask) E) :
    (shape.attrs style ctx).Settles (fun _ => ∀ mask ∈ shape.masks, S mask) E := by
  cases shape with
  | group g => exact Group.attrs_settles h
  | _ => exact .pure (by simp [masks])

/-- A node ends as its parts are not laid out, as one of them or its mask fails, or because its own
pixels are not finite. Otherwise its parts are laid out, and all of them and its mask are drawn. -/
theorem Shape.draw_settles {spec : Spec α} {style : Style α} {ctx : Context α}
    {shape : Shape α (Drawable α)}
    (finite : ctx.pixels.isFinite = false → E (.nonFinite shape.kind))
    (laid : (shape.parts spec style ctx).FailsOnly E)
    (hparts : ∀ parts, shape.parts spec style ctx = .ok parts →
      ∀ part ∈ parts, (part.drawIn ctx).Settles (fun _ => S part) E)
    (hmasks : ∀ mask ∈ shape.masks, (mask.drawIn ctx).Settles (fun _ => S mask) E) :
    (shape.draw spec style ctx).Settles
      (fun _ => (∀ mask ∈ shape.masks, S mask) ∧
        ∃ parts, shape.parts spec style ctx = .ok parts ∧ ∀ part ∈ parts, S part) E := by
  apply drawTag_settles finite (attrs_settles hmasks)
  cases primitive : shape.isPrimitive with
  | true =>
    cases shape with
    | primitive p => exact .pure ⟨[], rfl, by simp⟩
    | _ => simp [Shape.isPrimitive] at primitive
  | false =>
    rw [Shape.content_eq spec style ctx primitive]
    refine Settles.lift_bind_iff.mpr ⟨laid, fun parts hlaid => ?_⟩
    exact .map (drawChildren_settles (hparts parts hlaid)) fun _ all => ⟨parts, hlaid, all⟩

end SvgLayout
