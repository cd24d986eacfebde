import SvgLayout.Proofs.Render.Settles

/-!
# When drawing succeeds

A drawing computation succeeds, whatever the registry, if there is no error that it may fail with. A
node is drawn if its pixels are finite, its parts are laid out, and its parts and its mask are
drawn.

## Main definitions

* `Render.Succeeds` — the computation succeeds from every registry.

## Main statements

* `Render.succeeds_iff` — it ends, but not with an error.
* `Shape.draw_succeeds` — a node.
-/

namespace SvgLayout

variable {α β γ : Type}

/-- From every registry the computation succeeds. -/
def Render.Succeeds (m : Render α β) : Prop :=
  ∀ r, ∃ b r', m.Returns r b r'

namespace Render

/-- A computation succeeds if it may not fail with any error. -/
theorem succeeds_iff {m : Render α β} :
    m.Succeeds ↔ m.Settles (fun _ => True) fun _ => False := by
  constructor
  · intro h r
    obtain ⟨b, r', hb⟩ := h r
    rw [hb]
    trivial
  · intro h r
    have settled := h r
    rcases answer : m.outcome r with ⟨err | b, r'⟩
    · rw [answer] at settled
      exact settled.elim
    · exact ⟨b, r', answer⟩

/-- A step whose result is known to be laid out. -/
theorem Succeeds.lift_bind {x : Except (LayoutError α) β} {f : β → Render α γ} {b : β}
    (h : x = .ok b) (hf : Succeeds (f b)) : Succeeds (liftM x >>= f) := by
  rw [h]
  exact hf

end Render

open Render

variable [Scalar α] [NumberText α]

/-! ## Nodes -/

/-- A shape of a single tag is drawn if its pixels are finite. -/
theorem Primitive.draw_succeeds {style : Style α} {p : Primitive α} {ctx : Context α}
    (finite : ctx.pixels.isFinite = true) : (p.draw style ctx).Succeeds := by
  have drawn : (p.draw style ctx).Settles (fun _ => True ∧ True) fun _ => False :=
    drawTag_settles (by simp [finite]) (.pure trivial) (.pure trivial)
  exact succeeds_iff.mpr (drawn.mono (fun _ _ => trivial) fun _ h => h)

/-- A shape is drawn if its pixels are finite, its parts are laid out, and its parts and its mask
are drawn. -/
theorem Shape.draw_succeeds {spec : Spec α} {style : Style α} {ctx : Context α}
    {shape : Shape α (Drawable α)} {parts : List (Drawable α)}
    (finite : ctx.pixels.isFinite = true) (laid : shape.parts spec style ctx = .ok parts)
    (hparts : ∀ part ∈ parts, (part.drawIn ctx).Succeeds)
    (hmasks : ∀ mask ∈ shape.masks, (mask.drawIn ctx).Succeeds) :
    (shape.draw spec style ctx).Succeeds := by
  have planned : (shape.parts spec style ctx).FailsOnly fun _ => False := by
    rw [laid]
    exact .pure parts
  have all : ∀ ps, shape.parts spec style ctx = .ok ps →
      ∀ part ∈ ps, (part.drawIn ctx).Settles (fun _ => True) fun _ => False := by
    intro ps again part hpart
    obtain rfl : parts = ps := Except.ok.inj (laid.symm.trans again)
    exact succeeds_iff.mp (hparts part hpart)
  have drawn := Shape.draw_settles (by simp [finite]) planned all
    fun mask hmask => succeeds_iff.mp (hmasks mask hmask)
  exact succeeds_iff.mpr (drawn.mono (fun _ _ => trivial) fun _ h => h)

end SvgLayout
