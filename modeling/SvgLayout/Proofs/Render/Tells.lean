import SvgLayout.Proofs.Markup.Numeric
import SvgLayout.Proofs.Render.Outcome

/-!
# What drawings tell

Whether all numbers of a drawing are finite is known before it is drawn: a successful computation
shows finite numbers only, in its value and in the definitions it adds, exactly if some condition
holds that does not mention the registry.

## Main definitions

* `Registry.ShowsNumbers` — all definitions show finite numbers.
* `Render.Tells` — a computation shows finite numbers exactly if a condition holds.

## Main statements

* `Render.Tells.bind`, `Render.Tells.mapM` — composed computations.
-/

namespace SvgLayout

/-- All definitions show finite numbers. -/
def Registry.ShowsNumbers (registry : Registry) : Prop :=
  ∀ definition ∈ registry.defs, definition.ShowsNumbers

namespace Registry

theorem showsNumbers_empty : empty.ShowsNumbers := by
  simp [ShowsNumbers, empty]

theorem showsNumbers_define {registry : Registry} {definition : Markup} :
    (registry.define definition).ShowsNumbers ↔
      registry.ShowsNumbers ∧ definition.ShowsNumbers := by
  rw [ShowsNumbers, defs_define, List.forall_mem_append, List.forall_mem_singleton]
  rfl

end Registry

namespace Render

variable {α β γ δ : Type}

/-- Whenever the computation succeeds, its value satisfies `P` and all definitions show finite
numbers exactly if the definitions before it do and `T` holds. -/
def Tells (m : Render α β) (P : β → Prop) (T : Prop) : Prop :=
  ∀ ⦃r b r'⦄, m.Returns r b r' → (P b ∧ r'.ShowsNumbers ↔ r.ShowsNumbers ∧ T)

namespace Tells

variable {P : β → Prop} {Q : γ → Prop} {T U : Prop}

theorem congr {m : Render α β} (hm : Tells m P T) (same : T ↔ U) : Tells m P U :=
  fun _ _ _ returns => (hm returns).trans (and_congr_right' same)

theorem pure {b : β} (h : P b ↔ T) : Tells (Pure.pure b : Render α β) P T := by
  intro r c r' returns
  obtain ⟨rfl, rfl⟩ := returns_pure.mp returns
  rw [h, and_comm]

/-- What the first computation tells is what the second one starts with. -/
theorem bind {m : Render α β} {f : β → Render α γ} (hm : Tells m P T)
    (hf : ∀ b, Tells (f b) Q (P b ∧ U)) : Tells (m >>= f) Q (T ∧ U) := by
  intro r c r' returns
  obtain ⟨b, s, first, second⟩ := returns_bind.mp returns
  rw [hf b second, ← and_assoc, ← and_assoc, ← hm first, and_comm (a := P b)]

theorem map {m : Render α β} {f : β → γ} (hm : Tells m P T) (hf : ∀ b, Q (f b) ↔ P b) :
    Tells (f <$> m) Q T := by
  intro r c r' returns
  obtain ⟨b, hb, rfl⟩ := returns_map.mp returns
  rw [hf]
  exact hm hb

/-- What is only measured shows no numbers. -/
theorem lift_bind {x : Except (LayoutError α) β} {f : β → Render α γ}
    (hf : ∀ b, x = .ok b → Tells (f b) Q T) : Tells ((liftM x : Render α β) >>= f) Q T := by
  intro r c r' returns
  obtain ⟨b, s, measured, second⟩ := returns_bind.mp returns
  obtain ⟨hx, rfl⟩ := returns_lift.mp measured
  exact hf b hx second

theorem newId (stem : String) :
    Tells (newId stem : Render α String) (fun _ => True) True := by
  intro r id r' returns
  obtain ⟨rfl, rfl⟩ := returns_newId.mp returns
  rw [true_and, and_true]
  rfl

theorem addDefinition (definition : Markup) :
    Tells (addDefinition definition : Render α Unit) (fun _ => True) definition.ShowsNumbers := by
  intro r u r' returns
  rw [returns_addDefinition.mp returns, true_and, Registry.showsNumbers_define]

/-- A list of computations shows finite numbers exactly if all conditions hold. -/
theorem mapM {S : δ → Prop} {f : δ → Render α β} {xs : List δ}
    (h : ∀ x ∈ xs, Tells (f x) P (S x)) :
    Tells (xs.mapM f) (fun ys => ∀ y ∈ ys, P y) (∀ x ∈ xs, S x) := by
  induction xs with
  | nil =>
    rw [List.mapM_nil]
    exact .pure (by simp)
  | cons x xs ih =>
    rw [List.forall_mem_cons] at h
    rw [List.mapM_cons, List.forall_mem_cons]
    refine h.1.bind fun y => ?_
    refine ((ih h.2).bind (U := P y) fun ys => .pure ?_).congr and_comm
    rw [List.forall_mem_cons, and_comm]

end Tells

end Render

end SvgLayout
