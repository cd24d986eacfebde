import SvgLayout.Element.Basic

/-!
# Computing from the leaves up

The one equation of `Element.fold`, and the induction that goes with it.

## Main statements

* `Element.fold_eq` — a value is one step over the values of the children.
* `Element.induction_on` — every tree has a property that nodes inherit from their children.
-/

namespace SvgLayout.Element

variable {α β : Type} (step : Spec α → Style α → Shape α (Element α × β) → β)

/-! ## The equation of a fold -/

private theorem foldList_eq_map (es : List (Element α)) :
    foldList step es = es.map fun e => (e, e.fold step) := by
  induction es with
  | nil => rfl
  | cons e es ih => simp [foldList, ih]

private theorem foldOption_eq_map (e : Option (Element α)) :
    foldOption step e = e.map fun e => (e, e.fold step) := by
  cases e <;> rfl

private theorem foldStack_eq_map (cs : List (StackChild α (Element α))) :
    foldStack step cs = cs.map (StackChild.map fun e => (e, e.fold step)) := by
  induction cs with
  | nil => rfl
  | cons c cs ih => simp [foldStack, StackChild.map, ih]

private theorem foldRows_eq_map (rows : List (List (Element α))) :
    foldRows step rows = rows.map (List.map fun e => (e, e.fold step)) := by
  induction rows with
  | nil => rfl
  | cons row rows ih => simp [foldRows, ih, foldList_eq_map]

private theorem foldShape_eq_map (shape : Shape α (Element α)) :
    foldShape step shape = shape.map fun e => (e, e.fold step) := by
  cases shape <;>
    simp [foldShape, Shape.map, Group.map, Frame.map, Stack.map, Grid.map, foldList_eq_map,
      foldOption_eq_map, foldStack_eq_map, foldRows_eq_map]

/-- A folded value is one step over the folded values of the children. -/
theorem fold_eq (e : Element α) :
    e.fold step = step e.spec e.style (e.shape.map fun c => (c, c.fold step)) := by
  cases e
  rw [fold, foldShape_eq_map]

/-! ## Induction -/

/-- A property that a node has whenever all its children have it. -/
def Hereditary (P : Element α → Prop) : Prop :=
  ∀ e : Element α, (∀ c ∈ e.shape.children, P c) → P e

variable {P : Element α → Prop}

mutual

/-- Every tree has a property that nodes inherit from their children. -/
theorem induction_on (node : Hereditary P) : ∀ e : Element α, P e
  | ⟨_, _, shape⟩ => node _ (induction_shape node shape)

private theorem induction_shape (node : Hereditary P) :
    ∀ (shape : Shape α (Element α)), ∀ c ∈ shape.children, P c
  | .primitive _ => by simp [Shape.children]
  | .arrow _ => by simp [Shape.children]
  | .group ⟨children, _, mask, _⟩ => by
    have hc := induction_list node children
    have hm := induction_option node mask
    intro c h
    simp only [Shape.children, List.mem_append, Option.mem_toList] at h
    exact h.elim (hm c) (hc c)
  | .frame ⟨child, _, _, _, _⟩ => by
    have h := induction_on node child
    simpa [Shape.children] using h
  | .stack ⟨_, children, _, _, _⟩ => by
    have h := induction_stack node children
    simpa [Shape.children] using h
  | .grid ⟨rows, _, _, _, _⟩ => by
    have h := induction_rows node rows
    intro c hc
    obtain ⟨row, hrow, hmem⟩ := List.mem_flatten.mp hc
    exact h row hrow c hmem

private theorem induction_list (node : Hereditary P) : ∀ (es : List (Element α)), ∀ c ∈ es, P c
  | [] => by simp
  | e :: es => by
    have h := induction_on node e
    have hs := induction_list node es
    simpa using ⟨h, hs⟩

private theorem induction_option (node : Hereditary P) :
    ∀ (e : Option (Element α)), ∀ c ∈ e, P c
  | none => by simp
  | some e => by
    have h := induction_on node e
    simpa using h

private theorem induction_stack (node : Hereditary P) :
    ∀ (cs : List (StackChild α (Element α))), ∀ c ∈ cs, P c.element
  | [] => by simp
  | ⟨e, _, _⟩ :: cs => by
    have h := induction_on node e
    have hs := induction_stack node cs
    simpa using ⟨h, hs⟩

private theorem induction_rows (node : Hereditary P) :
    ∀ (rows : List (List (Element α))), ∀ row ∈ rows, ∀ c ∈ row, P c
  | [] => by simp
  | row :: rows => by
    have h := induction_list node row
    have hs := induction_rows node rows
    simpa using ⟨h, hs⟩

end

end SvgLayout.Element
