import Mathlib.Data.List.FinRange
import SvgLayout.Proofs.Layout.StackRanges

/-!
# The order of the items of a stack

What an item of a stack gets depends on what it asks for and on what the items ask for together, but
not on where it stands among them: all that the division reads of the list is sums, a least number,
and counts. Items in another order therefore have the same ranges in that order, moved along the
axis, and the stack has the same length.

## Main statements

* `divideStack_perm` — the shares and the length of items in another order.
* `solveStack_reordered` — their ranges.
-/

namespace SvgLayout

open StackItem

/-! ## What is read of a list -/

/-- The least number of a list is found in any order. -/
theorem least?_perm {xs ys : List ℝ} (h : xs.Perm ys) : least? xs = least? ys := by
  cases hx : least? xs with
  | none =>
    obtain rfl := least?_eq_none.mp hx
    rw [List.nil_perm.mp h]
    rfl
  | some x =>
    cases hy : least? ys with
    | none =>
      obtain rfl := least?_eq_none.mp hy
      rw [List.perm_nil.mp h] at hx
      simp [least?] at hx
    | some y =>
      obtain ⟨memx, leastx⟩ := least?_eq_some hx
      obtain ⟨memy, leasty⟩ := least?_eq_some hy
      rw [le_antisymm (leastx y (h.mem_iff.mpr memy)) (leasty x (h.mem_iff.mp memx))]

/-- What an expanding item gets does not depend on the order of what they ask for. -/
theorem expandedShare_perm {wants others : List ℝ} (h : wants.Perm others) :
    expandedShare wants = expandedShare others := by
  funext remaining want
  simp only [expandedShare, Scalar.sum_eq, h.sum_eq, h.length_eq]

variable {items others : List (StackItem ℝ)}

theorem sizedTotal_perm (h : items.Perm others) : sizedTotal items = sizedTotal others :=
  (h.map share).sum_eq

theorem isOpen_perm (h : items.Perm others) : IsOpen items ↔ IsOpen others := by
  simp only [IsOpen, sizedTotal_perm h, h.mem_iff]

theorem fittingLength_perm (h : items.Perm others) (room : ℝ) :
    fittingLength items room = fittingLength others room :=
  least?_perm (h.filterMap _)

theorem fillingLength_perm {wishes others : List ℝ} (h : wishes.Perm others) (remaining room : ℝ) :
    fillingLength wishes remaining room = fillingLength others remaining room := by
  simp only [fillingLength, Scalar.sum_eq, h.sum_eq, h.isEmpty_eq]

theorem openLength_perm (h : items.Perm others) (room : ℝ) (length : Option ℝ) :
    openLength items room length = openLength others room length := by
  rw [openLength, openLength, fittingLength_perm h, fillingLength_perm (h.filterMap wish),
    sizedTotal_perm h]

/-! ## Shares -/

/-- Items that divide what remains get the same in any order. -/
theorem grownShares_perm (h : items.Perm others) (remaining room : ℝ) (length : Option ℝ) :
    ∃ f : StackItem ℝ → ℝ, grownShares items remaining room length = items.map f ∧
      grownShares others remaining room length = others.map f := by
  have wants := fun want : ℝ → ℝ => expandedShare_perm ((h.filterMap wish).map want)
  have flexible := (h.filter isFlexible).length_eq
  refine ⟨_, rfl, ?_⟩
  simp only [grownShares, Scalar.sum_eq, wants, flexible, (h.map _).sum_eq]

/-- Items get the same shares in any order, and determine the same length. -/
theorem divideStack_perm (h : items.Perm others) (room : ℝ) (length : Option ℝ) :
    ∃ f : StackItem ℝ → ℝ, (divideStack items room length).1 = items.map f ∧
      (divideStack others room length).1 = others.map f ∧
      (divideStack others room length).2 = (divideStack items room length).2 := by
  by_cases opened : IsOpen items
  · obtain ⟨f, shares, moved⟩ := grownShares_perm h (1 - sizedTotal items) room
      (openLength items room length)
    rw [divideStack_of_open opened, divideStack_of_open ((isOpen_perm h).mp opened),
      ← sizedTotal_perm h, ← openLength_perm h]
    exact ⟨f, shares, moved, rfl⟩
  · have settled : ¬IsOpen others := mt (isOpen_perm h).mpr opened
    rw [divideStack_of_settled opened, divideStack_of_settled settled, ← sizedTotal_perm h,
      ← fittingLength_perm (h.map _)]
    exact ⟨_, rfl, rfl, rfl⟩

/-! ## Ranges -/

/-- Items in any order get ranges of the same lengths, and the stack has the same length. -/
theorem solveStack_perm (h : items.Perm others) (gap : ℝ) (length : Option ℝ) :
    ∃ f : StackItem ℝ → ℝ, (solveStack items gap length).ranges.map Limit.length = items.map f ∧
      (solveStack others gap length).ranges.map Limit.length = others.map f ∧
      (solveStack others gap length).length = (solveStack items gap length).length := by
  by_cases empty : items = []
  · subst empty
    rw [List.nil_perm.mp h]
    exact ⟨fun _ => 0, rfl, rfl, rfl⟩
  · have nonempty : others ≠ [] := fun gone => empty (gone ▸ h).eq_nil
    obtain ⟨f, shares, moved, same⟩ :=
      divideStack_perm h (Spacing.resolve gap items.length).room length
    rw [solveStack_eq empty, solveStack_eq nonempty, ← h.length_eq]
    refine ⟨fun item => (Spacing.resolve gap items.length).room * f item, ?_, ?_, same⟩
    · rw [map_length_tracks, shares, List.map_map]
      rfl
    · rw [map_length_tracks, moved, List.map_map]
      rfl

/-- In another order every item of a stack has a range of the same length as before, whatever the
items ask for, and the length of the stack is the same. -/
theorem solveStack_reordered {n : ℕ} (items : Fin n → StackItem ℝ) (order : Equiv.Perm (Fin n))
    (gap : ℝ) (length : Option ℝ) :
    let layout := solveStack (List.ofFn items) gap length
    let other := solveStack (List.ofFn (items ∘ order)) gap length
    other.length = layout.length ∧
      ∃ lengths : Fin n → ℝ, layout.ranges.map Limit.length = List.ofFn lengths ∧
        other.ranges.map Limit.length = List.ofFn (lengths ∘ order) := by
  intro layout other
  have perm : (List.ofFn items).Perm (List.ofFn (items ∘ order)) :=
    (Equiv.Perm.ofFn_comp_perm order items).symm
  obtain ⟨f, lengths, moved, same⟩ := solveStack_perm perm gap length
  refine ⟨same, f ∘ items, ?_, ?_⟩
  · exact lengths.trans List.map_ofFn
  · exact moved.trans List.map_ofFn

end SvgLayout
