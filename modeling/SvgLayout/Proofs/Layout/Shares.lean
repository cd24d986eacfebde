import SvgLayout.Proofs.Layout.StackRanges

/-!
# Stacks of expanding items

When every item of a stack asks only for a ratio, the stack has a length in which each of them gets
the ratio it asks for, and the shares leave nothing over.

## Main statements

* `divideStack_expanding` — the shares.
* `solveStack_expanding` — the layout of a stack of expanding items.
-/

namespace SvgLayout

/-- An item that asks for a ratio and nothing else. -/
def StackItem.ofAspect {α : Type} (aspect : α) : StackItem α :=
  ⟨none, some aspect⟩

section

variable {wishes : List ℝ}

theorem sizedTotal_expanding (wishes : List ℝ) :
    sizedTotal (wishes.map StackItem.ofAspect) = 0 := by
  apply List.sum_eq_zero
  simp [StackItem.share, StackItem.ofAspect]

theorem role_expanding {wish : ℝ} (positive : 0 < wish) :
    (StackItem.ofAspect wish).role = .expanding wish :=
  StackItem.role_eq_expanding.mpr ⟨rfl, rfl, positive⟩

/-- Every wish is heard. -/
theorem filterMap_wish_expanding (positive : ∀ w ∈ wishes, 0 < w) :
    (wishes.map StackItem.ofAspect).filterMap StackItem.wish = wishes := by
  induction wishes with
  | nil => rfl
  | cons wish wishes ih =>
    obtain ⟨hw, hws⟩ := List.forall_mem_cons.mp positive
    have heard : (StackItem.ofAspect wish).wish = some wish := by
      rw [StackItem.wish, role_expanding hw]
    rw [List.map_cons, List.filterMap_cons_some heard, ih hws]

/-- No item has a share of its own, and there is one that takes what is left. -/
theorem isOpen_expanding (nonempty : wishes ≠ []) : IsOpen (wishes.map StackItem.ofAspect) := by
  obtain ⟨wish, hwish⟩ := List.exists_mem_of_ne_nil _ nonempty
  refine ⟨?_, StackItem.ofAspect wish, List.mem_map_of_mem hwish, rfl⟩
  rw [sizedTotal_expanding]
  exact one_pos

/-- The items are as long together as they wish to be. -/
theorem fillingLength_expanding (nonempty : wishes ≠ []) (positive : ∀ w ∈ wishes, 0 < w)
    (room : ℝ) :
    fillingLength ((wishes.map StackItem.ofAspect).filterMap StackItem.wish)
      (1 - sizedTotal (wishes.map StackItem.ofAspect)) room = .some (wishes.sum / room) := by
  rw [filterMap_wish_expanding positive, sizedTotal_expanding, fillingLength_eq_some]
  exact ⟨nonempty, by rw [sub_zero, one_mul]⟩

theorem openLength_expanding (nonempty : wishes ≠ []) (positive : ∀ w ∈ wishes, 0 < w) (room : ℝ) :
    openLength (wishes.map StackItem.ofAspect) room none = some (wishes.sum / room) := by
  have free : fittingLength (wishes.map StackItem.ofAspect) room = none := by
    rw [fittingLength_eq_none, List.forall_mem_map]
    rintro wish - ⟨share, size, -⟩
    cases size
  rw [openLength, free, Option.none_or, Option.none_or, fillingLength_expanding nonempty positive]

/-- At their own length each item gets what it asks for. -/
theorem divideStack_expanding (nonempty : wishes ≠ []) (positive : ∀ w ∈ wishes, 0 < w) {room : ℝ}
    (hroom : 0 < room) :
    divideStack (wishes.map StackItem.ofAspect) room none =
      (wishes.map (· / (room * (wishes.sum / room))), .some (wishes.sum / room)) := by
  have opened := isOpen_expanding nonempty
  have filled := fillingLength_expanding nonempty positive room
  have length := openLength_expanding nonempty positive room
  have none_pos : ∀ l ∈ (none : Option ℝ), 0 < l := by simp
  have measures := measures_openLength opened hroom none_pos
  have left : 0 < 1 - sizedTotal (wishes.map StackItem.ofAspect) := sub_pos.mpr opened.1
  have whole : ∀ aspect, granted (wishes.map StackItem.ofAspect)
      (1 - sizedTotal (wishes.map StackItem.ofAspect)) room (wishes.sum / room) aspect =
        aspect / (room * (wishes.sum / room)) := by
    intro aspect
    rw [granted, wanted_fillingLength opened hroom filled, div_self left.ne', min_self, mul_one]
  rw [divideStack_of_open opened, grownShares_eq measures left rfl, length, Option.getD_some]
  congr 1
  rw [List.map_map]
  apply List.map_congr_left
  intro wish hwish
  simp only [Function.comp_apply, StackItem.shareIn, role_expanding (positive wish hwish), whole]

/-- In a stack of expanding items each item is as long as its wish is in terms of the cross axis. -/
theorem solveStack_expanding (nonempty : wishes ≠ []) (positive : ∀ w ∈ wishes, 0 < w) {gap : ℝ}
    (room : gap * (wishes.length - 1 : ℕ) < 1) :
    ∃ length, 0 < length ∧ solveStack (wishes.map StackItem.ofAspect) gap none =
      ⟨tracks (wishes.map (· / length)) gap, .some length⟩ := by
  have sum : 0 < wishes.sum := List.sum_pos _ positive nonempty
  have hroom : 0 < 1 - gap * (wishes.length - 1 : ℕ) := by linarith
  have spacing : Spacing.resolve gap wishes.length =
      ⟨gap, 1 - gap * (wishes.length - 1 : ℕ)⟩ := by
    rw [Spacing.resolve_eq, if_pos room]
  refine ⟨wishes.sum / (1 - gap * (wishes.length - 1 : ℕ)), div_pos sum hroom, ?_⟩
  rw [solveStack_eq (by simpa using nonempty), List.length_map, spacing]
  simp only [divideStack_expanding nonempty positive hroom, List.map_map]
  congr 2
  apply List.map_congr_left
  intro wish hwish
  simp only [Function.comp_apply]
  field_simp

end

end SvgLayout
