import SvgLayout.Proofs.Layout.Tiling
import SvgLayout.Layout.StackSolver

/-!
# How a stack divides its axis

The items of a stack divide the room of its axis in one of two ways. If the sized items take all of
it, or if there are no others, every item gets its own share, scaled down where the shares sum up to
more than the whole. Otherwise the sized items keep their shares, the expanding ones get what their
ratios ask for at the length of the stack, cut back in proportion if that is more than remains, and
the flexible ones divide the rest.

## Main definitions

* `StackItem.Expands`, `StackItem.Yields`, `StackItem.Fixes` — what an item has.
* `wanted` — what the expanding items ask for together.
* `StackItem.shareIn` — the share of an item, by its role.

## Main statements

* `divideStack_of_settled`, `divideStack_of_open` — the shares and the length.
* `fittingLength_eq_some`, `fittingLength_eq_none` — the length that the sized items determine.
* `sum_grownShares` — what the items claim together when something is left to divide.
* `exists_openLength` — an expanding item gives the stack a length.
-/

namespace SvgLayout

/-! ## Items -/

namespace StackItem

/-- The item has no share of its own, but a positive ratio. -/
def Expands (item : StackItem ℝ) : Prop :=
  item.size = none ∧ ∃ aspect ∈ item.aspect, 0 < aspect

/-- The item has neither a share of its own nor a positive ratio. -/
def Yields (item : StackItem ℝ) : Prop :=
  item.size = none ∧ ∀ aspect ∈ item.aspect, aspect ≤ 0

/-- The item has both a positive share of its own and a positive ratio. -/
def Fixes (item : StackItem ℝ) : Prop :=
  ∃ share ∈ item.size, ∃ aspect ∈ item.aspect, 0 < share ∧ 0 < aspect

/-- The share of an item by its role. -/
def shareIn {α : Type} [Scalar α] (grow : α → α) (rest : α) (item : StackItem α) : α :=
  match item.role with
  | .sized share => share
  | .expanding aspect => grow aspect
  | .flexible => rest

variable {item : StackItem ℝ} {aspect share : ℝ}

theorem role_eq_sized : item.role = .sized share ↔ item.size = some share := by
  obtain ⟨size, ratio⟩ := item
  cases size with
  | some s => simp [role]
  | none =>
    cases ratio with
    | none => simp [role]
    | some a => by_cases positive : 0 < a <;> simp [role, positive]

theorem role_eq_expanding :
    item.role = .expanding aspect ↔ item.size = none ∧ item.aspect = some aspect ∧ 0 < aspect := by
  obtain ⟨size, ratio⟩ := item
  cases size with
  | some s => simp [role]
  | none =>
    cases ratio with
    | none => simp [role]
    | some a =>
      by_cases positive : 0 < a
      · simp only [role, Scalar.literal_zero, positive, if_true, Role.expanding.injEq, true_and,
          Option.some.injEq]
        constructor
        · rintro rfl
          exact ⟨rfl, positive⟩
        · exact And.left
      · simp only [role, Scalar.literal_zero, positive, if_false, true_and, Option.some.injEq,
          reduceCtorEq, false_iff, not_and]
        rintro rfl
        exact positive

/-- An item without a share of its own is flexible or expanding. -/
theorem yields_or_expands (free : item.size = none) : item.Yields ∨ item.Expands := by
  by_cases wide : ∃ aspect ∈ item.aspect, 0 < aspect
  · exact .inr ⟨free, wide⟩
  · refine .inl ⟨free, ?_⟩
    intro aspect haspect
    exact not_lt.mp fun positive => wide ⟨aspect, haspect, positive⟩

theorem role_eq_flexible : item.role = .flexible ↔ item.Yields := by
  obtain ⟨size, ratio⟩ := item
  cases size with
  | some s => simp [role, Yields]
  | none =>
    cases ratio with
    | none => simp [role, Yields]
    | some a => by_cases positive : 0 < a <;> simp [role, Yields, positive, not_lt.mp]

theorem wish_eq_some :
    item.wish = some aspect ↔ item.size = none ∧ item.aspect = some aspect ∧ 0 < aspect := by
  rw [← role_eq_expanding, wish]
  cases item.role <;> simp

theorem isFlexible_iff : item.isFlexible = true ↔ item.Yields := by
  rw [← role_eq_flexible, isFlexible]
  cases item.role <;> simp

theorem share_of_size_eq_none (h : item.size = none) : item.share = 0 := by
  simp [StackItem.share, h]

theorem share_scaleShare (item : StackItem ℝ) (total : ℝ) :
    (item.scaleShare total).share = item.share / total := by
  obtain ⟨size, ratio⟩ := item
  cases size <;> simp [scaleShare, StackItem.share]

theorem fixes_iff : item.Fixes ↔ 0 < item.share ∧ ∃ aspect ∈ item.aspect, 0 < aspect := by
  obtain ⟨size, ratio⟩ := item
  cases size <;> simp [Fixes, StackItem.share, and_left_comm]

theorem share_nonneg (nonneg : ∀ s ∈ item.size, 0 ≤ s) : 0 ≤ item.share := by
  cases h : item.size with
  | none => rw [share_of_size_eq_none h]
  | some s => simpa [StackItem.share, h] using nonneg s h

end StackItem

open StackItem

variable {items : List (StackItem ℝ)} {room remaining : ℝ} {length : Option ℝ}

/-- The ratios that expanding items ask for are positive. -/
theorem mem_wishes {aspect : ℝ} :
    aspect ∈ items.filterMap wish ↔
      ∃ item ∈ items, item.size = none ∧ item.aspect = some aspect ∧ 0 < aspect := by
  simp only [List.mem_filterMap, wish_eq_some]

theorem wishes_eq_nil : items.filterMap wish = [] ↔ ∀ item ∈ items, ¬item.Expands := by
  rw [List.eq_nil_iff_forall_not_mem]
  simp only [mem_wishes, Expands, Option.mem_def]
  constructor
  · rintro wishless item hitem ⟨free, aspect, ratio, positive⟩
    exact wishless aspect ⟨item, hitem, free, ratio, positive⟩
  · rintro wishless aspect ⟨item, hitem, free, ratio, positive⟩
    exact wishless item hitem ⟨free, aspect, ratio, positive⟩

/-- Shares by role sum up role by role. -/
theorem sum_map_shareIn (grow : ℝ → ℝ) (rest : ℝ) (items : List (StackItem ℝ)) :
    (items.map (shareIn grow rest)).sum =
      (items.map share).sum + ((items.filterMap wish).map grow).sum +
        (items.filter isFlexible).length * rest := by
  induction items with
  | nil => simp
  | cons item items ih =>
    rw [List.map_cons, List.map_cons, List.sum_cons, List.sum_cons, ih]
    cases role : item.role with
    | sized s =>
      have own : item.share = s := by
        simp [StackItem.share, role_eq_sized.mp role]
      simp only [shareIn, wish, isFlexible, role, own, List.filterMap_cons, List.filter_cons]
      simp only [Bool.false_eq_true, if_false]
      ring
    | expanding a =>
      have shareless : item.share = 0 := share_of_size_eq_none (role_eq_expanding.mp role).1
      simp only [shareIn, wish, isFlexible, role, shareless, List.filterMap_cons, List.filter_cons,
        List.map_cons, List.sum_cons]
      simp only [Bool.false_eq_true, if_false]
      ring
    | flexible =>
      have shareless : item.share = 0 := share_of_size_eq_none (role_eq_flexible.mp role).1
      simp only [shareIn, wish, isFlexible, role, shareless, List.filterMap_cons, List.filter_cons,
        if_true, List.length_cons, Nat.cast_add, Nat.cast_one]
      ring

/-! ## The length that sized items determine -/

theorem least?_eq_none {xs : List ℝ} : least? xs = none ↔ xs = [] := by
  cases xs <;> simp [least?]

/-- The least number of a list is in the list. -/
theorem least?_eq_some {xs : List ℝ} {least : ℝ} (h : least? xs = some least) :
    least ∈ xs ∧ ∀ x ∈ xs, least ≤ x := by
  have fold : ∀ (xs : List ℝ) (first : ℝ),
      xs.foldl Scalar.min first ∈ first :: xs ∧
        ∀ x ∈ first :: xs, xs.foldl Scalar.min first ≤ x := by
    intro xs
    induction xs with
    | nil => simp
    | cons x xs ih =>
      intro first
      obtain ⟨found, bound⟩ := ih (Scalar.min first x)
      obtain ⟨here, rest⟩ := List.forall_mem_cons.mp bound
      rw [Scalar.min_eq] at found here
      rw [List.foldl_cons, Scalar.min_eq, List.forall_mem_cons, List.forall_mem_cons]
      rw [Scalar.min_eq] at rest
      refine ⟨?_, here.trans (min_le_left first x), here.trans (min_le_right first x), rest⟩
      rcases List.mem_cons.mp found with found | found
      · rw [found]
        rcases min_choice first x with least | least <;> simp [least]
      · exact List.mem_cons_of_mem _ (List.mem_cons_of_mem _ found)
  cases xs with
  | nil => simp [least?] at h
  | cons x xs =>
    obtain rfl : xs.foldl Scalar.min x = least := by simpa [least?] using h
    exact fold xs x

/-- An item that has both fits its range at one length. -/
theorem fittingLength_item_eq_some {item : StackItem ℝ} {l : ℝ} :
    item.fittingLength room = some l ↔
      0 < item.share ∧ ∃ aspect ∈ item.aspect, 0 < aspect ∧ aspect / (room * item.share) = l := by
  obtain ⟨size, ratio⟩ := item
  cases size with
  | none => simp [StackItem.fittingLength, StackItem.share]
  | some s =>
    cases ratio with
    | none => simp [StackItem.fittingLength]
    | some a => simp [StackItem.fittingLength, StackItem.share, and_assoc]

/-- The sized items with a ratio determine a length if there are any. -/
theorem fittingLength_eq_none : fittingLength items room = none ↔ ∀ item ∈ items, ¬item.Fixes := by
  rw [fittingLength, least?_eq_none, List.filterMap_eq_nil_iff]
  apply forall₂_congr
  intro item _
  rw [Option.eq_none_iff_forall_not_mem, fixes_iff]
  simp only [Option.mem_def, fittingLength_item_eq_some]
  constructor
  · rintro unfixed ⟨sized, aspect, ratio, wide⟩
    exact unfixed _ ⟨sized, aspect, ratio, wide, rfl⟩
  · rintro unfixed l ⟨sized, aspect, ratio, wide, -⟩
    exact unfixed ⟨sized, aspect, ratio, wide⟩

/-- At the length that sized items determine one of them fits its range exactly, and the others
would fit a longer stack. -/
theorem fittingLength_eq_some {l : ℝ} (h : fittingLength items room = some l) :
    (∃ item ∈ items, 0 < item.share ∧
        ∃ aspect ∈ item.aspect, 0 < aspect ∧ l = aspect / (room * item.share)) ∧
      ∀ item ∈ items, 0 < item.share → ∀ aspect ∈ item.aspect, 0 < aspect →
        l ≤ aspect / (room * item.share) := by
  obtain ⟨mem, least⟩ := least?_eq_some h
  simp only [List.mem_filterMap, fittingLength_item_eq_some] at mem least
  constructor
  · obtain ⟨item, hitem, sized, aspect, ratio, wide, rfl⟩ := mem
    exact ⟨item, hitem, sized, aspect, ratio, wide, rfl⟩
  · intro item hitem sized aspect ratio wide
    exact least _ ⟨item, hitem, sized, aspect, ratio, wide, rfl⟩

theorem fittingLength_pos {l : ℝ} (hroom : 0 < room) (h : fittingLength items room = some l) :
    0 < l := by
  obtain ⟨⟨item, -, sized, aspect, -, wide, rfl⟩, -⟩ := fittingLength_eq_some h
  positivity

/-! ## What expanding items get -/

/-- The sum of the shares that the expanding items of a stack of a length ask for. -/
noncomputable def wanted (items : List (StackItem ℝ)) (room length : ℝ) : ℝ :=
  ((items.filterMap wish).map (· / (room * length))).sum

theorem wanted_eq (items : List (StackItem ℝ)) (room length : ℝ) :
    wanted items room length = (items.filterMap wish).sum / (room * length) := by
  simp only [wanted, div_eq_mul_inv, List.sum_map_mul_right, List.map_id']

/-- Expanding items that ask for more than remains are cut back in proportion, a single one as
well. -/
theorem expandedShare_eq {wants : List ℝ} {want : ℝ} (positive : ∀ w ∈ wants, 0 < w)
    (mem : want ∈ wants) :
    expandedShare wants remaining want = want * min 1 (remaining / wants.sum) := by
  have total : 0 < wants.sum := List.sum_pos _ positive (List.ne_nil_of_mem mem)
  simp only [expandedShare, Scalar.sum_eq]
  by_cases excess : remaining < wants.sum
  · have part : min 1 (remaining / wants.sum) = remaining / wants.sum :=
      min_eq_right (div_le_one_of_le₀ excess.le total.le)
    rw [if_pos excess, part]
    by_cases single : wants.length = 1
    · obtain ⟨only, rfl⟩ := List.length_eq_one_iff.mp single
      obtain rfl := List.mem_singleton.mp mem
      rw [if_pos single, List.sum_singleton, mul_div_cancel₀ _ (positive _ mem).ne']
    · rw [if_neg single]
  · have whole : min 1 (remaining / wants.sum) = 1 :=
      min_eq_left ((one_le_div total).mpr (not_lt.mp excess))
    rw [if_neg excess, whole, mul_one]

/-- What is asked for is granted as far as it remains. -/
theorem mul_min_one_div {w : ℝ} (nonneg : 0 ≤ w) (left : 0 < remaining) :
    w * min 1 (remaining / w) = min w remaining := by
  rcases nonneg.eq_or_lt with rfl | positive
  · rw [zero_mul, min_eq_left left.le]
  · rw [mul_min_of_nonneg _ _ positive.le, mul_one, mul_div_cancel₀ _ positive.ne']

/-- At the length of a stack every expanding item asks for a positive share. -/
structure Measures (items : List (StackItem ℝ)) (room : ℝ) (length : Option ℝ) : Prop where
  room_pos : 0 < room
  nonneg : 0 ≤ length.getD 0
  asks : ∀ aspect ∈ items.filterMap wish, 0 < aspect / (room * length.getD 0)

theorem Measures.wanted_nonneg (measures : Measures items room length) :
    0 ≤ wanted items room (length.getD 0) := by
  apply List.sum_nonneg
  rw [List.forall_mem_map]
  intro aspect haspect
  exact (measures.asks aspect haspect).le

/-- The share of an expanding item of a ratio. -/
noncomputable def granted (items : List (StackItem ℝ)) (remaining room length aspect : ℝ) : ℝ :=
  aspect / (room * length) * min 1 (remaining / wanted items room length)

/-- The share of a flexible item. -/
noncomputable def leftOver (items : List (StackItem ℝ)) (remaining room length : ℝ) : ℝ :=
  (remaining - min (wanted items room length) remaining) / (items.filter isFlexible).length

theorem Measures.granted_nonneg (measures : Measures items room length) (left : 0 < remaining)
    {aspect : ℝ} (positive : 0 < aspect) :
    0 ≤ granted items remaining room (length.getD 0) aspect := by
  have room := measures.room_pos
  have long := measures.nonneg
  have asked := measures.wanted_nonneg
  rw [granted]
  positivity

theorem leftOver_nonneg (items : List (StackItem ℝ)) (remaining room length : ℝ) :
    0 ≤ leftOver items remaining room length :=
  div_nonneg (sub_nonneg.mpr (min_le_right _ _)) (Nat.cast_nonneg _)

/-- All expanding items together get what they ask for as far as it remains. -/
theorem sum_granted (measures : Measures items room length) (left : 0 < remaining) :
    ((items.filterMap wish).map (granted items remaining room (length.getD 0))).sum =
      min (wanted items room (length.getD 0)) remaining := by
  rw [← mul_min_one_div measures.wanted_nonneg left, wanted, ← List.sum_map_mul_right]
  rfl

/-- The shares when the expanding and flexible items divide what remains. -/
theorem grownShares_eq (measures : Measures items room length) (left : 0 < remaining)
    (rest : remaining = 1 - (items.map share).sum) :
    grownShares items remaining room length =
      items.map (shareIn (granted items remaining room (length.getD 0))
        (leftOver items remaining room (length.getD 0))) := by
  have wants : ∀ want ∈ (items.filterMap wish).map (· / (room * length.getD 0)), 0 < want := by
    rw [List.forall_mem_map]
    exact measures.asks
  have grow : ∀ rest, items.map (shareIn (fun aspect =>
        expandedShare ((items.filterMap wish).map (· / (room * length.getD 0))) remaining
          (aspect / (room * length.getD 0))) rest) =
      items.map (shareIn (granted items remaining room (length.getD 0)) rest) := by
    intro rest
    apply List.map_congr_left
    intro item hitem
    cases role : item.role with
    | sized s => simp only [shareIn, role]
    | flexible => simp only [shareIn, role]
    | expanding aspect =>
      have mem : aspect ∈ items.filterMap wish :=
        mem_wishes.mpr ⟨item, hitem, role_eq_expanding.mp role⟩
      simp only [shareIn, role]
      exact expandedShare_eq wants (List.mem_map_of_mem mem)
  have used : (items.map (shareIn (granted items remaining room (length.getD 0)) 0)).sum =
      1 - remaining + min (wanted items room (length.getD 0)) remaining := by
    rw [sum_map_shareIn, sum_granted measures left, rest]
    ring
  have unused : max (1 - (1 - remaining + min (wanted items room (length.getD 0)) remaining)) 0 =
      remaining - min (wanted items room (length.getD 0)) remaining := by
    rw [max_eq_left]
    · ring
    · linarith [min_le_right (wanted items room (length.getD 0)) remaining]
  have shares : grownShares items remaining room length =
      items.map (shareIn (fun aspect =>
        expandedShare ((items.filterMap wish).map (· / (room * length.getD 0))) remaining
          (aspect / (room * length.getD 0)))
        (Scalar.max (1.0 - Scalar.sum (items.map (shareIn (fun aspect =>
          expandedShare ((items.filterMap wish).map (· / (room * length.getD 0))) remaining
            (aspect / (room * length.getD 0))) 0.0))) 0.0 /
          ((items.filter isFlexible).length : ℝ))) := by
    simp only [grownShares, Scalar.literal_zero]
    rfl
  rw [shares, Scalar.literal_zero, Scalar.literal_one, grow, grow, Scalar.sum_eq, Scalar.max_eq,
    used, unused]
  rfl

/-- What remains is divided without a rest if some item is flexible. -/
theorem sum_grownShares_of_yields (measures : Measures items room length) (left : 0 < remaining)
    (rest : remaining = 1 - (items.map share).sum) (flexible : ∃ item ∈ items, item.Yields) :
    (grownShares items remaining room length).sum = 1 := by
  have nonzero : ((items.filter isFlexible).length : ℝ) ≠ 0 := by
    obtain ⟨item, hitem, yields⟩ := flexible
    have mem := List.mem_filter.mpr ⟨hitem, isFlexible_iff.mpr yields⟩
    exact Nat.cast_ne_zero.mpr (List.length_pos_of_mem mem).ne'
  rw [grownShares_eq measures left rest, sum_map_shareIn, sum_granted measures left, leftOver,
    mul_div_cancel₀ _ nonzero, rest]
  ring

/-- Without flexible items what the expanding ones do not ask for is left over. -/
theorem sum_grownShares (measures : Measures items room length) (left : 0 < remaining)
    (rest : remaining = 1 - (items.map share).sum) (rigid : ∀ item ∈ items, ¬item.Yields) :
    (grownShares items remaining room length).sum =
      (items.map share).sum + min (wanted items room (length.getD 0)) remaining := by
  have rigid : items.filter isFlexible = [] := by
    rw [List.filter_eq_nil_iff]
    intro item hitem yields
    exact rigid item hitem (isFlexible_iff.mp yields)
  rw [grownShares_eq measures left rest, sum_map_shareIn, sum_granted measures left, rigid]
  simp

/-! ## The two ways to divide an axis -/

/-- The sum of the shares that the sized items have of their own. -/
noncomputable def sizedTotal (items : List (StackItem ℝ)) : ℝ :=
  (items.map share).sum

/-- The sized items leave something, and there is an item to take it. -/
def IsOpen (items : List (StackItem ℝ)) : Prop :=
  sizedTotal items < 1 ∧ ∃ item ∈ items, item.size = none

theorem isSettled_iff : isSettled items (sizedTotal items) = true ↔ ¬IsOpen items := by
  rw [IsOpen, not_and_or, not_lt, not_exists]
  simp [isSettled, Option.isSome_iff_ne_none]

/-- Nothing is left to divide: every item has its own share, scaled down to the axis. -/
theorem divideStack_of_settled (settled : ¬IsOpen items) (room : ℝ) (length : Option ℝ) :
    let scale := max (sizedTotal items) 1
    divideStack items room length = (items.map fun item => item.share / scale,
      length.or (fittingLength (items.map (scaleShare scale)) room)) := by
  intro scale
  have fixed : fixedShares items (sizedTotal items) = items.map fun item => item.share / scale := by
    rw [fixedShares, Scalar.literal_one]
    by_cases excess : 1 < sizedTotal items
    · simp only [if_pos excess, scale, max_eq_left excess.le, List.map_map]
      rfl
    · simp only [if_neg excess, scale, max_eq_right (not_lt.mp excess), div_one]
  rw [← isSettled_iff] at settled
  simp only [divideStack, Scalar.sum_eq, Scalar.max_eq, Scalar.literal_one]
  rw [← sizedTotal, if_pos settled, fixed]

/-- The length of a stack in which something is left to divide. -/
noncomputable def openLength (items : List (StackItem ℝ)) (room : ℝ) (length : Option ℝ) :
    Option ℝ :=
  (length.or (fittingLength items room)).or
    (fillingLength (items.filterMap wish) (1 - sizedTotal items) room)

/-- What is left is divided at the length of the stack. -/
theorem divideStack_of_open (opened : IsOpen items) (room : ℝ) (length : Option ℝ) :
    divideStack items room length =
      (grownShares items (1 - sizedTotal items) room (openLength items room length),
        openLength items room length) := by
  have settled : ¬isSettled items (sizedTotal items) = true := by
    rw [isSettled_iff, not_not]
    exact opened
  simp only [divideStack, Scalar.sum_eq, Scalar.literal_one]
  rw [← sizedTotal, if_neg settled]
  rfl

theorem fillingLength_eq_some {wishes : List ℝ} {l : ℝ} :
    fillingLength wishes remaining room = some l ↔
      wishes ≠ [] ∧ wishes.sum / (remaining * room) = l := by
  cases wishes <;> simp [fillingLength]

theorem fillingLength_eq_none {wishes : List ℝ} :
    fillingLength wishes remaining room = none ↔ wishes = [] := by
  cases wishes <;> simp [fillingLength]

section

variable (opened : IsOpen items) (hroom : 0 < room)

include opened hroom

/-- The length at which expanding items fill what remains is positive. -/
theorem fillingLength_pos {l : ℝ}
    (h : fillingLength (items.filterMap wish) (1 - sizedTotal items) room = some l) : 0 < l := by
  obtain ⟨nonempty, rfl⟩ := fillingLength_eq_some.mp h
  have sum : 0 < (items.filterMap wish).sum := by
    refine List.sum_pos _ ?_ nonempty
    intro aspect haspect
    obtain ⟨_, -, -, -, positive⟩ := mem_wishes.mp haspect
    exact positive
  exact div_pos sum (mul_pos (sub_pos.mpr opened.1) hroom)

variable (positive : ∀ l ∈ length, 0 < l)

include positive

theorem openLength_pos {l : ℝ} (h : openLength items room length = some l) : 0 < l := by
  rw [openLength, Option.or_eq_some_iff, Option.or_eq_some_iff] at h
  rcases h with (given | ⟨-, fitting⟩) | ⟨-, filling⟩
  · exact positive l given
  · exact fittingLength_pos hroom fitting
  · exact fillingLength_pos opened hroom filling

/-- An open stack with expanding items has a length. -/
theorem exists_openLength (expanding : ∃ item ∈ items, item.Expands) :
    ∃ l, 0 < l ∧ openLength items room length = some l := by
  cases h : openLength items room length with
  | some l => exact ⟨l, openLength_pos opened hroom positive h, rfl⟩
  | none =>
    rw [openLength, Option.or_eq_none_iff, fillingLength_eq_none, wishes_eq_nil] at h
    obtain ⟨item, hitem, expands⟩ := expanding
    exact absurd expands (h.2 item hitem)

theorem measures_openLength : Measures items room (openLength items room length) where
  room_pos := hroom
  nonneg := by
    cases h : openLength items room length with
    | none => simp
    | some l => exact (openLength_pos opened hroom positive h).le
  asks := by
    intro aspect haspect
    obtain ⟨item, hitem, free, ratio, wide⟩ := mem_wishes.mp haspect
    obtain ⟨l, long, hl⟩ :=
      exists_openLength opened hroom positive ⟨item, hitem, free, aspect, ratio, wide⟩
    rw [hl, Option.getD_some]
    positivity

end

end SvgLayout
