import SvgLayout.Proofs.Layout.Division
import SvgLayout.Proofs.Layout.Tracks

/-!
# The ranges of a stack

The ranges of the items of a stack lie end to end from zero on and never leave the axis. They end
where the axis ends if the items claim all of it: if the sized items do, if there is a flexible one,
or if the expanding ones ask for all that remains, as they do at the length that is derived from
them. Otherwise the part of the room that no item claims is left over at the end.

## Main definitions

* `ClaimsAxis` — the items claim the whole axis.

## Main statements

* `sum_divideStack` — what the items are given together.
* `tiles_solveStack` — the ranges lie end to end.
* `solveStack_tiles` — where the last of them ends, and what the length of the stack is.
-/

namespace SvgLayout

open StackItem

variable {items : List (StackItem ℝ)} {room gap : ℝ} {length : Option ℝ}

/-- The items claim the whole axis if the expanding ones ask for `asked` together. -/
def ClaimsAxis (items : List (StackItem ℝ)) (asked : ℝ) : Prop :=
  1 ≤ sizedTotal items ∨ (∃ item ∈ items, item.Yields) ∨
    (∃ item ∈ items, item.Expands) ∧ 1 - sizedTotal items ≤ asked

/-! ## Claims -/

theorem wanted_of_forall_not_expands (silent : ∀ item ∈ items, ¬item.Expands) (room l : ℝ) :
    wanted items room l = 0 := by
  simp [wanted, wishes_eq_nil.mpr silent]

/-- If something is left to divide and no item is flexible, it is up to the expanding items. -/
theorem claimsAxis_of_rigid {asked : ℝ} (opened : IsOpen items)
    (rigid : ∀ item ∈ items, ¬item.Yields) :
    ClaimsAxis items asked ↔ 1 - sizedTotal items ≤ asked := by
  have unyielding : ¬∃ item ∈ items, item.Yields :=
    fun ⟨item, hitem, yields⟩ => rigid item hitem yields
  have expanding : ∃ item ∈ items, item.Expands := by
    obtain ⟨item, hitem, free⟩ := opened.2
    exact ⟨item, hitem, (yields_or_expands free).resolve_left (rigid item hitem)⟩
  rw [ClaimsAxis, or_iff_right (not_le.mpr opened.1), or_iff_right unyielding,
    and_iff_right expanding]

/-- If nothing is left to divide, it is up to the sized items: either they claim the axis, or there
are no others. -/
theorem claimsAxis_of_settled {asked : ℝ} (settled : ¬IsOpen items) :
    ClaimsAxis items asked ↔ 1 ≤ sizedTotal items := by
  refine ⟨?_, .inl⟩
  rintro (claimed | ⟨item, hitem, yields⟩ | ⟨⟨item, hitem, expands⟩, -⟩)
  · exact claimed
  · exact not_lt.mp fun less => settled ⟨less, item, hitem, yields.1⟩
  · exact not_lt.mp fun less => settled ⟨less, item, hitem, expands.1⟩

/-! ## Shares -/

theorem shareIn_nonneg {item : StackItem ℝ} {grow : ℝ → ℝ} {rest : ℝ}
    (sized : ∀ s ∈ item.size, 0 ≤ s) (grown : ∀ aspect, 0 < aspect → 0 ≤ grow aspect)
    (left : 0 ≤ rest) : 0 ≤ item.shareIn grow rest := by
  cases role : item.role with
  | sized s =>
    simp only [shareIn, role]
    exact sized s (role_eq_sized.mp role)
  | expanding aspect =>
    simp only [shareIn, role]
    exact grown aspect (role_eq_expanding.mp role).2.2
  | flexible => simpa only [shareIn, role] using left

section

variable (hroom : 0 < room) (positive : ∀ l ∈ length, 0 < l)

include hroom positive

/-- No item is given a negative share. -/
theorem divideStack_nonneg (sizes : ∀ item ∈ items, ∀ s ∈ item.size, 0 ≤ s) :
    ∀ share ∈ (divideStack items room length).1, 0 ≤ share := by
  by_cases opened : IsOpen items
  · have measures := measures_openLength opened hroom positive
    have left : 0 < 1 - sizedTotal items := sub_pos.mpr opened.1
    rw [divideStack_of_open opened, grownShares_eq measures left rfl, List.forall_mem_map]
    intro item hitem
    exact shareIn_nonneg (sizes item hitem) (fun _ wide => measures.granted_nonneg left wide)
      (leftOver_nonneg _ _ _ _)
  · rw [divideStack_of_settled opened, List.forall_mem_map]
    intro item hitem
    have own := share_nonneg (sizes item hitem)
    positivity

variable (items) in
/-- The items are given the whole axis if they claim it, and otherwise what they ask for. -/
theorem sum_divideStack :
    let shares := (divideStack items room length).1
    let asked := wanted items room ((divideStack items room length).2.getD 0)
    (ClaimsAxis items asked → shares.sum = 1) ∧
      (¬ClaimsAxis items asked → shares.sum = sizedTotal items + asked) := by
  intro shares asked
  by_cases opened : IsOpen items
  · have measures := measures_openLength opened hroom positive
    have left : 0 < 1 - sizedTotal items := sub_pos.mpr opened.1
    have hasked : asked = wanted items room ((openLength items room length).getD 0) := by
      simp only [asked, divideStack_of_open opened]
    have hshares : shares =
        grownShares items (1 - sizedTotal items) room (openLength items room length) := by
      simp only [shares, divideStack_of_open opened]
    rw [hshares]
    by_cases flexible : ∃ item ∈ items, item.Yields
    · refine ⟨fun _ => sum_grownShares_of_yields measures left rfl flexible, ?_⟩
      intro unclaimed
      exact absurd (.inr (.inl flexible)) unclaimed
    · have rigid : ∀ item ∈ items, ¬item.Yields := fun item hitem yields =>
        flexible ⟨item, hitem, yields⟩
      rw [claimsAxis_of_rigid opened rigid, sum_grownShares measures left rfl rigid, ← hasked,
        ← sizedTotal, not_le]
      constructor
      · intro claimed
        rw [min_eq_right claimed]
        ring
      · intro less
        rw [min_eq_left less.le]
  · have total : shares.sum = sizedTotal items / max (sizedTotal items) 1 := by
      simp only [shares, divideStack_of_settled opened, div_eq_mul_inv, List.sum_map_mul_right]
      rfl
    rw [claimsAxis_of_settled opened, total, not_le]
    constructor
    · intro full
      rw [max_eq_left full, div_self (one_pos.trans_le full).ne']
    · intro less
      have silent : ∀ item ∈ items, ¬item.Expands := fun item hitem expands =>
        opened ⟨less, item, hitem, expands.1⟩
      have nothing : asked = 0 := wanted_of_forall_not_expands silent _ _
      rw [nothing, max_eq_right less.le, div_one, add_zero]

end

/-- What is claimed is never more than the axis. -/
theorem sizedTotal_add_wanted_le {l : ℝ} (unclaimed : ¬ClaimsAxis items (wanted items room l)) :
    sizedTotal items + wanted items room l ≤ 1 := by
  simp only [ClaimsAxis, not_or, not_and, not_le] at unclaimed
  obtain ⟨left, -, less⟩ := unclaimed
  by_cases expanding : ∃ item ∈ items, item.Expands
  · linarith [less expanding]
  · have silent : ∀ item ∈ items, ¬item.Expands := fun item hitem expands =>
      expanding ⟨item, hitem, expands⟩
    rw [wanted_of_forall_not_expands silent]
    linarith

/-- The items are never given more than the axis. -/
theorem sum_divideStack_le_one (items : List (StackItem ℝ)) (hroom : 0 < room)
    (positive : ∀ l ∈ length, 0 < l) :
    (divideStack items room length).1.sum ≤ 1 := by
  obtain ⟨full, less⟩ := sum_divideStack items hroom positive
  by_cases claimed :
      ClaimsAxis items (wanted items room ((divideStack items room length).2.getD 0))
  · exact (full claimed).le
  · rw [less claimed]
    exact sizedTotal_add_wanted_le claimed

/-- At the length that is derived from them the expanding items ask for all that remains. -/
theorem wanted_fillingLength (opened : IsOpen items) (hroom : 0 < room) {l : ℝ}
    (h : fillingLength (items.filterMap wish) (1 - sizedTotal items) room = some l) :
    wanted items room l = 1 - sizedTotal items := by
  have left : 1 - sizedTotal items ≠ 0 := (sub_pos.mpr opened.1).ne'
  have long := fillingLength_pos opened hroom h
  obtain ⟨-, rfl⟩ := fillingLength_eq_some.mp h
  have sum : (items.filterMap wish).sum ≠ 0 := (div_ne_zero_iff.mp long.ne').1
  rw [wanted_eq]
  field_simp

/-! ## Ranges -/

theorem solveStack_eq (nonempty : items ≠ []) (gap : ℝ) (length : Option ℝ) :
    let spacing := Spacing.resolve gap items.length
    solveStack items gap length =
      ⟨tracks ((divideStack items spacing.room length).1.map (spacing.room * ·)) spacing.gap,
        (divideStack items spacing.room length).2⟩ := by
  have items : ¬items.isEmpty = true := by
    simpa using nonempty
  rw [solveStack, if_neg items]

/-- An open stack with expanding items has a length, at which they ask for all that remains if it is
derived from them. -/
theorem exists_length_divideStack (opened : IsOpen items) (hroom : 0 < room)
    (positive : ∀ l ∈ length, 0 < l) (expanding : ∃ item ∈ items, item.Expands) :
    ∃ l, 0 < l ∧ (divideStack items room length).2 = some l ∧
      (length = none → (∀ item ∈ items, ¬item.Fixes) →
        wanted items room l = 1 - sizedTotal items) := by
  obtain ⟨l, long, hl⟩ := exists_openLength opened hroom positive expanding
  rw [divideStack_of_open opened]
  refine ⟨l, long, hl, ?_⟩
  rintro rfl free
  rw [openLength, fittingLength_eq_none.mpr free] at hl
  exact wanted_fillingLength opened hroom hl

/-- A given length is kept. -/
theorem snd_divideStack_some {α : Type} [Scalar α] (items : List (StackItem α)) (room l : α) :
    (divideStack items room (some l)).2 = some l := by
  cases settled : isSettled items (Scalar.sum (items.map share)) with
  | true => simp [divideStack, settled]
  | false => simp [divideStack, settled]

/-- The ranges lie end to end, and leave over the part of the room that is in no share. -/
theorem tiles_solveStack (gap : ℝ) (nonempty : items ≠ [])
    (sizes : ∀ item ∈ items, ∀ s ∈ item.size, 0 ≤ s) (positive : ∀ l ∈ length, 0 < l) :
    let spacing := Spacing.resolve gap items.length
    Tiles spacing.gap (1 - spacing.room * (1 - (divideStack items spacing.room length).1.sum))
      (solveStack items gap length).ranges := by
  intro spacing
  have room : 0 < spacing.room := Spacing.room_pos gap items.length
  have count : (divideStack items spacing.room length).1.length = items.length :=
    length_divideStack items spacing.room length
  have divided : (divideStack items spacing.room length).1 ≠ [] := by
    rw [← List.length_pos_iff, count, List.length_pos_iff]
    exact nonempty
  have tiles := tiles_tracks_resolve divided (divideStack_nonneg room positive sizes) gap
  rw [count] at tiles
  rwa [solveStack_eq nonempty]

/-- A stack divides its axis into one range for each item. The ranges lie end to end from zero on,
with the gap between them if it leaves room for them, and end where the axis does if the items claim
all of it; otherwise what they do not claim of the room is left over. A given length is kept. If an
item expands into what the sized ones leave, the stack has a length in any case, and one that is
derived from the expanding items alone makes them claim all of the axis. -/
theorem solveStack_tiles (gap : ℝ) (nonempty : items ≠ [])
    (sizes : ∀ item ∈ items, ∀ s ∈ item.size, 0 ≤ s) (positive : ∀ l ∈ length, 0 < l) :
    let layout := solveStack items gap length
    let g := if gap * (items.length - 1 : ℕ) < 1 then gap else 0
    let u := 1 - g * (items.length - 1 : ℕ)
    let asked := wanted items u (layout.length.getD 0)
    layout.ranges.length = items.length ∧
      (∃ stop ≤ 1, Tiles g stop layout.ranges ∧
        (ClaimsAxis items asked → stop = 1) ∧
        (¬ClaimsAxis items asked → stop = 1 - u * (1 - sizedTotal items - asked))) ∧
      (∀ l ∈ length, layout.length = some l) ∧
      (sizedTotal items < 1 → (∃ item ∈ items, item.Expands) →
        ∃ l, 0 < l ∧ layout.length = some l ∧
          (length = none → (∀ item ∈ items, ¬item.Fixes) → asked = 1 - sizedTotal items)) := by
  intro layout g u asked
  have spacing : Spacing.resolve gap items.length = ⟨g, u⟩ := Spacing.resolve_eq gap items.length
  have room : 0 < u := by
    simpa [spacing] using Spacing.room_pos gap items.length
  have hlayout : layout = ⟨tracks ((divideStack items u length).1.map (u * ·)) g,
      (divideStack items u length).2⟩ := by
    simpa only [spacing] using solveStack_eq nonempty gap length
  have hasked : asked = wanted items u ((divideStack items u length).2.getD 0) := by
    simp only [asked, hlayout]
  have tiles := tiles_solveStack gap nonempty sizes positive
  rw [spacing] at tiles
  have part := sum_divideStack_le_one items room positive
  obtain ⟨full, less⟩ := sum_divideStack items room positive
  rw [← hasked] at full less
  refine ⟨length_ranges_solveStack items gap length, ⟨_, ?_, tiles, ?_, ?_⟩, ?_, ?_⟩
  · exact sub_le_self 1 (mul_nonneg room.le (sub_nonneg.mpr part))
  · intro claimed
    rw [full claimed]
    ring
  · intro unclaimed
    rw [less unclaimed]
    ring
  · rintro l rfl
    rw [hlayout, snd_divideStack_some]
  · intro left expanding
    have opened : IsOpen items := by
      obtain ⟨item, hitem, expands⟩ := expanding
      exact ⟨left, item, hitem, expands.1⟩
    obtain ⟨l, long, hl, derived⟩ := exists_length_divideStack opened room positive expanding
    refine ⟨l, long, by rw [hlayout, hl], ?_⟩
    rw [hasked, hl, Option.getD_some]
    exact derived

/-! ## A bookshelf -/

/-- A sized item before two that expand. -/
noncomputable def bookshelf : List (StackItem ℝ) :=
  [⟨some 0.25, none⟩, ⟨none, some 1.0⟩, ⟨none, some 2.0⟩]

theorem sizes_bookshelf : ∀ item ∈ bookshelf, ∀ s ∈ item.size, 0 ≤ s := by
  have quarter : (0 : ℝ) ≤ 0.25 := by
    norm_num [Scalar.ofScientific_eq]
  simpa [bookshelf] using quarter

theorem not_fixes_bookshelf : ∀ item ∈ bookshelf, ¬item.Fixes := by
  simp [bookshelf, Fixes]

theorem sizedTotal_bookshelf : sizedTotal bookshelf = 1 / 4 := by
  norm_num [sizedTotal, bookshelf, StackItem.share, Scalar.ofScientific_eq]

theorem wishes_bookshelf : bookshelf.filterMap wish = [1, 2] := by
  have first : wish ⟨none, some (1 : ℝ)⟩ = some 1 := wish_eq_some.mpr ⟨rfl, rfl, one_pos⟩
  have second : wish ⟨none, some (2 : ℝ)⟩ = some 2 := wish_eq_some.mpr ⟨rfl, rfl, two_pos⟩
  rw [bookshelf, Scalar.literal_one, Scalar.literal_two, List.filterMap_cons_none rfl,
    List.filterMap_cons_some first, List.filterMap_cons_some second, List.filterMap_nil]

theorem expands_bookshelf : ∃ item ∈ bookshelf, item.Expands :=
  ⟨⟨none, some 1⟩, by simp [bookshelf], rfl, 1, rfl, one_pos⟩

/-- The expanding items of the bookshelf fill it at the length that is derived from them, and leave
a part of a longer one. -/
theorem solveStack_tiles_bookshelf :
    bookshelf ≠ [] ∧ (∀ item ∈ bookshelf, ∀ s ∈ item.size, 0 ≤ s) ∧
      (∀ l ∈ some (10 : ℝ), 0 < l) ∧
      Tiles (1 / 10) 1 (solveStack bookshelf (1 / 10) none).ranges ∧
      Tiles (1 / 10) (7 / 10) (solveStack bookshelf (1 / 10) (some 10)).ranges := by
  have nonempty : bookshelf ≠ [] := by simp [bookshelf]
  have long : ∀ l ∈ some (10 : ℝ), 0 < l := by simp
  have none_pos : ∀ l ∈ (none : Option ℝ), 0 < l := by simp
  have gaps : ((bookshelf.length - 1 : ℕ) : ℝ) = 2 := by simp [bookshelf]
  have kept : (if (1 / 10 : ℝ) * 2 < 1 then 1 / 10 else 0 : ℝ) = 1 / 10 := by norm_num
  have unsized : sizedTotal bookshelf < 1 := by
    rw [sizedTotal_bookshelf]
    norm_num
  refine ⟨nonempty, sizes_bookshelf, long, ?_, ?_⟩
  · obtain ⟨-, ⟨stop, -, tiles, full, -⟩, -, derived⟩ :=
      solveStack_tiles (1 / 10) nonempty sizes_bookshelf none_pos
    obtain ⟨_, -, -, asked⟩ := derived unsized expands_bookshelf
    have claimed := asked rfl not_fixes_bookshelf
    rw [gaps, kept] at tiles
    rwa [full (.inr (.inr ⟨expands_bookshelf, claimed.ge⟩))] at tiles
  · obtain ⟨-, ⟨stop, -, tiles, -, less⟩, given, -⟩ :=
      solveStack_tiles (1 / 10) nonempty sizes_bookshelf long
    rw [given 10 rfl, gaps, kept, Option.getD_some] at less
    have asked : wanted bookshelf (1 - 1 / 10 * 2) 10 = 3 / 8 := by
      rw [wanted_eq, wishes_bookshelf]
      norm_num
    have unclaimed : ¬ClaimsAxis bookshelf (3 / 8) := by
      have rigid : ¬∃ item ∈ bookshelf, item.Yields := by simp [bookshelf, Yields]
      rw [ClaimsAxis, sizedTotal_bookshelf, or_iff_right rigid]
      norm_num
    rw [asked, sizedTotal_bookshelf] at less
    rw [gaps, kept] at tiles
    have stop_eq := less unclaimed
    norm_num at stop_eq
    rwa [stop_eq] at tiles

end SvgLayout
