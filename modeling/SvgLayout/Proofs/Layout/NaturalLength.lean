import SvgLayout.Proofs.Layout.StackRanges

/-!
# The natural length of a stack

The length that a stack derives from its items is the largest one at which no item is bound by the
cross axis: every item of a positive ratio spans its whole range, and one of them spans the cross
axis as well. If sized items determine the length it is the shortest that any of them fits; the
expanding ones are cut back to it. If only expanding items do, all of them fit exactly.

## Main definitions

* `SpansRange`, `FitsRange` — how an item of a ratio lies in its range.
* `SharesFit` — shares at which the first holds of every item and the second of one.

## Main statements

* `spans_of_open` — no item is bound by the cross axis.
* `sharesFit_of_settled`, `sharesFit_of_fitting`, `sharesFit_of_filling` — shares fit the length,
  in each of the ways in which it is determined.
* `solveStack_length_fits` — the length of a stack, and when there is none.
-/

namespace SvgLayout

open StackItem

variable {items : List (StackItem ℝ)} {room l : ℝ}

/-- In a stack of length `l` the range is not longer than an item of a positive ratio gets by
spanning the cross axis, so that the item spans the range. -/
def SpansRange (l : ℝ) (item : StackItem ℝ) (range : Limit ℝ) : Prop :=
  ∀ aspect ∈ item.aspect, 0 < aspect → (range.hi - range.lo) * l ≤ aspect

/-- In a stack of length `l` an item of a positive ratio spans both its range and the cross axis. -/
def FitsRange (l : ℝ) (item : StackItem ℝ) (range : Limit ℝ) : Prop :=
  ∃ aspect ∈ item.aspect, 0 < aspect ∧ (range.hi - range.lo) * l = aspect

/-! ## Shares -/

/-- A share that is no longer than its item can fill is not too long. -/
theorem mul_share_le {share aspect : ℝ} (hroom : 0 < room) (nonneg : 0 ≤ share)
    (wide : 0 < aspect) (bound : 0 < share → l ≤ aspect / (room * share)) :
    room * share * l ≤ aspect := by
  rcases nonneg.eq_or_lt with rfl | positive
  · rw [mul_zero, zero_mul]
    exact wide.le
  · rw [mul_comm, ← le_div_iff₀ (mul_pos hroom positive)]
    exact bound positive

theorem fixes_scaleShare {item : StackItem ℝ} {scale : ℝ} (positive : 0 < scale) :
    (item.scaleShare scale).Fixes ↔ item.Fixes := by
  rw [fixes_iff, fixes_iff, share_scaleShare, div_pos_iff_of_pos_right positive]
  rfl

/-- The shares of items leave all of them at least as wide as long at a length, in terms of their
ratios, and one of them exactly so. -/
structure SharesFit (items : List (StackItem ℝ)) (room l : ℝ) (f : StackItem ℝ → ℝ) : Prop where
  pos : 0 < l
  spans : ∀ item ∈ items, ∀ aspect ∈ item.aspect, 0 < aspect → room * f item * l ≤ aspect
  fits : ∃ item ∈ items, ∃ aspect ∈ item.aspect, 0 < aspect ∧ room * f item * l = aspect

section

variable (hroom : 0 < room) (sizes : ∀ item ∈ items, ∀ s ∈ item.size, 0 ≤ s)

include hroom sizes

/-- If nothing is left to divide, the length is the one that the scaled items determine. -/
theorem sharesFit_of_settled {scale : ℝ} (positive : 0 < scale)
    (h : fittingLength (items.map (scaleShare scale)) room = some l) :
    SharesFit items room l fun item => item.share / scale := by
  have long := fittingLength_pos hroom h
  obtain ⟨exact, bound⟩ := fittingLength_eq_some h
  simp only [List.forall_mem_map, share_scaleShare] at bound
  refine ⟨long, ?_, ?_⟩
  · intro item hitem aspect ratio wide
    have own := share_nonneg (sizes item hitem)
    exact mul_share_le hroom (by positivity) wide fun sized =>
      bound item hitem sized aspect ratio wide
  · obtain ⟨_, mem, sized, aspect, ratio, wide, rfl⟩ := exact
    obtain ⟨item, hitem, rfl⟩ := List.mem_map.mp mem
    rw [share_scaleShare] at sized ⊢
    exact ⟨item, hitem, aspect, ratio, wide, mul_div_cancel₀ _ (mul_pos hroom sized).ne'⟩

/-- If something is left to divide, no item is bound by the cross axis at a length that the sized
items fit. The expanding ones are cut back to it. -/
theorem spans_of_open (long : 0 < l)
    (bound : ∀ item ∈ items, 0 < item.share → ∀ aspect ∈ item.aspect, 0 < aspect →
      l ≤ aspect / (room * item.share)) (remaining rest : ℝ) :
    ∀ item ∈ items, ∀ aspect ∈ item.aspect, 0 < aspect →
      room * shareIn (granted items remaining room l) rest item * l ≤ aspect := by
  intro item hitem aspect ratio wide
  cases role : item.role with
  | sized s =>
    have own : item.share = s := by
      simp [StackItem.share, role_eq_sized.mp role]
    simp only [shareIn, role]
    rw [← own]
    exact mul_share_le hroom (share_nonneg (sizes item hitem)) wide fun sized =>
      bound item hitem sized aspect ratio wide
  | expanding a =>
    obtain ⟨-, same, -⟩ := role_eq_expanding.mp role
    obtain rfl : aspect = a := Option.some.inj (ratio.symm.trans same)
    have part : min 1 (remaining / wanted items room l) ≤ 1 := min_le_left _ _
    have whole : room * granted items remaining room l aspect * l =
        aspect * min 1 (remaining / wanted items room l) := by
      rw [granted]
      field_simp
    simp only [shareIn, role]
    rw [whole]
    exact mul_le_of_le_one_right wide.le part
  | flexible =>
    obtain ⟨-, narrow⟩ := role_eq_flexible.mp role
    exact absurd wide (not_lt.mpr (narrow aspect ratio))

/-- So it is at the length that the sized items determine, and one of them fits exactly. -/
theorem sharesFit_of_fitting (h : fittingLength items room = some l) (remaining rest : ℝ) :
    SharesFit items room l (shareIn (granted items remaining room l) rest) := by
  have long := fittingLength_pos hroom h
  obtain ⟨exact, bound⟩ := fittingLength_eq_some h
  refine ⟨long, spans_of_open hroom sizes long bound remaining rest, ?_⟩
  obtain ⟨item, hitem, sized, aspect, ratio, wide, rfl⟩ := exact
  obtain ⟨share, size, positive⟩ : ∃ s, item.size = some s ∧ 0 < s := by
    cases size : item.size with
    | none => simp [StackItem.share, size] at sized
    | some s => exact ⟨s, rfl, by simpa [StackItem.share, size] using sized⟩
  refine ⟨item, hitem, aspect, ratio, wide, ?_⟩
  have own : item.share = share := by
    simp [StackItem.share, size]
  simp only [shareIn, role_eq_sized.mpr size, own]
  exact mul_div_cancel₀ _ (mul_pos hroom positive).ne'

variable (opened : IsOpen items)

include opened

omit sizes in
/-- At the length that is derived from the expanding items each of them fits exactly. -/
theorem fits_of_filling
    (h : fillingLength (items.filterMap wish) (1 - sizedTotal items) room = some l) (rest : ℝ)
    {item : StackItem ℝ} {aspect : ℝ} (role : item.role = .expanding aspect) :
    room * shareIn (granted items (1 - sizedTotal items) room l) rest item * l = aspect := by
  have long := fillingLength_pos opened hroom h
  have left : 1 - sizedTotal items ≠ 0 := (sub_pos.mpr opened.1).ne'
  have whole : min 1 ((1 - sizedTotal items) / wanted items room l) = 1 := by
    rw [wanted_fillingLength opened hroom h, div_self left, min_self]
  simp only [shareIn, role, granted, whole]
  field_simp

/-- No item is bound by the cross axis there. -/
theorem sharesFit_of_filling (free : ∀ item ∈ items, ¬item.Fixes)
    (h : fillingLength (items.filterMap wish) (1 - sizedTotal items) room = some l) (rest : ℝ) :
    SharesFit items room l (shareIn (granted items (1 - sizedTotal items) room l) rest) := by
  have long := fillingLength_pos opened hroom h
  have bound : ∀ item ∈ items, 0 < item.share → ∀ aspect ∈ item.aspect, 0 < aspect →
      l ≤ aspect / (room * item.share) := by
    intro item hitem sized aspect ratio wide
    exact absurd (fixes_iff.mpr ⟨sized, aspect, ratio, wide⟩) (free item hitem)
  refine ⟨long, spans_of_open hroom sizes long bound _ rest, ?_⟩
  obtain ⟨aspect, haspect⟩ := List.exists_mem_of_ne_nil _ (fillingLength_eq_some.mp h).1
  obtain ⟨item, hitem, size, ratio, wide⟩ := mem_wishes.mp haspect
  exact ⟨item, hitem, aspect, ratio, wide,
    fits_of_filling hroom opened h rest (role_eq_expanding.mpr ⟨size, ratio, wide⟩)⟩

omit opened

/-- Without a given length, a stack that has one is divided into shares that fit it. -/
theorem exists_sharesFit (h : (divideStack items room none).2 = some l) :
    ∃ f, (divideStack items room none).1 = items.map f ∧ SharesFit items room l f ∧
      ((∀ item ∈ items, ¬item.Fixes) → ∀ item ∈ items, ∀ aspect, item.role = .expanding aspect →
        sizedTotal items < 1 → room * f item * l = aspect) := by
  by_cases opened : IsOpen items
  · have none_pos : ∀ l ∈ (none : Option ℝ), 0 < l := by simp
    have measures := measures_openLength opened hroom none_pos
    have left : 0 < 1 - sizedTotal items := sub_pos.mpr opened.1
    rw [divideStack_of_open opened] at h ⊢
    replace h : openLength items room none = some l := h
    refine ⟨_, grownShares_eq measures left rfl, ?_, ?_⟩
    · rw [h, Option.getD_some]
      rw [openLength, Option.none_or, Option.or_eq_some_iff] at h
      rcases h with fitting | ⟨free, filling⟩
      · exact sharesFit_of_fitting hroom sizes fitting _ _
      · rw [fittingLength_eq_none] at free
        exact sharesFit_of_filling hroom sizes opened free filling _
    · intro free item _ aspect role _
      rw [h, Option.getD_some]
      rw [openLength, Option.none_or, fittingLength_eq_none.mpr free, Option.none_or] at h
      exact fits_of_filling hroom opened h _ role
  · have positive : 0 < max (sizedTotal items) 1 := lt_max_of_lt_right one_pos
    rw [divideStack_of_settled opened] at h ⊢
    refine ⟨_, rfl, sharesFit_of_settled hroom sizes positive h, ?_⟩
    intro _ item hitem aspect role less
    exact absurd ⟨less, item, hitem, (role_eq_expanding.mp role).1⟩ opened

end

/-- A stack has no length of its own if nothing determines one. -/
theorem snd_divideStack_eq_none :
    (divideStack items room none).2 = none ↔ (∀ item ∈ items, ¬item.Fixes) ∧
      ((∀ item ∈ items, ¬item.Expands) ∨ 1 ≤ sizedTotal items) := by
  by_cases opened : IsOpen items
  · have less : ¬1 ≤ sizedTotal items := not_le.mpr opened.1
    rw [divideStack_of_open opened, openLength, Option.none_or, Option.or_eq_none_iff,
      fittingLength_eq_none, fillingLength_eq_none, wishes_eq_nil, or_iff_left less]
  · have positive : 0 < max (sizedTotal items) 1 := lt_max_of_lt_right one_pos
    have taken : (∀ item ∈ items, ¬item.Expands) ∨ 1 ≤ sizedTotal items := by
      by_contra left
      rw [not_or, not_le] at left
      obtain ⟨expanding, less⟩ := left
      refine expanding fun item hitem expands => opened ⟨less, item, hitem, expands.1⟩
    rw [divideStack_of_settled opened, Option.none_or, fittingLength_eq_none, and_iff_left taken]
    simp only [List.forall_mem_map, fixes_scaleShare positive]

/-! ## Ranges -/

/-- Ranges are as long as the shares of their items of the room. -/
theorem forall₂_ranges {gap : ℝ} {length : Option ℝ} {f : StackItem ℝ → ℝ} (nonempty : items ≠ [])
    (shares : (divideStack items (Spacing.resolve gap items.length).room length).1 = items.map f) :
    List.Forall₂
      (fun item range => range.hi - range.lo = (Spacing.resolve gap items.length).room * f item)
      items (solveStack items gap length).ranges := by
  have lengths : (solveStack items gap length).ranges.map Limit.length =
      items.map fun item => (Spacing.resolve gap items.length).room * f item := by
    rw [solveStack_eq nonempty, shares, map_length_tracks, List.map_map]
    rfl
  rw [← List.forall₂_eq_eq_eq, List.forall₂_map_left_iff, List.forall₂_map_right_iff] at lengths
  exact lengths.flip

/-- Every entry of a list stands beside one of a list of the same length. -/
theorem exists_mem_zip {α β : Type} {xs : List α} {ys : List β} (count : xs.length = ys.length)
    {x : α} (h : x ∈ xs) : ∃ y, (x, y) ∈ xs.zip ys := by
  obtain ⟨i, hi, rfl⟩ := List.getElem_of_mem h
  refine ⟨ys[i], ?_⟩
  rw [← List.getElem_zip (h := by simpa [← count] using hi)]
  exact List.getElem_mem _

/-- The length that a stack derives from its items is positive and never starves one of them of its
cross axis: every item of a positive ratio spans its range, and one of them fits it exactly. If only
expanding items determine the length, all of them do. There is no length exactly if no item has both
a share and a ratio, and no item expands into what the sized ones leave. -/
theorem solveStack_length_fits (gap : ℝ) (sizes : ∀ item ∈ items, ∀ s ∈ item.size, 0 ≤ s) :
    let layout := solveStack items gap none
    (∀ l, layout.length = some l →
      0 < l ∧ List.Forall₂ (SpansRange l) items layout.ranges ∧
        (∃ seat ∈ items.zip layout.ranges, FitsRange l seat.1 seat.2) ∧
        ((∀ item ∈ items, ¬item.Fixes) → sizedTotal items < 1 →
          ∀ seat ∈ items.zip layout.ranges, seat.1.Expands → FitsRange l seat.1 seat.2)) ∧
      (layout.length = none ↔ (∀ item ∈ items, ¬item.Fixes) ∧
        ((∀ item ∈ items, ¬item.Expands) ∨ 1 ≤ sizedTotal items)) := by
  intro layout
  cases empty : items.isEmpty with
  | true =>
    have nothing : layout = ⟨[], none⟩ := if_pos empty
    rw [List.isEmpty_iff.mp empty, nothing]
    simp
  | false =>
    have nonempty : items ≠ [] := by
      rintro rfl
      cases empty
    have room : 0 < (Spacing.resolve gap items.length).room :=
      Spacing.room_pos gap items.length
    have length : layout.length =
        (divideStack items (Spacing.resolve gap items.length).room none).2 := by
      simp only [layout, solveStack_eq nonempty]
    rw [length]
    refine ⟨?_, snd_divideStack_eq_none⟩
    intro l hl
    obtain ⟨f, shares, fit, derived⟩ := exists_sharesFit room sizes hl
    obtain ⟨count, long⟩ := List.forall₂_iff_zip.mp (forall₂_ranges nonempty shares)
    refine ⟨fit.pos, List.forall₂_iff_zip.mpr ⟨count, ?_⟩, ?_, ?_⟩
    · intro item range hzip aspect ratio wide
      rw [long hzip]
      exact fit.spans item (List.of_mem_zip hzip).1 aspect ratio wide
    · obtain ⟨item, hitem, aspect, ratio, wide, exact⟩ := fit.fits
      obtain ⟨range, hzip⟩ := exists_mem_zip count hitem
      refine ⟨(item, range), hzip, aspect, ratio, wide, ?_⟩
      rw [long hzip]
      exact exact
    · rintro free left ⟨item, range⟩ hzip ⟨size, aspect, ratio, wide⟩
      refine ⟨aspect, ratio, wide, ?_⟩
      rw [long hzip]
      exact derived free item (List.of_mem_zip hzip).1 aspect
        (role_eq_expanding.mpr ⟨size, ratio, wide⟩) left

/-! ## A gallery -/

/-- A picture with a share of its own, one that expands, and a flexible bench. -/
noncomputable def gallery : List (StackItem ℝ) :=
  [⟨some 0.5, some 1.0⟩, ⟨none, some 0.5⟩, ⟨none, none⟩]

/-- The first picture determines the length of the gallery. The length of the bookshelf is derived
from the items that expand, and each of them fits it. -/
theorem solveStack_length_fits_gallery :
    (∀ item ∈ gallery, ∀ s ∈ item.size, 0 ≤ s) ∧ (∀ item ∈ bookshelf, ∀ s ∈ item.size, 0 ≤ s) ∧
      (∃ l, (solveStack gallery (1 / 10) none).length = some l ∧ 0 < l ∧
        List.Forall₂ (SpansRange l) gallery (solveStack gallery (1 / 10) none).ranges) ∧
      ∃ l, (solveStack bookshelf (1 / 10) none).length = some l ∧
        ∀ seat ∈ bookshelf.zip (solveStack bookshelf (1 / 10) none).ranges,
          seat.1.Expands → FitsRange l seat.1 seat.2 := by
  have pictures : ∀ item ∈ gallery, ∀ s ∈ item.size, 0 ≤ s := by simp [gallery]
  refine ⟨pictures, sizes_bookshelf, ?_, ?_⟩
  · obtain ⟨fits, unsettled⟩ := solveStack_length_fits (1 / 10) pictures
    have fixed : ¬∀ item ∈ gallery, ¬item.Fixes := by simp [gallery, Fixes]
    obtain ⟨l, hl⟩ := Option.ne_none_iff_exists'.mp fun undetermined =>
      fixed (unsettled.mp undetermined).1
    exact ⟨l, hl, (fits l hl).1, (fits l hl).2.1⟩
  · obtain ⟨fits, unsettled⟩ := solveStack_length_fits (1 / 10) sizes_bookshelf
    have less : sizedTotal bookshelf < 1 := by
      rw [sizedTotal_bookshelf]
      norm_num
    have taken : ¬((∀ item ∈ bookshelf, ¬item.Expands) ∨ 1 ≤ sizedTotal bookshelf) := by
      rw [not_or, not_le]
      exact ⟨fun rigid => expands_bookshelf.elim fun item h => rigid item h.1 h.2, less⟩
    obtain ⟨l, hl⟩ := Option.ne_none_iff_exists'.mp fun undetermined =>
      taken (unsettled.mp undetermined).2
    exact ⟨l, hl, (fits l hl).2.2.2 not_fixes_bookshelf less⟩

end SvgLayout
