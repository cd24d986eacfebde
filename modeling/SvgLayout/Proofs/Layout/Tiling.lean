import SvgLayout.Proofs.Scalar.Real
import SvgLayout.Layout.Tracks

/-!
# Tracks laid end to end

Tracks are as long as they are asked to be, and each of them starts one gap behind the one before
it. Of the axis they leave over exactly the part of the room that their shares do not claim.

## Main definitions

* `Tiles` — intervals that lie end to end from zero on.

## Main statements

* `map_length_tracks` — tracks are as long as they are asked to be.
* `tiles_tracks` — they lie end to end.
* `tiles_tracks_resolve` — where the last of them ends, if they are given shares of the room.
-/

namespace SvgLayout

/-! ## Lengths -/

theorem map_length_tracksFrom (start gap : ℝ) (sizes : List ℝ) :
    (tracksFrom start gap sizes).map Limit.length = sizes := by
  induction sizes generalizing start with
  | nil => rfl
  | cons size sizes ih =>
    have length : start + size - start = size := by ring
    simp [tracksFrom, Limit.length, length, ih]

/-- Tracks are as long as they are asked to be. -/
theorem map_length_tracks (sizes : List ℝ) (gap : ℝ) :
    (tracks sizes gap).map Limit.length = sizes :=
  map_length_tracksFrom _ gap sizes

/-! ## Ends -/

/-- Intervals that lie end to end from zero to `stop`, with a gap between neighbours. -/
structure Tiles (gap stop : ℝ) (ranges : List (Limit ℝ)) : Prop where
  start : ranges.head?.map Limit.lo = some 0
  stop : ranges.getLast?.map Limit.hi = some stop
  ordered : ∀ range ∈ ranges, range.lo ≤ range.hi
  spaced : ranges.IsChain fun before after => after.lo = before.hi + gap

section

variable (start gap : ℝ)

theorem head?_tracksFrom (size : ℝ) (sizes : List ℝ) :
    (tracksFrom start gap (size :: sizes)).head?.map Limit.lo = some start :=
  rfl

/-- The last track ends behind all sizes and the gaps between them. -/
theorem getLast?_tracksFrom (size : ℝ) (sizes : List ℝ) :
    (tracksFrom start gap (size :: sizes)).getLast?.map Limit.hi =
      some (start + (size :: sizes).sum + gap * sizes.length) := by
  induction sizes generalizing start size with
  | nil => simp [tracksFrom]
  | cons next sizes ih =>
    have last : (tracksFrom start gap (size :: next :: sizes)).getLast? =
        (tracksFrom (start + size + gap) gap (next :: sizes)).getLast? := rfl
    rw [last, ih]
    simp only [List.sum_cons, List.length_cons, Nat.cast_add, Nat.cast_one]
    congr 1
    ring

theorem ordered_tracksFrom {sizes : List ℝ} (nonneg : ∀ size ∈ sizes, 0 ≤ size) :
    ∀ range ∈ tracksFrom start gap sizes, range.lo ≤ range.hi := by
  induction sizes generalizing start with
  | nil => simp [tracksFrom]
  | cons size sizes ih =>
    obtain ⟨first, rest⟩ := List.forall_mem_cons.mp nonneg
    rw [tracksFrom, List.forall_mem_cons]
    exact ⟨le_add_of_nonneg_right first, ih _ rest⟩

theorem isChain_tracksFrom (sizes : List ℝ) :
    (tracksFrom start gap sizes).IsChain fun before after => after.lo = before.hi + gap := by
  induction sizes generalizing start with
  | nil => exact .nil
  | cons size sizes ih =>
    rw [tracksFrom, List.isChain_cons]
    refine ⟨?_, ih _⟩
    cases sizes with
    | nil => simp [tracksFrom]
    | cons next sizes => simp [tracksFrom]

end

/-- Tracks lie end to end. -/
theorem tiles_tracks {sizes : List ℝ} (nonempty : sizes ≠ []) (nonneg : ∀ size ∈ sizes, 0 ≤ size)
    (gap : ℝ) : Tiles gap (sizes.sum + gap * (sizes.length - 1 : ℕ)) (tracks sizes gap) := by
  obtain ⟨size, sizes, rfl⟩ := List.exists_cons_of_ne_nil nonempty
  rw [tracks, Scalar.literal_zero]
  refine ⟨head?_tracksFrom 0 gap size sizes, ?_, ordered_tracksFrom 0 gap nonneg,
    isChain_tracksFrom 0 gap _⟩
  rw [getLast?_tracksFrom, zero_add]
  rfl

/-! ## Room -/

/-- Gaps are kept if they leave room for the tracks. -/
theorem Spacing.resolve_eq (gap : ℝ) (count : ℕ) :
    let kept := if gap * (count - 1 : ℕ) < 1 then gap else 0
    Spacing.resolve gap count = ⟨kept, 1 - kept * (count - 1 : ℕ)⟩ := by
  intro kept
  simp only [Spacing.resolve, Scalar.literal_one, Scalar.literal_zero, kept]
  by_cases room : gap * (count - 1 : ℕ) < 1
  · rw [if_neg (by linarith), if_pos room]
  · rw [if_pos (by linarith), if_neg room]
    simp

/-- There is always room for the tracks. -/
theorem Spacing.room_pos (gap : ℝ) (count : ℕ) : 0 < (Spacing.resolve gap count).room := by
  rw [resolve_eq]
  by_cases room : gap * (count - 1 : ℕ) < 1
  · rw [if_pos room]
    linarith
  · rw [if_neg room]
    norm_num

/-- Tracks that are given shares of the room leave over the part of it that is in no share. -/
theorem tiles_tracks_resolve {shares : List ℝ} (nonempty : shares ≠ [])
    (nonneg : ∀ share ∈ shares, 0 ≤ share) (gap : ℝ) :
    let spacing := Spacing.resolve gap shares.length
    Tiles spacing.gap (1 - spacing.room * (1 - shares.sum))
      (tracks (shares.map (spacing.room * ·)) spacing.gap) := by
  intro spacing
  have room : 0 < spacing.room := Spacing.room_pos gap shares.length
  have sizes : ∀ size ∈ shares.map (spacing.room * ·), 0 ≤ size := by
    rw [List.forall_mem_map]
    intro share hshare
    exact mul_nonneg room.le (nonneg share hshare)
  have tiles := tiles_tracks (by simpa using nonempty) sizes spacing.gap
  have whole : spacing.room = 1 - spacing.gap * (shares.length - 1 : ℕ) := by
    simp only [spacing, Spacing.resolve_eq]
  rw [List.sum_map_mul_left, List.map_id', List.length_map] at tiles
  convert tiles using 1
  linear_combination -whole

end SvgLayout
