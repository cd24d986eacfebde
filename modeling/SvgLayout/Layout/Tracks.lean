import SvgLayout.Geometry.Rect

/-!
# Tracks

Intervals of one axis laid end to end from zero, with a gap between neighbours.

## Main definitions

* `Spacing`, `Spacing.resolve` — the gap between tracks, and the room that is left for them.
* `tracks` — the intervals of given sizes.
-/

namespace SvgLayout

variable {α : Type} [Scalar α]

/-- How the unit axis is divided between gaps and tracks: one gap, and the room that the tracks
share. -/
structure Spacing (α : Type) where
  gap : α
  room : α

/-- A gap between each two of `count` tracks. Gaps that would leave no room are dropped. -/
def Spacing.resolve (gap : α) (count : Nat) : Spacing α :=
  let room := 1.0 - gap * ((count - 1 : Nat) : α)
  if room ≤ 0.0 then ⟨0.0, 1.0⟩ else ⟨gap, room⟩

/-- Tracks of the given sizes, the first of which starts at `start`. -/
def tracksFrom (start gap : α) : List α → List (Limit α)
  | [] => []
  | size :: sizes =>
    let stop := start + size
    ⟨start, stop⟩ :: tracksFrom (stop + gap) gap sizes

/-- Tracks of the given sizes from zero on. -/
def tracks (sizes : List α) (gap : α) : List (Limit α) :=
  tracksFrom 0.0 gap sizes

theorem length_tracksFrom (start gap : α) (sizes : List α) :
    (tracksFrom start gap sizes).length = sizes.length := by
  induction sizes generalizing start with
  | nil => rfl
  | cons size sizes ih => simp [tracksFrom, ih]

/-- There is one track for each size. -/
@[simp] theorem length_tracks (sizes : List α) (gap : α) :
    (tracks sizes gap).length = sizes.length :=
  length_tracksFrom 0.0 gap sizes

end SvgLayout
