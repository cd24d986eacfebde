import SvgLayout.Proofs.Geometry.TurnedFit
import SvgLayout.Context

/-!
# Where a turned child is drawn

A child that is turned is fitted so that its bounding box is no larger than its slot. The alignment
is measured, however, on the box that the child has before it is turned, and so the bounding box may
stick out of the slot that it would fit in. It lies in the slot exactly if the alignment leaves
enough space on every side for what the box gains there by being turned, as a centred alignment
always does.

## Main definitions

* `Context.turnedBounds` — the bounding box of a turned child.
* `TurnedPlacement` — a child that is fitted as a turned box.
* `LeavesRoom` — the alignment leaves enough space on an axis.

## Main statements

* `Context.turnedBounds_within_iff` — how large the bounding box is, and when it lies in the slot.
* `Context.alignedBanner_overflows` — a bounding box that sticks out of a slot of its own size.
-/

namespace SvgLayout

/-! ## Bounding boxes -/

section

variable {α : Type} [Scalar α]

/-- The upright box around a child that is turned about its centre. -/
def Context.turnedBounds (parent : Context α) (spec : Spec α) : Rect α :=
  let pixels := (parent.child spec).pixels
  (CenterBox.mk pixels.center (rotatedBounds pixels.size spec.rotate)).toRect

/-- An upright rectangle lies in another one. -/
def Rect.Within (r s : Rect α) : Prop :=
  (s.x1 ≤ r.x1 ∧ r.x2 ≤ s.x2) ∧ s.y1 ≤ r.y1 ∧ r.y2 ≤ s.y2

/-- On an axis where a box grows from `fit` to `bounds` by being turned, half of the growth is at
most the space that the alignment leaves on either side of the box in its slot. -/
def LeavesRoom (align slot fit bounds : α) : Prop :=
  (bounds - fit) / 2.0 ≤ align * (slot - fit) ∧
    (bounds - fit) / 2.0 ≤ (1.0 - align) * (slot - fit)

end

open Extended

/-- A child of a context that is fitted as a turned box and never made larger than its slot, where
every coordinate is a real number and a ratio, if there is one, is positive. -/
structure TurnedPlacement (ctx : Context Extended) (spec : Spec Extended) : Prop where
  pixels : ctx.pixels.isFinite = true
  coord : ctx.coord.isFinite = true
  rect : ∀ r ∈ spec.rect, r.isFinite = true
  rotated : spec.isRotated = true
  rotate : Scalar.isFinite spec.rotate = true
  shrinks : spec.expand = false
  aspect : ∀ a ∈ spec.fixedAspect, Scalar.isPositive a = true
  alignX : Scalar.isFinite spec.align.x = true
  alignY : Scalar.isFinite spec.align.y = true

/-! ## Real coordinates -/

namespace Extended

theorem isFinite_rect {r : Rect Extended} (h : r.isFinite = true) :
    ∃ x1 y1 x2 y2, r = ⟨real x1, real y1, real x2, real y2⟩ := by
  simp only [Rect.isFinite, Bool.and_eq_true, isFinite_iff] at h
  obtain ⟨⟨⟨⟨x1, hx1⟩, y1, hy1⟩, x2, hx2⟩, y2, hy2⟩ := h
  exact ⟨x1, y1, x2, y2, Rect.ext hx1 hy1 hx2 hy2⟩

/-- The map between two real intervals takes real numbers to real numbers, also if the first one is
empty. -/
theorem exists_apply (lo hi start stop : ℝ) :
    ∃ f : ℝ → ℝ, ∀ x, (AxisMap.between ⟨real lo, real hi⟩ ⟨real start, real stop⟩).apply (real x) =
      real (f x) := by
  by_cases empty : hi - lo = 0
  · refine ⟨fun _ => (start + stop) / 2, fun x => ?_⟩
    simp [AxisMap.between, AxisMap.apply, Limit.length, Limit.middle, empty, real_div]
  · refine ⟨fun x => start + (x - lo) * ((stop - start) / (hi - lo)), fun x => ?_⟩
    simp [AxisMap.between, AxisMap.apply, Limit.length, empty, real_div]

/-- A real rectangle of a real context covers real pixels. -/
theorem exists_mapRect {ctx : Context Extended} {r : Rect Extended}
    (pixels : ctx.pixels.isFinite = true) (coord : ctx.coord.isFinite = true)
    (rect : r.isFinite = true) :
    ∃ x1 y1 x2 y2, ctx.mapRect r = ⟨real x1, real y1, real x2, real y2⟩ := by
  obtain ⟨px1, py1, px2, py2, hp⟩ := isFinite_rect pixels
  obtain ⟨cx1, cy1, cx2, cy2, hc⟩ := isFinite_rect coord
  obtain ⟨x1, y1, x2, y2, rfl⟩ := isFinite_rect rect
  obtain ⟨f, hf⟩ := exists_apply cx1 cx2 px1 px2
  obtain ⟨g, hg⟩ := exists_apply cy1 cy2 py1 py2
  refine ⟨f x1, g y1, f x2, g y2, ?_⟩
  simp only [Context.mapRect, Context.xMap, Context.yMap, Rect.xLimit, Rect.yLimit, hp, hc, hf, hg]

/-- So does the slot of a child whose rectangle is real, if it has one. -/
theorem exists_slot {ctx : Context Extended} {spec : Spec Extended}
    (pixels : ctx.pixels.isFinite = true) (coord : ctx.coord.isFinite = true)
    (rect : ∀ r ∈ spec.rect, r.isFinite = true) :
    ∃ x1 y1 x2 y2, ctx.slot spec = ⟨real x1, real y1, real x2, real y2⟩ := by
  apply exists_mapRect pixels coord
  cases given : spec.rect with
  | none => exact coord
  | some r => exact rect r given

theorem toRect_real (x y w h : ℝ) :
    (CenterBox.mk ⟨real x, real y⟩ ⟨real w, real h⟩).toRect =
      ⟨real (x - w / 2), real (y - h / 2), real (x + w / 2), real (y + h / 2)⟩ := by
  simp [CenterBox.toRect, real_div]

/-- The rectangle of a real size around a real centre has that centre and that size. -/
theorem center_toRect_real (x y w h : ℝ) :
    (CenterBox.mk ⟨real x, real y⟩ ⟨real w, real h⟩).toRect.center = ⟨real x, real y⟩ := by
  rw [toRect_real]
  simp [Rect.center, real_div]

theorem size_toRect_real (x y w h : ℝ) :
    (CenterBox.mk ⟨real x, real y⟩ ⟨real w, real h⟩).toRect.size = ⟨real w, real h⟩ := by
  have hw : x + w / 2 - (x - w / 2) = w := by ring
  have hh : y + h / 2 - (y - h / 2) = h := by ring
  rw [toRect_real]
  simp [Rect.size, Rect.width, Rect.height, hw, hh]

end Extended

/-! ## One axis -/

theorem leavesRoom_real {align slot fit bounds : ℝ} :
    LeavesRoom (real align) (real slot) (real fit) (real bounds) ↔
      (bounds - fit) / 2 ≤ align * (slot - fit) ∧
        (bounds - fit) / 2 ≤ (1 - align) * (slot - fit) := by
  simp [LeavesRoom, real_div]

/-- A box of length `bounds` around the middle of an aligned one of length `fit` lies in the slot
exactly if the alignment leaves room for it. -/
theorem within_axis_iff {lo hi align fit bounds : ℝ} :
    (lo ≤ lo + align * (hi - lo - fit) + fit / 2 - bounds / 2 ∧
        lo + align * (hi - lo - fit) + fit / 2 + bounds / 2 ≤ hi) ↔
      LeavesRoom (real align) (real (hi - lo)) (real fit) (real bounds) := by
  rw [leavesRoom_real]
  constructor
  · rintro ⟨before, after⟩
    constructor <;> linarith
  · rintro ⟨before, after⟩
    constructor <;> linarith

/-- A centred alignment leaves as much on both sides. -/
theorem leavesRoom_center {slot fit bounds : ℝ} (h : bounds ≤ slot) :
    LeavesRoom (real (1 / 2)) (real slot) (real fit) (real bounds) := by
  rw [leavesRoom_real]
  constructor <;> linarith

/-! ## Placements -/

namespace TurnedPlacement

variable {ctx : Context Extended} {spec : Spec Extended}

/-- The real numbers that describe a placement: the slot, the alignment, the magnitudes of cosine
and sine, and the size that is fitted. -/
theorem exists_real (placed : TurnedPlacement ctx spec) :
    ∃ x1 y1 x2 y2 ax ay c s w h,
      ctx.slot spec = ⟨real x1, real y1, real x2, real y2⟩ ∧ spec.align = ⟨real ax, real ay⟩ ∧
      absCosSin spec.rotate = (real c, real s) ∧
      rotateFit (ctx.slot spec).size spec.rotate spec.fixedAspect spec.expand spec.invar
        ctx.tolerance = ⟨real w, real h⟩ ∧
      FitsTurned c s |x2 - x1| |y2 - y1| |w| |h| := by
  obtain ⟨x1, y1, x2, y2, slot⟩ := exists_slot placed.pixels placed.coord placed.rect
  obtain ⟨ax, hax⟩ := isFinite_iff.mp placed.alignX
  obtain ⟨ay, hay⟩ := isFinite_iff.mp placed.alignY
  obtain ⟨degrees, hdegrees⟩ := isFinite_iff.mp placed.rotate
  obtain ⟨c, s, hcs, hc, hs, unit⟩ := exists_absCosSin degrees
  obtain ⟨turned, fitted⟩ : degrees ≠ 0 ∧ spec.invar = false := by
    simpa [Spec.isRotated, Spec.isTurned, hdegrees] using placed.rotated
  obtain ⟨w, h, fit, fits⟩ := exists_rotateFit (x2 - x1) (y2 - y1) turned placed.aspect
    ctx.tolerance hcs hc hs unit
  refine ⟨x1, y1, x2, y2, ax, ay, c, s, w, h, slot, Align.ext hax hay, ?_, ?_, fits⟩
  · rw [hdegrees, hcs]
  · rw [slot, hdegrees, placed.shrinks, fitted, ← fit]
    simp [Rect.size, Rect.width, Rect.height]

end TurnedPlacement

/-- The pixels of a child are its fitted size around the middle of the aligned box. -/
theorem Context.child_pixels_real {ctx : Context Extended} {spec : Spec Extended}
    {x1 y1 x2 y2 ax ay w h : ℝ}
    (slot : ctx.slot spec = ⟨real x1, real y1, real x2, real y2⟩)
    (align : spec.align = ⟨real ax, real ay⟩)
    (fit : rotateFit (ctx.slot spec).size spec.rotate spec.fixedAspect spec.expand spec.invar
      ctx.tolerance = ⟨real w, real h⟩) :
    (ctx.child spec).pixels =
      (CenterBox.mk
        ⟨real (min x1 x2 + ax * (max x1 x2 - min x1 x2 - |w|) + |w| / 2),
          real (min y1 y2 + ay * (max y1 y2 - min y1 y2 - |h|) + |h| / 2)⟩
        ⟨real w, real h⟩).toRect := by
  have pixels :
      (ctx.child spec).pixels = (standIn (ctx.slot spec) ⟨real w, real h⟩ spec.align).toRect :=
    congrArg (fun size => (standIn (ctx.slot spec) size spec.align).toRect) fit
  rw [pixels, slot, align]
  simp [standIn, Rect.upright, Rect.width, Rect.height, real_div]

/-- The bounding box of a turned child stands around the middle of the aligned box and is no larger
than the slot. -/
theorem TurnedPlacement.exists_turnedBounds {ctx : Context Extended} {spec : Spec Extended}
    (placed : TurnedPlacement ctx spec) :
    ∃ x1 y1 x2 y2 ax ay fw fh bw bh,
      (ctx.slot spec).upright = ⟨real x1, real y1, real x2, real y2⟩ ∧
      spec.align = ⟨real ax, real ay⟩ ∧
      (ctx.child spec).pixels.size.abs = ⟨real fw, real fh⟩ ∧
      ctx.turnedBounds spec = (CenterBox.mk
        ⟨real (x1 + ax * (x2 - x1 - fw) + fw / 2), real (y1 + ay * (y2 - y1 - fh) + fh / 2)⟩
        ⟨real bw, real bh⟩).toRect ∧
      bw ≤ x2 - x1 ∧ bh ≤ y2 - y1 := by
  obtain ⟨x1, y1, x2, y2, ax, ay, c, s, w, h, slot, align, hcs, fit, fits⟩ := placed.exists_real
  have pixels := Context.child_pixels_real slot align fit
  refine ⟨min x1 x2, min y1 y2, max x1 x2, max y1 y2, ax, ay, |w|, |h|, |w| * c + |h| * s,
    |w| * s + |h| * c, ?_, align, ?_, ?_, ?_, ?_⟩
  · simp [slot, Rect.upright]
  · simp [pixels, size_toRect_real, Size.abs]
  · simp [Context.turnedBounds, pixels, center_toRect_real, size_toRect_real, rotatedBounds, hcs]
  · rw [max_sub_min_eq_abs]
    linarith [fits.width]
  · rw [max_sub_min_eq_abs]
    linarith [fits.height]

/-- A child that is fitted as a turned box has a bounding box that is no larger than its slot. It
lies in the slot exactly if the alignment leaves room for it on both axes, and so it does if the
alignment is centred. -/
theorem Context.turnedBounds_within_iff {ctx : Context Extended} {spec : Spec Extended}
    (placed : TurnedPlacement ctx spec) :
    let slot := (ctx.slot spec).upright
    let fit := (ctx.child spec).pixels.size.abs
    let bounds := ctx.turnedBounds spec
    (bounds.width ≤ slot.width ∧ bounds.height ≤ slot.height) ∧
      (bounds.Within slot ↔
        LeavesRoom spec.align.x slot.width fit.w bounds.width ∧
          LeavesRoom spec.align.y slot.height fit.h bounds.height) ∧
      (spec.align = .center → bounds.Within slot) := by
  intro slot fit bounds
  obtain ⟨x1, y1, x2, y2, ax, ay, fw, fh, bw, bh, hslot, halign, hfit, hbounds, narrow, low⟩ :=
    placed.exists_turnedBounds
  have size : bounds.size = ⟨real bw, real bh⟩ := by
    simp only [bounds, hbounds, size_toRect_real]
  have width : bounds.width = real bw := congrArg Size.w size
  have height : bounds.height = real bh := congrArg Size.h size
  have room : slot.width = real (x2 - x1) ∧ slot.height = real (y2 - y1) := by
    simp [slot, hslot, Rect.width, Rect.height]
  have within : bounds.Within slot ↔
      LeavesRoom (real ax) (real (x2 - x1)) (real fw) (real bw) ∧
        LeavesRoom (real ay) (real (y2 - y1)) (real fh) (real bh) := by
    simp only [bounds, slot, hbounds, hslot, ← within_axis_iff, toRect_real]
    rfl
  rw [within, width, height, room.1, room.2]
  simp only [fit, hfit, halign, true_and]
  refine ⟨⟨narrow, low⟩, ?_⟩
  intro center
  obtain ⟨rfl, rfl⟩ : ax = 1 / 2 ∧ ay = 1 / 2 := by
    simpa [Align.center] using center
  exact ⟨leavesRoom_center narrow, leavesRoom_center low⟩

/-! ## A banner on its side -/

/-- A child twice as wide as high that is turned by a quarter. -/
noncomputable def bannerSpec (align : Align Extended) : Spec Extended :=
  { Spec.ofAspect 2.0 with align := align, rotate := 90.0 }

/-- A context twice as high as wide, which the banner fills once it is turned. -/
noncomputable def bannerContext : Context Extended :=
  .root ⟨50.0, 100.0⟩

theorem turnedPlacement_banner (ax ay : ℝ) :
    TurnedPlacement bannerContext (bannerSpec ⟨real ax, real ay⟩) where
  pixels := by simp [bannerContext, Context.root, Context.new, Rect.isFinite]
  coord := by simp [bannerContext, Context.root, Context.new, Rect.unit, Rect.isFinite]
  rect := by simp [bannerSpec, Spec.ofAspect, Spec.plain]
  rotated := by norm_num [bannerSpec, Spec.ofAspect, Spec.plain, Spec.isRotated, Spec.isTurned]
  rotate := by simp [bannerSpec]
  shrinks := rfl
  aspect := by simp [bannerSpec, Spec.ofAspect, Spec.fixedAspect]
  alignX := by simp [bannerSpec]
  alignY := by simp [bannerSpec]

theorem Context.centeredBanner_within :
    TurnedPlacement bannerContext (bannerSpec .center) ∧
      (bannerContext.turnedBounds (bannerSpec .center)).Within
        (bannerContext.slot (bannerSpec .center)).upright := by
  have placed : TurnedPlacement bannerContext (bannerSpec .center) := by
    simpa [Align.center] using turnedPlacement_banner (1 / 2) (1 / 2)
  exact ⟨placed, (Context.turnedBounds_within_iff placed).2.2 rfl⟩

theorem slot_banner (align : Align Extended) :
    bannerContext.slot (bannerSpec align) = ⟨real 0, real 0, real 50, real 100⟩ := by
  norm_num [Context.slot, bannerContext, bannerSpec, Spec.ofAspect, Spec.plain, Context.root,
    Context.new, Context.mapRect, Context.xMap, Context.yMap, Rect.xLimit, Rect.yLimit, Rect.unit,
    AxisMap.between, AxisMap.apply, Limit.length, real_div]

theorem rotate_banner (align : Align Extended) : (bannerSpec align).rotate = real 90 := by
  norm_num [bannerSpec]

theorem absCosSin_quarter : absCosSin (real 90) = (real 0, real 1) := by
  have quarter : (90 : ℝ) * (Real.pi / 180) = Real.pi / 2 := by ring
  simp [absCosSin, radians_real, quarter]

theorem rotateFit_banner (align : Align Extended) :
    rotateFit (bannerContext.slot (bannerSpec align)).size (bannerSpec align).rotate
      (bannerSpec align).fixedAspect (bannerSpec align).expand (bannerSpec align).invar
      bannerContext.tolerance = ⟨real 100, real 50⟩ := by
  have turned : ¬(false || real 90 == 0.0) = true := by norm_num
  have wide : usableAspect (some (2.0 : Extended)) = some (real 2) := by
    norm_num [usableAspect, Option.filter]
  have fixed : (bannerSpec align).fixedAspect = some 2.0 := rfl
  have kept : (bannerSpec align).invar = false := rfl
  have shrinks : (bannerSpec align).expand = false := rfl
  rw [slot_banner, rotate_banner, rotateFit, kept, if_neg turned, fixed, wide, absCosSin_quarter,
    shrinks]
  norm_num [bindingLength, signedLike, Rect.size, Rect.width, Rect.height, real_div,
    Scalar.copySign_eq]

/-- A banner that is aligned to the corner sticks out of the context, although its bounding box is
just as large: the corner is that of the banner before it is turned. -/
theorem Context.alignedBanner_overflows :
    let bounds := bannerContext.turnedBounds (bannerSpec ⟨0.0, 0.0⟩)
    let slot := (bannerContext.slot (bannerSpec ⟨0.0, 0.0⟩)).upright
    TurnedPlacement bannerContext (bannerSpec ⟨0.0, 0.0⟩) ∧
      slot = ⟨real 0, real 0, real 50, real 100⟩ ∧
      bounds = ⟨real 25, real (-25), real 75, real 75⟩ ∧ ¬bounds.Within slot := by
  have corner : (⟨0.0, 0.0⟩ : Align Extended) = ⟨real 0, real 0⟩ := by
    simp
  rw [corner]
  intro bounds slot
  have hslot : slot = ⟨real 0, real 0, real 50, real 100⟩ := by
    simp [slot, slot_banner, Rect.upright]
  have hbounds : bounds = ⟨real 25, real (-25), real 75, real 75⟩ := by
    have pixels := Context.child_pixels_real (slot_banner _) rfl
      (rotateFit_banner ⟨real 0, real 0⟩)
    simp only [bounds, Context.turnedBounds, pixels, center_toRect_real, size_toRect_real,
      rotate_banner, rotatedBounds, absCosSin_quarter]
    norm_num [CenterBox.toRect, real_div]
  refine ⟨turnedPlacement_banner 0 0, hslot, hbounds, ?_⟩
  intro within
  have above := within.2.1
  rw [hslot, hbounds] at above
  norm_num at above

end SvgLayout
