import SvgLayout.Proofs.Scalar.Real
import SvgLayout.Context

/-!
# Bounding boxes that fit exactly

A box hugs rectangles if they lie in it and each of its sides is touched by one of them. There is
one such box, and `Rect.bounding` finds it. Hugging is kept by the map of a context, which may
reverse an axis, and by rectangles that grow to fill the box.

## Main definitions

* `Limit.Hugs`, `Rect.Hugs` — nothing sticks out, and every side is touched.

## Main statements

* `Rect.bounding_eq_some` — the bounding box of rectangles is the box that hugs them.
* `Rect.Hugs.mapRect` — a context keeps hugging.
* `Rect.Hugs.fill` — so do rectangles that are replaced by the box.
-/

namespace SvgLayout

variable {α : Type} [Scalar α]

/-! ## Intervals -/

/-- The interval in the direction of its axis. -/
def Limit.upright (l : Limit α) : Limit α :=
  ⟨Scalar.min l.lo l.hi, Scalar.max l.lo l.hi⟩

omit [Scalar α] in
def Limit.map (f : α → α) (l : Limit α) : Limit α :=
  ⟨f l.lo, f l.hi⟩

/-- The intervals of a list lie in `l`, and each end of `l` is an end of one of them. -/
structure Limit.Hugs (l : Limit α) (ls : List (Limit α)) : Prop where
  lo_le : ∀ m ∈ ls, l.lo ≤ m.upright.lo
  le_hi : ∀ m ∈ ls, m.upright.hi ≤ l.hi
  lo_eq : ∃ m ∈ ls, m.upright.lo = l.lo
  hi_eq : ∃ m ∈ ls, m.upright.hi = l.hi

/-- The rectangles of a list lie in `b`, and each of its four sides is touched by one of them. -/
structure Rect.Hugs (b : Rect α) (rs : List (Rect α)) : Prop where
  x : b.xLimit.Hugs (rs.map Rect.xLimit)
  y : b.yLimit.Hugs (rs.map Rect.yLimit)

/-! ## One axis -/

namespace AxisMap

variable (axis : AxisMap ℝ)

/-- An axis that is not reversed keeps the order of coordinates. -/
theorem monotone_apply (forward : 0 ≤ axis.scale) : Monotone axis.apply := by
  intro a b hab
  have start : a - axis.coordStart ≤ b - axis.coordStart := by linarith
  have kept := mul_le_mul_of_nonneg_right start forward
  simpa only [apply, add_le_add_iff_left] using kept

/-- A reversed axis reverses it. -/
theorem antitone_apply (backward : axis.scale ≤ 0) : Antitone axis.apply := by
  intro a b hab
  have start : a - axis.coordStart ≤ b - axis.coordStart := by linarith
  have reversed := mul_le_mul_of_nonpos_right start backward
  simpa only [apply, add_le_add_iff_left] using reversed

end AxisMap

namespace Limit

variable {l m : Limit ℝ} {ls : List (Limit ℝ)}

theorem upright_lo (l : Limit ℝ) : l.upright.lo = min l.lo l.hi :=
  Scalar.min_eq l.lo l.hi

theorem upright_hi (l : Limit ℝ) : l.upright.hi = max l.lo l.hi :=
  Scalar.max_eq l.lo l.hi

theorem upright_lo_le_hi (l : Limit ℝ) : l.upright.lo ≤ l.upright.hi := by
  rw [upright_lo, upright_hi]
  exact min_le_max

theorem upright_of_le (h : l.lo ≤ l.hi) : l.upright = l := by
  apply Limit.ext
  · rw [upright_lo, min_eq_left h]
  · rw [upright_hi, max_eq_right h]

/-- An interval that hugs others runs in the direction of its axis. -/
theorem Hugs.lo_le_hi (h : l.Hugs ls) : l.lo ≤ l.hi := by
  obtain ⟨m, hm, start⟩ := h.lo_eq
  calc l.lo = m.upright.lo := start.symm
    _ ≤ m.upright.hi := m.upright_lo_le_hi
    _ ≤ l.hi := h.le_hi m hm

theorem hugs_singleton (l : Limit ℝ) : l.upright.Hugs [l] := by
  constructor <;> simp

/-- One more interval is hugged by the union with it. -/
theorem Hugs.union (h : l.Hugs ls) (m : Limit ℝ) :
    (Limit.mk (min l.lo m.upright.lo) (max l.hi m.upright.hi)).Hugs (ls ++ [m]) := by
  constructor
  · intro k hk
    rcases List.mem_append.mp hk with hk | hk
    · exact (min_le_left _ _).trans (h.lo_le k hk)
    · obtain rfl := List.mem_singleton.mp hk
      exact min_le_right _ _
  · intro k hk
    rcases List.mem_append.mp hk with hk | hk
    · exact (h.le_hi k hk).trans (le_max_left _ _)
    · obtain rfl := List.mem_singleton.mp hk
      exact le_max_right _ _
  · obtain ⟨k, hk, start⟩ := h.lo_eq
    rcases min_choice l.lo m.upright.lo with first | last
    · exact ⟨k, List.mem_append_left _ hk, start.trans first.symm⟩
    · exact ⟨m, by simp, last.symm⟩
  · obtain ⟨k, hk, stop⟩ := h.hi_eq
    rcases max_choice l.hi m.upright.hi with first | last
    · exact ⟨k, List.mem_append_left _ hk, stop.trans first.symm⟩
    · exact ⟨m, by simp, last.symm⟩

/-- Of two intervals that hug the same ones neither starts before the other. -/
theorem Hugs.unique (hl : l.Hugs ls) (hm : m.Hugs ls) : l = m := by
  obtain ⟨k, hk, start⟩ := hl.lo_eq
  obtain ⟨k', hk', start'⟩ := hm.lo_eq
  obtain ⟨n, hn, stop⟩ := hl.hi_eq
  obtain ⟨n', hn', stop'⟩ := hm.hi_eq
  apply Limit.ext
  · exact le_antisymm (start' ▸ hl.lo_le k' hk') (start ▸ hm.lo_le k hk)
  · exact le_antisymm (stop ▸ hm.le_hi n hn) (stop' ▸ hl.le_hi n' hn')

/-- Intervals may be replaced by the one that hugs them. -/
theorem Hugs.fill {β : Type} {f g : β → Limit ℝ} {xs : List β} (h : l.Hugs (xs.map f))
    (filled : ∀ x ∈ xs, g x = f x ∨ g x = l) : l.Hugs (xs.map g) := by
  have own := upright_of_le h.lo_le_hi
  obtain ⟨lo_le, le_hi, ⟨m, hm, start⟩, ⟨n, hn, stop⟩⟩ := h
  obtain ⟨x, hx, rfl⟩ := List.mem_map.mp hm
  obtain ⟨y, hy, rfl⟩ := List.mem_map.mp hn
  constructor
  · intro k hk
    obtain ⟨z, hz, rfl⟩ := List.mem_map.mp hk
    rcases filled z hz with kept | full
    · exact kept ▸ lo_le _ (List.mem_map_of_mem hz)
    · rw [full, own]
  · intro k hk
    obtain ⟨z, hz, rfl⟩ := List.mem_map.mp hk
    rcases filled z hz with kept | full
    · exact kept ▸ le_hi _ (List.mem_map_of_mem hz)
    · rw [full, own]
  · refine ⟨g x, List.mem_map_of_mem hx, ?_⟩
    rcases filled x hx with kept | full
    · rw [kept, start]
    · rw [full, own]
  · refine ⟨g y, List.mem_map_of_mem hy, ?_⟩
    rcases filled y hy with kept | full
    · rw [kept, stop]
    · rw [full, own]

/-! ## Intervals of pixels -/

variable {f : ℝ → ℝ}

/-- A function that keeps the order keeps the direction of an interval. -/
theorem upright_map_of_monotone (mono : Monotone f) (l : Limit ℝ) :
    (l.map f).upright = l.upright.map f := by
  apply Limit.ext
  · rw [upright_lo, Limit.map, Limit.map, upright_lo, mono.map_min]
  · rw [upright_hi, Limit.map, Limit.map, upright_hi, mono.map_max]

/-- A function that reverses the order exchanges the ends of an interval. -/
theorem upright_map_of_antitone (anti : Antitone f) (l : Limit ℝ) :
    (l.map f).upright = (l.upright.map f).reverse := by
  apply Limit.ext
  · rw [upright_lo, Limit.map, Limit.map, Limit.reverse, upright_hi, anti.map_max]
  · rw [upright_hi, Limit.map, Limit.map, Limit.reverse, upright_lo, anti.map_min]

theorem Hugs.map_of_monotone (h : l.Hugs ls) (mono : Monotone f) :
    (l.map f).Hugs (ls.map (Limit.map f)) := by
  constructor
  · rw [List.forall_mem_map]
    intro m hm
    rw [upright_map_of_monotone mono]
    exact mono (h.lo_le m hm)
  · rw [List.forall_mem_map]
    intro m hm
    rw [upright_map_of_monotone mono]
    exact mono (h.le_hi m hm)
  · obtain ⟨m, hm, start⟩ := h.lo_eq
    refine ⟨m.map f, List.mem_map_of_mem hm, ?_⟩
    rw [upright_map_of_monotone mono]
    exact congrArg f start
  · obtain ⟨m, hm, stop⟩ := h.hi_eq
    refine ⟨m.map f, List.mem_map_of_mem hm, ?_⟩
    rw [upright_map_of_monotone mono]
    exact congrArg f stop

theorem Hugs.map_of_antitone (h : l.Hugs ls) (anti : Antitone f) :
    (l.map f).reverse.Hugs (ls.map (Limit.map f)) := by
  constructor
  · rw [List.forall_mem_map]
    intro m hm
    rw [upright_map_of_antitone anti]
    exact anti (h.le_hi m hm)
  · rw [List.forall_mem_map]
    intro m hm
    rw [upright_map_of_antitone anti]
    exact anti (h.lo_le m hm)
  · obtain ⟨m, hm, stop⟩ := h.hi_eq
    refine ⟨m.map f, List.mem_map_of_mem hm, ?_⟩
    rw [upright_map_of_antitone anti]
    exact congrArg f stop
  · obtain ⟨m, hm, start⟩ := h.lo_eq
    refine ⟨m.map f, List.mem_map_of_mem hm, ?_⟩
    rw [upright_map_of_antitone anti]
    exact congrArg f start

/-- The pixels of an interval hug those of the intervals that it hugs, whether or not the axis is
reversed. -/
theorem Hugs.apply (h : l.Hugs ls) (axis : AxisMap ℝ) :
    (l.map axis.apply).upright.Hugs (ls.map (Limit.map axis.apply)) := by
  have own := upright_of_le h.lo_le_hi
  rcases le_total 0 axis.scale with forward | backward
  · have mono := axis.monotone_apply forward
    rw [upright_map_of_monotone mono, own]
    exact h.map_of_monotone mono
  · have anti := axis.antitone_apply backward
    rw [upright_map_of_antitone anti, own]
    exact h.map_of_antitone anti

end Limit

namespace Rect

variable {b : Rect ℝ} {rs : List (Rect ℝ)}

/-! ## Rectangles -/

/-- A box that hugs rectangles is upright. -/
theorem Hugs.upright (h : b.Hugs rs) : b.upright = b := by
  have x := Limit.upright_of_le h.x.lo_le_hi
  have y := Limit.upright_of_le h.y.lo_le_hi
  exact Rect.ext (congrArg Limit.lo x) (congrArg Limit.lo y) (congrArg Limit.hi x)
    (congrArg Limit.hi y)

theorem hugs_singleton (r : Rect ℝ) : r.upright.Hugs [r] :=
  ⟨r.xLimit.hugs_singleton, r.yLimit.hugs_singleton⟩

theorem Hugs.unique {c : Rect ℝ} (hb : b.Hugs rs) (hc : c.Hugs rs) : b = c := by
  have x := hb.x.unique hc.x
  have y := hb.y.unique hc.y
  exact Rect.ext (congrArg Limit.lo x) (congrArg Limit.lo y) (congrArg Limit.hi x)
    (congrArg Limit.hi y)

/-- The union of a box with one more rectangle hugs that as well. -/
theorem Hugs.union (h : b.Hugs rs) (r : Rect ℝ) : (b.union r).Hugs (rs ++ [r]) := by
  have x := h.x.union r.xLimit
  have y := h.y.union r.yLimit
  have grown : b.union r =
      .ofLimits ⟨min b.x1 r.upright.x1, max b.x2 r.upright.x2⟩
        ⟨min b.y1 r.upright.y1, max b.y2 r.upright.y2⟩ := by
    simp only [Rect.union, h.upright, Scalar.min_eq, Scalar.max_eq]
    rfl
  rw [grown]
  constructor
  · rw [List.map_append]
    exact x
  · rw [List.map_append]
    exact y

/-- The union of a box with all of a list hugs all of them. -/
theorem Hugs.foldl_union (h : b.Hugs rs) (more : List (Rect ℝ)) :
    (more.foldl Rect.union b).Hugs (rs ++ more) := by
  induction more generalizing b rs with
  | nil => simpa using h
  | cons r more ih => simpa using ih (h.union r)

/-- The bounding box of rectangles is the box that hugs them. -/
theorem bounding_eq_some : bounding rs = some b ↔ b.Hugs rs := by
  have hugs : ∀ {c}, bounding rs = some c → c.Hugs rs := by
    intro c h
    cases rs with
    | nil => simp [bounding] at h
    | cons r rs =>
      obtain rfl : rs.foldl Rect.union r.upright = c := by simpa [bounding] using h
      exact (hugs_singleton r).foldl_union rs
  refine ⟨hugs, fun h => ?_⟩
  cases found : bounding rs with
  | none =>
    obtain ⟨l, hl, -⟩ := h.x.lo_eq
    cases rs with
    | nil => simp at hl
    | cons r rs => simp [bounding] at found
  | some c => rw [h.unique (hugs found)]

/-- Rectangles may be replaced by the box that hugs them. -/
theorem Hugs.fill {β : Type} {f g : β → Rect ℝ} {xs : List β} (h : b.Hugs (xs.map f))
    (filled : ∀ x ∈ xs, g x = f x ∨ g x = b) : b.Hugs (xs.map g) := by
  obtain ⟨x, y⟩ := h
  rw [List.map_map] at x y
  constructor
  · rw [List.map_map]
    exact x.fill fun z hz => (filled z hz).imp (congrArg Rect.xLimit) (congrArg Rect.xLimit)
  · rw [List.map_map]
    exact y.fill fun z hz => (filled z hz).imp (congrArg Rect.yLimit) (congrArg Rect.yLimit)

/-- The pixels of a box hug those of the rectangles that it hugs. -/
theorem Hugs.mapRect (h : b.Hugs rs) (ctx : Context ℝ) :
    (ctx.mapRect b).upright.Hugs (rs.map ctx.mapRect) := by
  constructor
  · have x := h.x.apply ctx.xMap
    rw [List.map_map] at x ⊢
    exact x
  · have y := h.y.apply ctx.yMap
    rw [List.map_map] at y ⊢
    exact y

end Rect

end SvgLayout
