import SvgLayout.Proofs.Geometry.Hull
import SvgLayout.Proofs.Scalar.Order

/-!
# Bounding boxes are least

A rectangle stands for the points between its corners, whichever way it is flipped. The bounding box
of rectangles without NaN is upright, covers the points of all of them, and is covered by every
upright rectangle that does. This says what it is up to the sign of its zeros, so that it depends on
the points of the rectangles alone, and neither on their order, nor on repetitions and flips. All of
this holds in doubles, where coordinates may be infinite, as it does in exact arithmetic.

## Main definitions

* `Rect.Spans`, `Rect.Covers` — the points of a rectangle, and rectangles that contain another one.
* `Rect.IsLeastAround` — the least upright rectangle that covers all of a list; `Rect.Bounds`, if
  there is one.
* `Rect.Agrees` — equality up to the signs of zeros.
* `Rect.Rearranged` — the same rectangles in another order, repeated and flipped.

## Main statements

* `Rect.covers_union` — an upright rectangle covers a union if it covers both of its parts.
* `Rect.IsLeastAround.agrees` — there is one least rectangle.
* `Rect.bounding_is_least` — it is the bounding box.
-/

namespace SvgLayout

variable {α : Type} [Scalar α]

/-! ## Intervals -/

namespace Limit

/-- Both ends are numbers, which may be infinite. -/
structure IsNumber (l : Limit α) : Prop where
  lo : Scalar.isNaN l.lo = false
  hi : Scalar.isNaN l.hi = false

/-- The coordinates from one end to the other, whichever comes first. -/
def Spans (l : Limit α) (c : α) : Prop :=
  l.lo ≤ c ∧ c ≤ l.hi ∨ l.hi ≤ c ∧ c ≤ l.lo

/-- Every coordinate of the other interval is one of this interval. -/
def Covers (m l : Limit α) : Prop :=
  ∀ c, l.Spans c → m.Spans c

theorem spans_reverse (l : Limit α) (c : α) : l.reverse.Spans c ↔ l.Spans c :=
  or_comm

variable [Scalar.Ordered α] {l m : Limit α} {c : α}

theorem isNumber_of_le (h : l.lo ≤ l.hi) : l.IsNumber :=
  ⟨(Scalar.Ordered.isNaN_of_le h).1, (Scalar.Ordered.isNaN_of_le h).2⟩

theorem spans_of_le (h : l.lo ≤ l.hi) : l.Spans c ↔ l.lo ≤ c ∧ c ≤ l.hi := by
  refine ⟨fun spans => spans.elim id fun ⟨start, stop⟩ => ?_, .inl⟩
  exact ⟨Scalar.Ordered.trans h start, Scalar.Ordered.trans stop h⟩

theorem upright_le (h : l.IsNumber) : l.upright.lo ≤ l.upright.hi := by
  rw [upright, Scalar.min_le_iff h.lo h.hi]
  exact .inl ((Scalar.le_max_iff h.lo h.hi).mpr (.inl (Scalar.le_refl_of_number h.lo)))

/-- The direction of an interval does not matter to its coordinates. -/
theorem spans_upright (h : l.IsNumber) : l.upright.Spans c ↔ l.Spans c := by
  rw [spans_of_le (upright_le h), upright, Scalar.min_le_iff h.lo h.hi,
    Scalar.le_max_iff h.lo h.hi]
  constructor
  · rintro ⟨start | start, stop | stop⟩
    · -- The coordinate is the first end, which lies before the other one or behind it.
      rcases Scalar.Ordered.total h.lo h.hi with forward | backward
      · exact .inl ⟨start, Scalar.Ordered.trans stop forward⟩
      · exact .inr ⟨Scalar.Ordered.trans backward start, stop⟩
    · exact .inl ⟨start, stop⟩
    · exact .inr ⟨start, stop⟩
    · rcases Scalar.Ordered.total h.lo h.hi with forward | backward
      · exact .inl ⟨Scalar.Ordered.trans forward start, stop⟩
      · exact .inr ⟨start, Scalar.Ordered.trans stop backward⟩
  · rintro (⟨start, stop⟩ | ⟨start, stop⟩)
    · exact ⟨.inl start, .inr stop⟩
    · exact ⟨.inr start, .inl stop⟩

theorem spans_lo (h : l.IsNumber) : l.Spans l.lo := by
  have self := Scalar.le_refl_of_number h.lo
  exact (Scalar.Ordered.total h.lo h.hi).imp (⟨self, ·⟩) (⟨·, self⟩)

/-- Of two intervals in the direction of their axis one covers the other if it starts before it and
ends behind it. -/
theorem covers_of_le (hm : m.lo ≤ m.hi) (hl : l.lo ≤ l.hi) :
    m.Covers l ↔ m.lo ≤ l.lo ∧ l.hi ≤ m.hi := by
  have number := isNumber_of_le hl
  constructor
  · intro covers
    have start := covers l.lo (.inl ⟨Scalar.le_refl_of_number number.lo, hl⟩)
    have stop := covers l.hi (.inl ⟨hl, Scalar.le_refl_of_number number.hi⟩)
    exact ⟨((spans_of_le hm).mp start).1, ((spans_of_le hm).mp stop).2⟩
  · rintro ⟨start, stop⟩ c spans
    obtain ⟨hlo, hhi⟩ := (spans_of_le hl).mp spans
    exact .inl ⟨Scalar.Ordered.trans start hlo, Scalar.Ordered.trans hhi stop⟩

theorem covers_iff (hm : m.lo ≤ m.hi) (h : l.IsNumber) :
    m.Covers l ↔ m.lo ≤ l.upright.lo ∧ l.upright.hi ≤ m.hi := by
  rw [← covers_of_le hm (upright_le h)]
  exact forall_congr' fun c => by rw [spans_upright h]

/-- The interval from the first start to the last end. -/
def union (l m : Limit α) : Limit α :=
  ⟨Scalar.min l.upright.lo m.upright.lo, Scalar.max l.upright.hi m.upright.hi⟩

theorem union_le (hl : l.IsNumber) (hm : m.IsNumber) : (l.union m).lo ≤ (l.union m).hi := by
  have upright := upright_le hl
  have own := isNumber_of_le upright
  have other := isNumber_of_le (upright_le hm)
  rw [union, Scalar.min_le_iff own.lo other.lo]
  exact .inl ((Scalar.le_max_iff own.hi other.hi).mpr (.inl upright))

/-- An interval covers a union if it covers both parts. -/
theorem covers_union {n : Limit α} (hn : n.lo ≤ n.hi) (hl : l.IsNumber) (hm : m.IsNumber) :
    n.Covers (l.union m) ↔ n.Covers l ∧ n.Covers m := by
  have own := isNumber_of_le (upright_le hl)
  have other := isNumber_of_le (upright_le hm)
  rw [covers_of_le hn (union_le hl hm), covers_iff hn hl, covers_iff hn hm, union,
    Scalar.le_min_iff own.lo other.lo, Scalar.max_le_iff own.hi other.hi]
  exact and_and_and_comm

end Limit

/-! ## Rectangles -/

namespace Rect

/-- All four coordinates are numbers, which may be infinite. -/
structure IsNumber (r : Rect α) : Prop where
  x : r.xLimit.IsNumber
  y : r.yLimit.IsNumber

/-- Both axes run in their own direction. -/
structure IsUpright (r : Rect α) : Prop where
  x : r.x1 ≤ r.x2
  y : r.y1 ≤ r.y2

/-- The points between the corners, whichever way the rectangle is flipped. -/
def Spans (r : Rect α) (p : Point α) : Prop :=
  r.xLimit.Spans p.x ∧ r.yLimit.Spans p.y

/-- Every point of the other rectangle is one of this rectangle. -/
def Covers (b r : Rect α) : Prop :=
  ∀ p, r.Spans p → b.Spans p

/-- The least upright rectangle that covers all rectangles of a list. -/
structure IsLeastAround (b : Rect α) (rs : List (Rect α)) : Prop where
  upright : b.IsUpright
  covers : ∀ r ∈ rs, b.Covers r
  least : ∀ c : Rect α, c.IsUpright → (∀ r ∈ rs, c.Covers r) → c.Covers b

/-- All coordinates are numerically equal: only the signs of zeros may differ. -/
structure Agrees (r s : Rect α) : Prop where
  x1 : (r.x1 == s.x1) = true
  y1 : (r.y1 == s.y1) = true
  x2 : (r.x2 == s.x2) = true
  y2 : (r.y2 == s.y2) = true

omit [Scalar α] in
/-- The rectangle as it is, flipped on one axis, and flipped on both. -/
def flips (r : Rect α) : List (Rect α) :=
  [r, ⟨r.x2, r.y1, r.x1, r.y2⟩, ⟨r.x1, r.y2, r.x2, r.y1⟩, ⟨r.x2, r.y2, r.x1, r.y1⟩]

omit [Scalar α] in
/-- Every rectangle of either list stands somewhere in the other one, flipped or as it is. The order
does not matter, and a rectangle may be repeated. -/
def Rearranged (rs ss : List (Rect α)) : Prop :=
  (∀ r ∈ rs, ∃ s ∈ ss, s ∈ r.flips) ∧ ∀ s ∈ ss, ∃ r ∈ rs, s ∈ r.flips

variable {b c r s : Rect α} {rs ss : List (Rect α)}

/-- A flipped rectangle has the same points. -/
theorem spans_of_mem_flips (h : s ∈ r.flips) (p : Point α) :
    s.Spans p ↔ r.Spans p := by
  simp only [flips, List.mem_cons, List.not_mem_nil, or_false] at h
  rcases h with rfl | rfl | rfl | rfl
  · exact Iff.rfl
  · exact and_congr_left' (r.xLimit.spans_reverse p.x)
  · exact and_congr_right' (r.yLimit.spans_reverse p.y)
  · exact and_congr (r.xLimit.spans_reverse p.x) (r.yLimit.spans_reverse p.y)

theorem isNumber_of_mem_flips (h : s ∈ r.flips) (number : r.IsNumber) :
    s.IsNumber := by
  obtain ⟨⟨x1, x2⟩, ⟨y1, y2⟩⟩ := number
  simp only [flips, List.mem_cons, List.not_mem_nil, or_false] at h
  rcases h with rfl | rfl | rfl | rfl
  · exact ⟨⟨x1, x2⟩, ⟨y1, y2⟩⟩
  · exact ⟨⟨x2, x1⟩, ⟨y1, y2⟩⟩
  · exact ⟨⟨x1, x2⟩, ⟨y2, y1⟩⟩
  · exact ⟨⟨x2, x1⟩, ⟨y2, y1⟩⟩

/-- The same rectangles cover all of either list. -/
theorem Rearranged.covers (h : Rearranged rs ss) (d : Rect α) :
    (∀ r ∈ rs, d.Covers r) ↔ ∀ s ∈ ss, d.Covers s := by
  constructor
  · intro covers s hs
    obtain ⟨r, hr, flip⟩ := h.2 s hs
    exact fun p spans => covers r hr p ((spans_of_mem_flips flip p).mp spans)
  · intro covers r hr
    obtain ⟨s, hs, flip⟩ := h.1 r hr
    exact fun p spans => covers s hs p ((spans_of_mem_flips flip p).mpr spans)

omit [Scalar α] in
theorem Rearranged.eq_nil_iff (h : Rearranged rs ss) : rs = [] ↔ ss = [] := by
  constructor
  · rintro rfl
    exact List.eq_nil_iff_forall_not_mem.mpr fun s hs => by simpa using h.2 s hs
  · rintro rfl
    exact List.eq_nil_iff_forall_not_mem.mpr fun r hr => by simpa using h.1 r hr

variable [Scalar.Ordered α]

theorem IsUpright.isNumber (h : b.IsUpright) : b.IsNumber :=
  ⟨Limit.isNumber_of_le h.x, Limit.isNumber_of_le h.y⟩

/-- A rectangle covers another one if it does so on both axes. -/
theorem covers_iff (h : r.IsNumber) :
    b.Covers r ↔ b.xLimit.Covers r.xLimit ∧ b.yLimit.Covers r.yLimit := by
  constructor
  · intro covers
    exact ⟨fun x hx => (covers ⟨x, r.y1⟩ ⟨hx, Limit.spans_lo h.y⟩).1,
      fun y hy => (covers ⟨r.x1, y⟩ ⟨Limit.spans_lo h.x, hy⟩).2⟩
  · rintro ⟨x, y⟩ p ⟨hx, hy⟩
    exact ⟨x p.x hx, y p.y hy⟩

theorem isUpright_union (hr : r.IsNumber) (hs : s.IsNumber) : (r.union s).IsUpright :=
  ⟨Limit.union_le hr.x hs.x, Limit.union_le hr.y hs.y⟩

/-- An upright rectangle covers a union if it covers both parts. -/
theorem covers_union (hc : c.IsUpright) (hr : r.IsNumber) (hs : s.IsNumber) :
    c.Covers (r.union s) ↔ c.Covers r ∧ c.Covers s := by
  rw [covers_iff (isUpright_union hr hs).isNumber, covers_iff hr, covers_iff hs]
  have x : c.xLimit.Covers (r.union s).xLimit ↔ _ := Limit.covers_union hc.x hr.x hs.x
  have y : c.yLimit.Covers (r.union s).yLimit ↔ _ := Limit.covers_union hc.y hr.y hs.y
  rw [x, y]
  exact and_and_and_comm

/-- Upright rectangles that cover each other agree. -/
theorem agrees_of_covers (hb : b.IsUpright) (hc : c.IsUpright) (covers : b.Covers c)
    (covered : c.Covers b) : b.Agrees c := by
  rw [covers_iff hc.isNumber, Limit.covers_of_le hb.x hc.x, Limit.covers_of_le hb.y hc.y] at covers
  rw [covers_iff hb.isNumber, Limit.covers_of_le hc.x hb.x, Limit.covers_of_le hc.y hb.y] at covered
  obtain ⟨⟨left, right⟩, above, below⟩ := covers
  obtain ⟨⟨left', right'⟩, above', below'⟩ := covered
  constructor
  · exact Scalar.Ordered.beq_iff.mpr ⟨left, left'⟩
  · exact Scalar.Ordered.beq_iff.mpr ⟨above, above'⟩
  · exact Scalar.Ordered.beq_iff.mpr ⟨right', right⟩
  · exact Scalar.Ordered.beq_iff.mpr ⟨below', below⟩

/-! ## Least rectangles -/

namespace IsLeastAround

omit [Scalar.Ordered α] in
/-- A rectangle is least if the upright rectangles that cover it are those that cover all. -/
theorem of_covers_iff (upright : b.IsUpright)
    (covers : ∀ c : Rect α, c.IsUpright → (c.Covers b ↔ ∀ r ∈ rs, c.Covers r)) :
    b.IsLeastAround rs where
  upright := upright
  covers := (covers b upright).mp fun _ spans => spans
  least c hc := (covers c hc).mpr

omit [Scalar.Ordered α] in
theorem covers_iff (h : b.IsLeastAround rs) (hc : c.IsUpright) :
    c.Covers b ↔ ∀ r ∈ rs, c.Covers r :=
  ⟨fun covers r hr p spans => covers p (h.covers r hr p spans), h.least c hc⟩

/-- Two least rectangles agree if the same upright rectangles cover all of either list. -/
theorem agrees (hb : b.IsLeastAround rs) (hc : c.IsLeastAround ss)
    (same : ∀ d : Rect α, (∀ r ∈ rs, d.Covers r) ↔ ∀ s ∈ ss, d.Covers s) : b.Agrees c := by
  apply agrees_of_covers hb.upright hc.upright
  · exact hc.least b hb.upright ((same b).mp hb.covers)
  · exact hb.least c hc.upright ((same c).mpr hc.covers)

theorem singleton (h : r.IsNumber) : r.upright.IsLeastAround [r] := by
  have upright : r.upright.IsUpright := ⟨Limit.upright_le h.x, Limit.upright_le h.y⟩
  apply of_covers_iff upright
  intro c _
  rw [List.forall_mem_singleton]
  exact forall_congr' fun p => imp_congr_left
    (and_congr (Limit.spans_upright h.x) (Limit.spans_upright h.y))

/-- The union with one more rectangle is least around one more. -/
theorem union (h : b.IsLeastAround rs) (hr : r.IsNumber) :
    (b.union r).IsLeastAround (rs ++ [r]) := by
  have number := h.upright.isNumber
  apply of_covers_iff (isUpright_union number hr)
  intro c hc
  rw [covers_union hc number hr, h.covers_iff hc, List.forall_mem_append,
    List.forall_mem_singleton]

/-- The union of least rectangles is least around both lists. -/
theorem append (hb : b.IsLeastAround rs) (hc : c.IsLeastAround ss) :
    (b.union c).IsLeastAround (rs ++ ss) := by
  have number := hb.upright.isNumber
  have number' := hc.upright.isNumber
  apply of_covers_iff (isUpright_union number number')
  intro d hd
  rw [covers_union hd number number', hb.covers_iff hd, hc.covers_iff hd, List.forall_mem_append]

theorem foldl_union {more : List (Rect α)} (h : b.IsLeastAround rs)
    (numbers : ∀ r ∈ more, r.IsNumber) : (more.foldl Rect.union b).IsLeastAround (rs ++ more) := by
  induction more generalizing b rs with
  | nil => simpa using h
  | cons r more ih =>
    rw [List.forall_mem_cons] at numbers
    simpa using ih (h.union numbers.1) numbers.2

end IsLeastAround

/-! ## Bounding boxes -/

/-- There is a rectangle unless the list is empty, and it is the least one around the list. -/
structure Bounds (o : Option (Rect α)) (rs : List (Rect α)) : Prop where
  none_iff : o = none ↔ rs = []
  least : ∀ b, o = some b → b.IsLeastAround rs

/-- The bounding box is the least rectangle around a list. -/
theorem bounds_bounding (numbers : ∀ r ∈ rs, r.IsNumber) : Bounds (bounding rs) rs := by
  constructor
  · cases rs <;> simp [bounding]
  · intro b h
    cases rs with
    | nil => cases h
    | cons r rs =>
      rw [List.forall_mem_cons] at numbers
      obtain rfl : rs.foldl Rect.union r.upright = b := Option.some.inj h
      exact (IsLeastAround.singleton numbers.1).foldl_union numbers.2

namespace Bounds

variable {o o' : Option (Rect α)}

/-- The union, as far as there are two rectangles, is the least one around both lists. -/
theorem merge (h : Bounds o rs) (h' : Bounds o' ss) :
    Bounds (Option.merge Rect.union o o') (rs ++ ss) := by
  constructor
  · rw [List.append_eq_nil_iff, ← h.none_iff, ← h'.none_iff]
    cases o <;> cases o' <;> simp [Option.merge]
  · intro b hb
    cases o with
    | none =>
      rw [h.none_iff.mp rfl]
      cases o' with
      | none => cases hb
      | some c => exact h'.least b hb
    | some c =>
      cases o' with
      | none =>
        rw [h'.none_iff.mp rfl, List.append_nil]
        exact h.least b hb
      | some d =>
        obtain rfl : c.union d = b := Option.some.inj hb
        exact (h.least c rfl).append (h'.least d rfl)

/-- Rectangles around two lists agree if the same rectangles cover all of either list. -/
theorem agrees (h : Bounds o rs) (h' : Bounds o' ss) (empty : rs = [] ↔ ss = [])
    (same : ∀ d : Rect α, (∀ r ∈ rs, d.Covers r) ↔ ∀ s ∈ ss, d.Covers s) :
    Option.Rel Agrees o o' := by
  rw [← h.none_iff, ← h'.none_iff] at empty
  cases o with
  | none =>
    rw [empty.mp rfl]
    exact .none
  | some b =>
    cases o' with
    | none => cases empty.mpr rfl
    | some c => exact .some ((h.least b rfl).agrees (h'.least c rfl) same)

end Bounds

/-- The bounding box of rectangles without NaN is the least upright rectangle that covers all of
them, and only the empty list has none. Up to the signs of zeros it is the same in whatever order
they come, and if any of them are repeated or flipped, and that of two lists is the union of
theirs. -/
theorem bounding_is_least (numbers : ∀ r ∈ rs, r.IsNumber) :
    (bounding rs = none ↔ rs = []) ∧
      (∀ b, bounding rs = some b → b.IsLeastAround rs) ∧
      (∀ ss, Rearranged rs ss → Option.Rel Agrees (bounding rs) (bounding ss)) ∧
      ∀ more : List (Rect α), (∀ r ∈ more, r.IsNumber) →
        Option.Rel Agrees (bounding (rs ++ more))
          (Option.merge Rect.union (bounding rs) (bounding more)) := by
  have own := bounds_bounding numbers
  refine ⟨own.none_iff, own.least, ?_, ?_⟩
  · intro ss rearranged
    have other : Bounds (bounding ss) ss := by
      apply bounds_bounding
      intro s hs
      obtain ⟨r, hr, flip⟩ := rearranged.2 s hs
      exact isNumber_of_mem_flips flip (numbers r hr)
    exact own.agrees other rearranged.eq_nil_iff rearranged.covers
  · intro more numbers'
    have all : Bounds (bounding (rs ++ more)) (rs ++ more) :=
      bounds_bounding (List.forall_mem_append.mpr ⟨numbers, numbers'⟩)
    exact all.agrees (own.merge (bounds_bounding numbers')) Iff.rfl fun _ => Iff.rfl

/-! ## Panes without an edge -/

/-- A unit pane, and a flipped one that has no right edge. Its left edge is at the negative zero. -/
def panes : List (Rect Float) :=
  [⟨0.0, 0.0, 1.0, 1.0⟩, ⟨1.0 / 0.0, -1.0, -0.0, 0.5⟩]

/-- The same panes the other way round, the first of them turned upside down. -/
def turnedPanes : List (Rect Float) :=
  [⟨1.0 / 0.0, -1.0, -0.0, 0.5⟩, ⟨0.0, 1.0, 1.0, 0.0⟩]

/-- The box around the panes reaches from zero to infinity. The turned ones have the same box, whose
left edge is at the other zero, and it is also that of both lists. -/
theorem bounding_is_least_panes :
    (∀ r ∈ panes, r.IsNumber) ∧ Rearranged panes turnedPanes ∧
      (∃ b, bounding panes = some b ∧ b.IsLeastAround panes) ∧
      Option.Rel Agrees (bounding panes) (bounding turnedPanes) ∧
      Option.Rel Agrees (bounding (panes ++ panes))
        (Option.merge Rect.union (bounding panes) (bounding panes)) := by
  have numbers : ∀ r ∈ panes, r.IsNumber := by
    simp only [panes, List.forall_mem_cons, List.not_mem_nil, IsEmpty.forall_iff, implies_true,
      and_true]
    constructor <;> constructor <;> constructor <;> decide +kernel
  have rearranged : Rearranged panes turnedPanes := by
    simp [Rearranged, panes, turnedPanes, flips]
  obtain ⟨-, least, same, union⟩ := bounding_is_least numbers
  exact ⟨numbers, rearranged, ⟨_, rfl, least _ rfl⟩, same _ rearranged, union _ numbers⟩

end Rect

end SvgLayout
