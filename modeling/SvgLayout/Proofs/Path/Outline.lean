import SvgLayout.Proofs.Scalar.Real
import SvgLayout.Path.RoundedRect

/-!
# The outline of a rounded rectangle

The pen goes around a rectangle clockwise, one side after the other: straight along the side as far
as the next corner leaves it, and in a quarter of a circle around that corner. A radius is at most
half of the shorter side, so the two corners of a side never meet beyond each other, and a straight
line or an arc is left out only where the pen is at its end already.

## Main definitions

* `Side` — the sides of a rectangle, with their direction, their corner and their end points.
* `Straight`, `Around` — a straight line and an arc, or nothing where they have no extent.
* `Leg` — the part of an outline along a side and around the corner behind it.
* `Path.Leads` — where a path leaves the pen.

## Main statements

* `Side.isLeg` — each side is drawn in one leg.
* `roundedRect_eq` — the outline is made of the four legs.
* `roundedRect_outline` — it is closed, and does not depend on how the rectangle is flipped.
-/

namespace SvgLayout

/-! ## Where the pen is -/

section

variable {α : Type}

/-- A path that is drawn from one point leaves the pen at another. -/
def Path.Leads (p : Point α) (path : Path α) (q : Point α) : Prop :=
  path.end?.or (some p) = some q

theorem Path.end?_append (first next : Path α) :
    Path.end? (first ++ next) = (end? next).or (end? first) := by
  simp [end?, List.findSome?_append]

/-- A path goes on where the one before it has left the pen. -/
theorem Path.Leads.append {p q r : Point α} {first next : Path α} (h : Path.Leads p first q)
    (h' : Path.Leads q next r) : Path.Leads p (first ++ next) r := by
  rw [Leads] at h h' ⊢
  rw [end?_append, Option.or_assoc, h, h']

/-- A closed path that starts with a move ends where the rest of it leads from there. -/
theorem Path.end?_closed {p q : Point α} {path : Path α} (h : Path.Leads p path q) :
    Path.end? (.move p :: path ++ [.close]) = some q := by
  have close : end? [(.close : PathCommand α)] = none := rfl
  have move : end? [.move p] = some p := rfl
  have split : (.move p :: path : Path α) = [.move p] ++ path := rfl
  rw [end?_append, close, Option.none_or, split, end?_append, move]
  exact h

end

/-! ## Sides -/

/-- The sides of an upright rectangle in clockwise order. -/
inductive Side
  | top
  | right
  | bottom
  | left

namespace Side

def next : Side → Side
  | top => right
  | right => bottom
  | bottom => left
  | left => top

def prev : Side → Side
  | top => left
  | right => top
  | bottom => right
  | left => bottom

@[simp] theorem prev_next (side : Side) : side.next.prev = side := by
  cases side <;> rfl

/-- The radius of the corner between a side and the next. -/
def radius {α : Type} (radii : Corners α) : Side → α
  | top => radii.topRight
  | right => radii.bottomRight
  | bottom => radii.bottomLeft
  | left => radii.topLeft

/-- The direction in which a side is drawn. The y axis points down. -/
def heading : Side → Point ℝ
  | top => ⟨1, 0⟩
  | right => ⟨0, 1⟩
  | bottom => ⟨-1, 0⟩
  | left => ⟨0, -1⟩

variable (r : Rect ℝ)

/-- The corner in which a side starts. -/
def origin : Side → Point ℝ
  | top => ⟨r.x1, r.y1⟩
  | right => ⟨r.x2, r.y1⟩
  | bottom => ⟨r.x2, r.y2⟩
  | left => ⟨r.x1, r.y2⟩

noncomputable def length : Side → ℝ
  | top | bottom => r.width
  | right | left => r.height

/-- A point of the rectangle that lies on a side. -/
def Has (p : Point ℝ) (side : Side) : Prop :=
  (r.x1 ≤ p.x ∧ p.x ≤ r.x2) ∧ (r.y1 ≤ p.y ∧ p.y ≤ r.y2) ∧
    match side with
    | top => p.y = r.y1
    | right => p.x = r.x2
    | bottom => p.y = r.y2
    | left => p.x = r.x1

variable {r}

/-- A side ends in the corner in which the next one starts. -/
theorem origin_next (side : Side) :
    side.next.origin r = side.origin r + side.heading * side.length r := by
  cases side <;> apply Point.ext <;> simp [next, origin, heading, length, Rect.width, Rect.height]

variable (r) in
/-- No side is shorter than the shorter one. -/
theorem min_le_length (side : Side) : min r.width r.height ≤ side.length r := by
  cases side
  · exact min_le_left _ _
  · exact min_le_right _ _
  · exact min_le_left _ _
  · exact min_le_right _ _

/-- What is on the way along a side lies on it. -/
theorem has_of_le (width : 0 ≤ r.width) (height : 0 ≤ r.height) (side : Side) {t : ℝ}
    (nonneg : 0 ≤ t) (within : t ≤ side.length r) :
    side.Has r (side.origin r + side.heading * t) := by
  rw [Rect.width] at width
  rw [Rect.height] at height
  cases side <;> simp only [length, Rect.width, Rect.height] at within <;>
    simp only [Has, origin, heading, Point.add_x, Point.add_y, Point.mul_x, Point.mul_y] <;>
    refine ⟨⟨?_, ?_⟩, ⟨?_, ?_⟩, ?_⟩ <;> linarith

end Side

/-! ## Legs -/

/-- A straight line in a direction, or nothing if the pen is at its end. -/
inductive Straight (heading : Point ℝ) : Point ℝ → Path ℝ → Point ℝ → Prop
  | stay (p : Point ℝ) : Straight heading p [] p
  | ahead (p : Point ℝ) (length : ℝ) (positive : 0 < length) :
    Straight heading p [.line (p + heading * length)] (p + heading * length)

/-- A quarter of a circle from one direction into another, clockwise, or nothing if it has no
radius. It goes as far in the first direction as in the second one. -/
inductive Around (before after : Point ℝ) : ℝ → Point ℝ → Path ℝ → Point ℝ → Prop
  | sharp (p : Point ℝ) : Around before after 0 p [] p
  | round (p : Point ℝ) (radius : ℝ) (positive : 0 < radius) :
    Around before after radius p
      [.arc radius radius 0 false true (p + before * radius + after * radius)]
      (p + before * radius + after * radius)

/-- The part of an outline that is drawn along a side of a rectangle and around the corner between
it and the next side. -/
structure Leg (r : Rect ℝ) (side : Side) (radius : ℝ) (p : Point ℝ) (path : Path ℝ)
    (q : Point ℝ) : Prop where
  radius_le : radius ≤ min r.width r.height / 2
  start : side.Has r p
  stop : side.next.Has r q
  drawn : ∃ turn line arc, path = line ++ arc ∧ side.Has r turn ∧
    Straight side.heading p line turn ∧
    Around side.heading side.next.heading radius turn arc q

theorem straight_edge {heading p q : Point ℝ} {length : ℝ} (nonneg : 0 ≤ length)
    (ahead : q = p + heading * length) : Straight heading p (edge (decide (0 < length)) q) q := by
  rcases nonneg.eq_or_lt with rfl | positive
  · have same : q = p := by
      rw [ahead]
      apply Point.ext <;> simp
    rw [same, edge, if_neg (by simp)]
    exact .stay p
  · rw [ahead, edge, if_pos (by simpa using positive)]
    exact .ahead p length positive

theorem around_corner {before after p q : Point ℝ} {radius : ℝ} (nonneg : 0 ≤ radius)
    (around : q = p + before * radius + after * radius) :
    Around before after radius p (corner radius q) q := by
  rcases nonneg.eq_or_lt with rfl | positive
  · have same : q = p := by
      rw [around]
      apply Point.ext <;> simp
    rw [same, corner, if_neg (by simp)]
    exact .sharp p
  · rw [around, corner, if_pos (by simpa using positive), Scalar.literal_zero]
    exact .round p radius positive

theorem Straight.leads {heading p q : Point ℝ} {path : Path ℝ} (h : Straight heading p path q) :
    Path.Leads p path q := by
  cases h <;> rfl

theorem Around.leads {before after p q : Point ℝ} {radius : ℝ} {path : Path ℝ}
    (h : Around before after radius p path q) : Path.Leads p path q := by
  cases h <;> rfl

theorem Leg.leads {r : Rect ℝ} {side : Side} {radius : ℝ} {p q : Point ℝ} {path : Path ℝ}
    (h : Leg r side radius p path q) : Path.Leads p path q := by
  obtain ⟨turn, line, arc, rfl, -, straight, around⟩ := h.drawn
  exact straight.leads.append around.leads

/-! ## The four legs -/

namespace Side

variable (r : Rect ℝ) (c : Corners ℝ) (side : Side)

/-- Where a side starts behind the corner before it. -/
noncomputable def start : Point ℝ :=
  side.origin r + side.heading * side.prev.radius c

/-- The length that both of its corners leave to a side. -/
noncomputable def free : ℝ :=
  side.length r - side.prev.radius c - side.radius c

/-- Where a side ends before the corner behind it. -/
noncomputable def turn : Point ℝ :=
  side.start r c + side.heading * side.free r c

/-- What is drawn of a side and of the corner behind it. -/
noncomputable def leg : Path ℝ :=
  edge (decide (0 < side.free r c)) (side.turn r c) ++
    SvgLayout.corner (side.radius c) (side.next.start r c)

/-- The corner leads from the end of a side to the start of the next one. -/
theorem start_next :
    side.next.start r c =
      side.turn r c + side.heading * side.radius c + side.next.heading * side.radius c := by
  rw [start, origin_next, prev_next, turn, start, free]
  apply Point.ext
  · simp only [Point.add_x, Point.mul_x]
    ring
  · simp only [Point.add_y, Point.mul_y]
    ring

/-- A side ends as far from its last corner as the radius is long. -/
theorem turn_eq :
    side.turn r c = side.origin r + side.heading * (side.length r - side.radius c) := by
  rw [turn, start, free]
  apply Point.ext
  · simp only [Point.add_x, Point.mul_x]
    ring
  · simp only [Point.add_y, Point.mul_y]
    ring

theorem start_eq_mk :
    side.start r c = match side with
      | top => ⟨r.x1 + c.topLeft, r.y1⟩
      | right => ⟨r.x2, r.y1 + c.topRight⟩
      | bottom => ⟨r.x2 - c.bottomRight, r.y2⟩
      | left => ⟨r.x1, r.y2 - c.bottomLeft⟩ := by
  cases side <;> apply Point.ext <;> simp [start, origin, heading, prev, radius, sub_eq_add_neg]

theorem turn_eq_mk :
    side.turn r c = match side with
      | top => ⟨r.x2 - c.topRight, r.y1⟩
      | right => ⟨r.x2, r.y2 - c.bottomRight⟩
      | bottom => ⟨r.x1 + c.bottomLeft, r.y2⟩
      | left => ⟨r.x1, r.y1 + c.topLeft⟩ := by
  rw [turn_eq]
  cases side <;> apply Point.ext <;>
    simp [origin, heading, length, radius, Rect.width, Rect.height] <;> ring

theorem free_pos_iff :
    0 < side.free r c ↔ match side with
      | top => r.x1 + c.topLeft < r.x2 - c.topRight
      | right => r.y1 + c.topRight < r.y2 - c.bottomRight
      | bottom => r.x1 + c.bottomLeft < r.x2 - c.bottomRight
      | left => r.y1 + c.topLeft < r.y2 - c.bottomLeft := by
  cases side <;> simp only [free, length, prev, radius, Rect.width, Rect.height] <;>
    constructor <;> intro h <;> linarith

variable {r c}

/-- A side and the corner behind it are drawn in one leg if the radii fit into the rectangle. -/
theorem isLeg (width : 0 ≤ r.width) (height : 0 ≤ r.height)
    (fits : ∀ side : Side, 0 ≤ side.radius c ∧ side.radius c ≤ min r.width r.height / 2) :
    Leg r side (side.radius c) (side.start r c) (side.leg r c) (side.next.start r c) := by
  have shorter := side.min_le_length r
  obtain ⟨before_nonneg, before_le⟩ := fits side.prev
  obtain ⟨behind_nonneg, behind_le⟩ := fits side
  have next := side.next.min_le_length r
  constructor
  · exact behind_le
  · exact has_of_le width height side before_nonneg (by linarith)
  · rw [start, prev_next]
    exact has_of_le width height side.next behind_nonneg (by linarith)
  · refine ⟨side.turn r c, _, _, rfl, ?_, ?_, ?_⟩
    · rw [turn_eq]
      exact has_of_le width height side (by linarith) (by linarith)
    · refine straight_edge ?_ rfl
      rw [free]
      linarith
    · exact around_corner behind_nonneg (start_next r c side)

end Side

/-! ## The outline -/

section

variable (rect : Rect ℝ) (radii : Corners ℝ)

theorem Rect.width_upright : 0 ≤ rect.upright.width := by
  simp [upright, width]

theorem Rect.height_upright : 0 ≤ rect.upright.height := by
  simp [upright, height]

/-- Every radius is brought between zero and half of the shorter side. -/
theorem radius_clampRadii {r : Rect ℝ} (width : 0 ≤ r.width) (height : 0 ≤ r.height)
    (side : Side) :
    side.radius (clampRadii r radii) =
      min (max (side.radius radii) 0) (min r.width r.height / 2) := by
  have half : max (min r.width r.height / 2) 0 = min r.width r.height / 2 :=
    max_eq_left (by positivity)
  cases side <;> simp [Side.radius, clampRadii, Corners.map, half]

/-- The outline is made of the four legs. -/
theorem roundedRect_eq :
    let r := rect.upright
    let c := clampRadii r radii
    roundedRect rect radii = .move (Side.top.start r c) ::
      (Side.top.leg r c ++ Side.right.leg r c ++ Side.bottom.leg r c ++ Side.left.leg r c) ++
        [.close] := by
  intro r c
  simp only [roundedRect, Side.leg, Side.start_eq_mk, Side.turn_eq_mk, Side.free_pos_iff,
    Side.next, Side.radius, List.cons_append, List.nil_append, List.append_assoc]
  rfl

def Rect.flipX {α : Type} (r : Rect α) : Rect α :=
  ⟨r.x2, r.y1, r.x1, r.y2⟩

def Rect.flipY {α : Type} (r : Rect α) : Rect α :=
  ⟨r.x1, r.y2, r.x2, r.y1⟩

theorem Rect.upright_flipX : rect.flipX.upright = rect.upright := by
  simp only [flipX, upright, Scalar.min_eq, Scalar.max_eq, min_comm rect.x2, max_comm rect.x2]

theorem Rect.upright_flipY : rect.flipY.upright = rect.upright := by
  simp only [flipY, upright, Scalar.min_eq, Scalar.max_eq, min_comm rect.y2, max_comm rect.y2]

/-- The outline is that of the upright rectangle. -/
theorem roundedRect_congr {rect other : Rect ℝ} (h : other.upright = rect.upright)
    (radii : Corners ℝ) : roundedRect other radii = roundedRect rect radii := by
  simp only [roundedRect, h]

end

/-- The outline of a rounded rectangle goes once around it clockwise, side by side, from a start on
the top to that start, and is the same for the flipped rectangle. -/
theorem roundedRect_outline (rect : Rect ℝ) (radii : Corners ℝ) :
    let r := rect.upright
    let path := roundedRect rect radii
    let radius := fun side : Side =>
      min (max (side.radius radii) 0) (min r.width r.height / 2)
    (∃ (start : Side → Point ℝ) (leg : Side → Path ℝ),
      path = .move (start .top) :: (leg .top ++ leg .right ++ leg .bottom ++ leg .left) ++
        [.close] ∧
      (∀ side, Leg r side (radius side) (start side) (leg side) (start side.next)) ∧
      path.end? = some (start .top)) ∧
    roundedRect rect.flipX radii = path ∧ roundedRect rect.flipY radii = path ∧
    roundedRect rect.flipX.flipY radii = path := by
  intro r path radius
  have width : 0 ≤ r.width := rect.width_upright
  have height : 0 ≤ r.height := rect.height_upright
  have clamped : ∀ side : Side, side.radius (clampRadii r radii) = radius side :=
    radius_clampRadii radii width height
  have fits : ∀ side : Side, 0 ≤ side.radius (clampRadii r radii) ∧
      side.radius (clampRadii r radii) ≤ min r.width r.height / 2 := by
    intro side
    rw [clamped]
    exact ⟨le_min (le_max_right _ _) (by positivity), min_le_right _ _⟩
  have legs := fun side : Side => side.isLeg width height fits
  have path_eq : path = _ := roundedRect_eq rect radii
  refine ⟨⟨fun side => side.start r (clampRadii r radii),
    fun side => side.leg r (clampRadii r radii), path_eq, ?_, ?_⟩, ?_, ?_, ?_⟩
  · intro side
    rw [← clamped]
    exact legs side
  · rw [path_eq]
    apply Path.end?_closed
    exact (((legs .top).leads.append (legs .right).leads).append (legs .bottom).leads).append
      (legs .left).leads
  · exact roundedRect_congr rect.upright_flipX radii
  · exact roundedRect_congr rect.upright_flipY radii
  · exact roundedRect_congr (rect.flipX.upright_flipY.trans rect.upright_flipX) radii

end SvgLayout
