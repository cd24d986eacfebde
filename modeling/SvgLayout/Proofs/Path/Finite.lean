import SvgLayout.Path.RoundedRect
import SvgLayout.Path.Spline
import SvgLayout.Proofs.Scalar.Finite

/-!
# Paths of finite numbers

When all numbers of a path are finite, for the paths that are made from other numbers.

A spline goes through all of its points, and of two points on it needs its tension. The directions
at its ends do not matter: one that is not finite is none. Of a rounded rectangle only the radius at
the top left matters, where the outline starts. Any radius is brought between zero and half of a
side if it is a number, and where it is not, the edges and the arcs that would need it are left out.

## Main definitions

* `PathCommand.IsFinite`, `Path.IsFinite` — all numbers are finite.

## Main statements

* `spline_isFinite_iff` — when a spline is finite.
* `roundedRect_isFinite_iff` — when the outline of a rounded rectangle is finite.
-/

namespace SvgLayout

section

variable {α : Type} [Scalar α]

def PathCommand.IsFinite : PathCommand α → Prop
  | move target | line target => target.IsFinite
  | arc rx ry rotation _ _ target =>
    (⟨rx, ry⟩ : Point α).IsFinite ∧ Scalar.isFinite rotation = true ∧ target.IsFinite
  | quad control target => control.IsFinite ∧ target.IsFinite
  | cubic control1 control2 target => control1.IsFinite ∧ control2.IsFinite ∧ target.IsFinite
  | close => True

def Path.IsFinite (path : Path α) : Prop :=
  ∀ command ∈ path, command.IsFinite

theorem Path.isFinite_nil : Path.IsFinite ([] : Path α) := by
  simp [IsFinite]

theorem Path.isFinite_cons {command : PathCommand α} {path : Path α} :
    Path.IsFinite (command :: path) ↔ command.IsFinite ∧ Path.IsFinite path :=
  List.forall_mem_cons

theorem Path.isFinite_append {p q : Path α} :
    Path.IsFinite (p ++ q) ↔ Path.IsFinite p ∧ Path.IsFinite q :=
  List.forall_mem_append

end

/-! ## Lists -/

section

variable {β γ : Type}

/-- What a change does not affect holds of a list in which one entry is changed if it holds of the
list. -/
theorem forall_mem_modify {P : β → Prop} {f : β → β} (same : ∀ x, P (f x) ↔ P x) (xs : List β)
    (i : Nat) : (∀ x ∈ xs.modify i f, P x) ↔ ∀ x ∈ xs, P x := by
  induction xs generalizing i with
  | nil => simp
  | cons x xs ih =>
    cases i with
    | zero => simp [same]
    | succ i => simp [ih]

/-- What holds of both entries of all pairs. -/
theorem forall_mem_zip {P : β → Prop} {Q : γ → Prop} {xs : List β} {ys : List γ}
    (length : xs.length = ys.length) :
    (∀ pair ∈ xs.zip ys, P pair.1 ∧ Q pair.2) ↔ (∀ x ∈ xs, P x) ∧ ∀ y ∈ ys, Q y := by
  induction xs generalizing ys with
  | nil =>
    obtain rfl := List.length_eq_zero_iff.mp length.symm
    simp
  | cons x xs ih =>
    cases ys with
    | nil => simp at length
    | cons y ys =>
      rw [List.zip_cons_cons, List.forall_mem_cons, List.forall_mem_cons, List.forall_mem_cons,
        ih (by simpa using length), and_and_and_comm]

end

/-! ## Splines -/

section

variable {points : List (Point Extended)} {curve : Extended}

/-- A tangent that is turned into another direction stays as finite as it was. -/
theorem redirect_isFinite_iff (direction : Option (Point Extended)) (tangent : Point Extended) :
    (redirect tangent direction).IsFinite ↔ tangent.IsFinite := by
  rw [redirect]
  cases turned : direction.bind Point.normalize? with
  | none => rfl
  | some unit =>
    obtain ⟨d, -, normalized⟩ := Option.bind_eq_some_iff.mp turned
    have finite := Point.isFinite_of_normalize? normalized
    simp only [Point.isFinite_mul, finite, true_and]
    constructor
    · exact Point.isFinite_of_length
    · rintro ⟨x, y⟩
      obtain ⟨a, ha⟩ := Extended.isFinite_iff.mp x
      obtain ⟨b, hb⟩ := Extended.isFinite_iff.mp y
      have squares : ¬a * a + b * b < 0 :=
        (add_nonneg (mul_self_nonneg a) (mul_self_nonneg b)).not_gt
      have length : tangent.length = .real (Real.sqrt (a * a + b * b)) := by
        rw [Point.length, ha, hb]
        exact if_neg squares
      rw [length]
      rfl

theorem length_tangentsBetween {α : Type} [Scalar α] {curve : α} {points : List (Point α)}
    (before after : Point α) (h : points ≠ []) :
    (tangentsBetween curve before after points).length = points.length := by
  have positive := List.length_pos_iff.mpr h
  simp only [tangentsBetween, neighbours, List.length_map, List.length_zip, List.length_cons,
    List.length_append, List.length_drop, List.length_nil]
  omega

/-- Tangents between finite points are finite if the tension is. -/
theorem tangentsBetween_isFinite_iff {before after : Point Extended} (nonempty : points ≠ [])
    (first : before.IsFinite) (last : after.IsFinite) (finite : ∀ p ∈ points, p.IsFinite) :
    (∀ t ∈ tangentsBetween curve before after points, t.IsFinite) ↔
      Scalar.isFinite curve = true := by
  have differences : ∀ pair ∈ neighbours before after points, (pair.2 - pair.1).IsFinite := by
    rintro ⟨p, q⟩ h
    obtain ⟨hp, hq⟩ := List.of_mem_zip h
    refine Point.isFinite_sub.mpr ⟨?_, ?_⟩
    · rcases List.mem_append.mp hq with hq | hq
      · exact finite q (List.mem_of_mem_drop hq)
      · rw [List.mem_singleton.mp hq]
        exact last
    · rcases List.mem_cons.mp hp with rfl | hp
      · exact first
      · exact finite p hp
  have nonempty : neighbours before after points ≠ [] := by
    have length : (tangentsBetween curve before after points).length = points.length :=
      length_tangentsBetween before after nonempty
    rw [tangentsBetween, List.length_map] at length
    rw [← List.length_pos_iff, length, List.length_pos_iff]
    exact nonempty
  simp only [tangentsBetween, List.forall_mem_map, Point.isFinite_mul]
  constructor
  · intro h
    obtain ⟨pair, hpair⟩ := List.exists_mem_of_ne_nil _ nonempty
    exact (h pair hpair).2
  · intro h pair hpair
    exact ⟨differences pair hpair, h⟩

/-- The cubics through knots use all of them. -/
theorem splineSegments_isFinite_iff {knot other : Point Extended × Point Extended}
    {knots : List (Point Extended × Point Extended)} :
    Path.IsFinite (splineSegments (knot :: other :: knots)) ↔
      ∀ k ∈ knot :: other :: knots, k.1.IsFinite ∧ k.2.IsFinite := by
  have segment (a b : Point Extended × Point Extended) :
      (splineSegment a b).IsFinite ↔
        (a.1.IsFinite ∧ a.2.IsFinite) ∧ b.1.IsFinite ∧ b.2.IsFinite := by
    have three : (3.0 : ℝ) ≠ 0 := by norm_num
    simp only [splineSegment, PathCommand.IsFinite, Point.isFinite_add, Point.isFinite_sub,
      Extended.ofScientific_eq, Point.isFinite_div_real three]
    tauto
  induction knots generalizing knot other with
  | nil =>
    have lone : splineSegments [knot, other] = [splineSegment knot other] := rfl
    simp [lone, Path.IsFinite, segment]
  | cons next knots ih =>
    have cons : splineSegments (knot :: other :: next :: knots) =
        splineSegment knot other :: splineSegments (other :: next :: knots) := rfl
    have rest : Path.IsFinite (splineSegments (other :: next :: knots)) ↔
        ∀ k ∈ other :: next :: knots, k.1.IsFinite ∧ k.2.IsFinite := ih
    rw [cons, Path.isFinite_cons, segment, rest]
    simp only [List.forall_mem_cons]
    tauto

/-- There is a tangent for each point. -/
theorem length_splineTangents {α : Type} [Scalar α] (points : List (Point α))
    (options : SplineOptions α) : (splineTangents points options).length = points.length := by
  cases points with
  | nil => rfl
  | cons p points =>
    obtain ⟨last, hlast⟩ : ∃ last, (p :: points).getLast? = some last :=
      ⟨_, List.getLast?_eq_some_getLast (List.cons_ne_nil _ _)⟩
    have length (before after : Point α) :
        (tangentsBetween options.curve before after (p :: points)).length = (p :: points).length :=
      length_tangentsBetween before after (List.cons_ne_nil p points)
    rw [splineTangents, hlast, List.head?_cons]
    cases closed : options.closed <;> simp [modifyLast, length]

/-- The tangents of a spline through finite points are finite if its tension is. -/
theorem splineTangents_isFinite_iff {options : SplineOptions Extended} (nonempty : points ≠ [])
    (finite : ∀ p ∈ points, p.IsFinite) :
    (∀ t ∈ splineTangents points options, t.IsFinite) ↔
      Scalar.isFinite options.curve = true := by
  obtain ⟨p, hp⟩ := Option.ne_none_iff_exists'.mp (List.head?_eq_none_iff.not.mpr nonempty)
  obtain ⟨q, hq⟩ := Option.ne_none_iff_exists'.mp (List.getLast?_eq_none_iff.not.mpr nonempty)
  have first := finite p (List.mem_of_head? hp)
  have last := finite q (List.mem_of_getLast? hq)
  rw [splineTangents, hp, hq]
  cases closed : options.closed with
  | true => exact tangentsBetween_isFinite_iff nonempty last first finite
  | false =>
    simp only [Bool.false_eq_true, if_false, modifyLast, List.modifyHead_eq_modify_zero,
      forall_mem_modify (redirect_isFinite_iff _)]
    exact tangentsBetween_isFinite_iff nonempty first last finite

/-- A spline is finite if its points are, and its tension as well if there are two points or
more. -/
theorem spline_isFinite_iff (points : List (Point Extended)) (options : SplineOptions Extended) :
    Path.IsFinite (spline points options) ↔
      (∀ p ∈ points, p.IsFinite) ∧ (2 ≤ points.length → Scalar.isFinite options.curve = true) := by
  match points with
  | [] => simp [spline, Path.isFinite_nil]
  | [p] => simp [spline, Path.isFinite_cons, Path.isFinite_nil, PathCommand.IsFinite]
  | p :: q :: rest =>
    have length := length_splineTangents (p :: q :: rest) options
    obtain ⟨t, u, tangents, htangents⟩ :
        ∃ t u tangents, splineTangents (p :: q :: rest) options = t :: u :: tangents := by
      match h : splineTangents (p :: q :: rest) options with
      | [] => simp [h] at length
      | [_] => simp [h] at length
      | t :: u :: tangents => exact ⟨t, u, tangents, rfl⟩
    have knots : (∀ k ∈ (p :: q :: rest).zip (t :: u :: tangents), k.1.IsFinite ∧ k.2.IsFinite) ↔
        (∀ x ∈ p :: q :: rest, x.IsFinite) ∧ Scalar.isFinite options.curve = true := by
      rw [← htangents, forall_mem_zip length.symm]
      exact and_congr_right fun finite =>
        splineTangents_isFinite_iff (List.cons_ne_nil p (q :: rest)) finite
    have many : 2 ≤ (p :: q :: rest).length := by simp
    have path : spline (p :: q :: rest) options =
        if options.closed then
          .move p :: splineSegments ((p, t) :: (q, u) :: (rest.zip tangents ++ [(p, t)])) ++
            [.close]
        else .move p :: splineSegments ((p, t) :: (q, u) :: rest.zip tangents) := by
      rw [spline, htangents]
      · rfl
      · simp
    have move : (PathCommand.move p).IsFinite ↔ p.IsFinite := Iff.rfl
    rw [imp_iff_right many, ← knots, path, List.zip_cons_cons, List.zip_cons_cons]
    cases options.closed with
    | true =>
      simp only [if_true, Path.isFinite_append, Path.isFinite_cons, splineSegments_isFinite_iff,
        List.forall_mem_cons, List.forall_mem_append, Path.isFinite_nil, PathCommand.IsFinite,
        and_true]
      tauto
    | false =>
      simp only [Bool.false_eq_true, if_false, Path.isFinite_cons, move,
        splineSegments_isFinite_iff, List.forall_mem_cons]
      tauto

end

/-! ## Rounded rectangles -/

theorem edge_isFinite {a b : Extended} {target : Point Extended}
    (h : Scalar.isNaN a = false → Scalar.isNaN b = false → target.IsFinite) :
    Path.IsFinite (edge (decide (a < b)) target) := by
  by_cases forward : a < b
  · obtain ⟨lesser, greater⟩ := Extended.isNaN_of_lt forward
    have finite := h lesser greater
    simpa [edge, forward, Path.IsFinite, PathCommand.IsFinite] using finite
  · simp [edge, forward, Path.isFinite_nil]

theorem corner_isFinite {r : Extended} {target : Point Extended}
    (h : Scalar.isNaN r = false → Scalar.isFinite r = true ∧ target.IsFinite) :
    Path.IsFinite (corner r target) := by
  by_cases round : 0.0 < r
  · obtain ⟨radius, finite⟩ := h (Extended.isNaN_of_lt round).2
    rw [corner, if_pos round, Path.isFinite_cons]
    exact ⟨⟨⟨radius, radius⟩, rfl, finite⟩, Path.isFinite_nil⟩
  · rw [corner, if_neg round]
    exact Path.isFinite_nil

/-- The radii that are drawn in a finite rectangle. -/
theorem exists_clampRadii {r : Rect Extended} (finite : r.isFinite = true)
    (radii : Corners Extended) :
    ∃ limit : ℝ, 0 ≤ limit ∧
      clampRadii r radii = radii.map (Scalar.clamp · (.real 0) (.real limit)) := by
  obtain ⟨w, hw⟩ := Extended.isFinite_iff.mp (Rect.isFinite_width finite)
  obtain ⟨h, hh⟩ := Extended.isFinite_iff.mp (Rect.isFinite_height finite)
  refine ⟨max (min w h / 2) 0, le_max_right _ _, ?_⟩
  have two : (2.0 : ℝ) ≠ 0 := by norm_num
  have limit : Scalar.max (Scalar.min r.width r.height / 2.0) 0.0 =
      Extended.real (max (min w h / 2) 0) := by
    rw [hw, hh, Extended.min_real, Extended.ofScientific_eq, Extended.ofScientific_eq,
      Extended.real_div two, Extended.max_real]
    norm_num
  have zero : (0.0 : Extended) = .real 0 := by
    rw [Extended.ofScientific_eq]
    norm_num
  rw [clampRadii, limit, zero]

/-- The outline of a finite rectangle is finite if the radius at the top left is a number. -/
theorem roundedRect_isFinite_iff {r : Rect Extended} (finite : r.isFinite = true)
    (radii : Corners Extended) :
    Path.IsFinite (roundedRect r radii) ↔ Scalar.isNaN radii.topLeft = false := by
  have upright := Rect.isFinite_upright finite
  obtain ⟨⟨x1, y1⟩, x2, y2⟩ := Rect.isFinite_iff.mp upright
  obtain ⟨limit, positive, clamped⟩ := exists_clampRadii upright radii
  have radius (x : Extended)
      (number : Scalar.isNaN (Scalar.clamp x (.real 0) (.real limit)) = false) :
      Scalar.isFinite (Scalar.clamp x (.real 0) (.real limit)) = true :=
    Extended.isFinite_clamp positive (by rwa [Extended.isNaN_clamp positive] at number)
  have start : Scalar.isNaN radii.topLeft = false ↔
      Scalar.isFinite (Scalar.clamp radii.topLeft (.real 0) (.real limit)) = true := by
    constructor
    · exact Extended.isFinite_clamp positive
    · intro finite
      obtain ⟨x, eq⟩ := Extended.isFinite_iff.mp finite
      rw [← Extended.isNaN_clamp positive, eq]
      rfl
  -- The radius of the other corners only stands in edges and arcs that compare it first.
  have after {a x : Extended}
      (number : Scalar.isNaN (a + Scalar.clamp x (.real 0) (.real limit)) = false) :
      Scalar.isFinite (Scalar.clamp x (.real 0) (.real limit)) = true :=
    radius x (Extended.isNaN_of_add number)
  have before {a x : Extended}
      (number : Scalar.isNaN (a - Scalar.clamp x (.real 0) (.real limit)) = false) :
      Scalar.isFinite (Scalar.clamp x (.real 0) (.real limit)) = true :=
    radius x (Extended.isNaN_of_sub number)
  rw [roundedRect, clamped, start]
  simp only [Corners.map, Path.isFinite_append, Path.isFinite_cons, Path.isFinite_nil, and_true]
  constructor
  · rintro ⟨⟨⟨⟨⟨⟨⟨⟨⟨⟨move, -⟩, -⟩, -⟩, -⟩, -⟩, -⟩, -⟩, -⟩, -⟩, -⟩
    rw [Extended.isFinite_add, Bool.and_eq_true] at move
    exact move.2
  · intro tl
    have corner {x : Extended} {target : Point Extended}
        (h : Scalar.isFinite (Scalar.clamp x (.real 0) (.real limit)) = true → target.IsFinite) :
        Path.IsFinite (corner (Scalar.clamp x (.real 0) (.real limit)) target) :=
      corner_isFinite fun number => ⟨radius x number, h (radius x number)⟩
    refine ⟨⟨⟨⟨⟨⟨⟨⟨⟨?_, ?_⟩, ?_⟩, ?_⟩, ?_⟩, ?_⟩, ?_⟩, ?_⟩, ?_⟩, trivial⟩
    · simp [PathCommand.IsFinite, Point.IsFinite, x1, y1, tl]
    · exact edge_isFinite fun _ h => by simp [Point.IsFinite, x2, y1, before h]
    · exact corner fun h => by simp [Point.IsFinite, x2, y1, h]
    · exact edge_isFinite fun _ h => by simp [Point.IsFinite, x2, y2, before h]
    · exact corner fun h => by simp [Point.IsFinite, x2, y2, h]
    · exact edge_isFinite fun h _ => by simp [Point.IsFinite, x1, y2, after h]
    · exact corner fun h => by simp [Point.IsFinite, x1, y2, h]
    · exact edge_isFinite fun h _ => by simp [Point.IsFinite, x1, y1, after h]
    · exact corner fun h => by simp [Point.IsFinite, x1, y1, h]

end SvgLayout
