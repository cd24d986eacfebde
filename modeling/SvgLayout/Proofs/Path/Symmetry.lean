import Mathlib.Data.List.Rotate
import SvgLayout.Element.Primitive
import SvgLayout.Proofs.Path.Interpolation

/-!
# Symmetries of splines

A spline is made from differences of its points, so it goes along with every affine map of the
plane, in particular with the map of a context to pixels. It does not matter from which end an open
curve is drawn, nor where a closed one begins: the cubics are the same, only in another order and,
seen from the other end, with their control points exchanged.

## Main definitions

* `PlaneMap` — an affine map of the plane; `Context.plane` is that of a context.
* `Path.mapPoints`, `Path.points` — the points of a path.
* `Cubic.backwards`, `SplineOptions.backwards` — a curve seen from its other end.

## Main statements

* `spline_map` — a curve of mapped points is the mapped curve.
* `splineKnots_reverse` — the knots of an open curve seen from its other end.
* `cubics_rotate_one` — a closed curve that begins at its second point.
* `spline_symmetries` — all symmetries of a spline.
-/

namespace SvgLayout

/-! ## Affine maps -/

/-- An affine map of the plane, by the images of the two units of displacement and of the origin. -/
structure PlaneMap where
  right : Point ℝ
  down : Point ℝ
  shift : Point ℝ

namespace PlaneMap

noncomputable section

/-- The image of a displacement. -/
def linear (m : PlaneMap) (d : Point ℝ) : Point ℝ :=
  m.right * d.x + m.down * d.y

def apply (m : PlaneMap) (p : Point ℝ) : Point ℝ :=
  m.linear p + m.shift

/-- The shear along the horizontal axis that keeps the points of the line `a * x + b * y = c` and
no others in place. -/
def shear (a b c : ℝ) : PlaneMap where
  right := ⟨1 + a, 0⟩
  down := ⟨b, 1⟩
  shift := ⟨-c, 0⟩

end

variable (m : PlaneMap)

theorem apply_sub_apply (p q : Point ℝ) : m.apply p - m.apply q = m.linear (p - q) := by
  apply Point.ext <;> simp only [apply, linear, Point.sub_x, Point.sub_y, Point.add_x, Point.add_y,
    Point.mul_x, Point.mul_y] <;> ring

theorem linear_mul (d : Point ℝ) (k : ℝ) : m.linear (d * k) = m.linear d * k := by
  apply Point.ext <;> simp only [linear, Point.add_x, Point.add_y, Point.mul_x, Point.mul_y] <;>
    ring

theorem apply_add_div (p d : Point ℝ) (k : ℝ) :
    m.apply (p + d / k) = m.apply p + m.linear d / k := by
  apply Point.ext <;> simp only [apply, linear, Point.add_x, Point.add_y, Point.mul_x, Point.mul_y,
    Point.div_x, Point.div_y] <;> ring

theorem apply_sub_div (p d : Point ℝ) (k : ℝ) :
    m.apply (p - d / k) = m.apply p - m.linear d / k := by
  apply Point.ext <;> simp only [apply, linear, Point.add_x, Point.add_y, Point.sub_x, Point.sub_y,
    Point.mul_x, Point.mul_y, Point.div_x, Point.div_y] <;> ring

theorem shear_apply_eq_iff {a b c : ℝ} {p : Point ℝ} :
    (shear a b c).apply p = p ↔ a * p.x + b * p.y = c := by
  simp only [Point.ext_iff, shear, apply, linear, Point.add_x, Point.add_y, Point.mul_x,
    Point.mul_y]
  constructor
  · intro h
    linarith [h.1]
  · intro h
    constructor
    · linarith
    · ring

end PlaneMap

/-- The affine map of a logical space to pixels. -/
noncomputable def Context.plane (ctx : Context ℝ) : PlaneMap where
  right := ⟨ctx.xMap.scale, 0⟩
  down := ⟨0, ctx.yMap.scale⟩
  shift := ⟨ctx.xMap.apply 0, ctx.yMap.apply 0⟩

/-- Points that are not nudged are mapped affinely. -/
theorem Context.mapPoint_ofPoint (ctx : Context ℝ) (p : Point ℝ) :
    ctx.mapPoint (.ofPoint p) = ctx.plane.apply p := by
  apply Point.ext <;> simp only [mapPoint, NudgedPoint.ofPoint, Nudged.ofNumber,
    AxisMap.applyNudged, AxisMap.apply, plane, PlaneMap.apply, PlaneMap.linear,
    Scalar.literal_zero, Point.add_x, Point.add_y, Point.mul_x, Point.mul_y] <;> ring

/-! ## Points of a path -/

section

variable {α : Type}

namespace PathCommand

/-- The points of a command, the control points among them. -/
def points : PathCommand α → List (Point α)
  | move target | line target | arc _ _ _ _ _ target => [target]
  | quad control target => [control, target]
  | cubic control1 control2 target => [control1, control2, target]
  | close => []

/-- A function of every point of a command. The radii of an arc are no points. -/
def mapPoints (f : Point α → Point α) : PathCommand α → PathCommand α
  | move target => move (f target)
  | line target => line (f target)
  | arc rx ry rotation large sweep target => arc rx ry rotation large sweep (f target)
  | quad control target => quad (f control) (f target)
  | cubic control1 control2 target => cubic (f control1) (f control2) (f target)
  | close => close

theorem points_mapPoints (f : Point α → Point α) (command : PathCommand α) :
    (command.mapPoints f).points = command.points.map f := by
  cases command <;> rfl

end PathCommand

namespace Path

/-- The points of a path, the control points among them. -/
def points (path : Path α) : List (Point α) :=
  path.flatMap PathCommand.points

def mapPoints (f : Point α → Point α) (path : Path α) : Path α :=
  path.map (PathCommand.mapPoints f)

theorem points_mapPoints (f : Point α → Point α) (path : Path α) :
    (path.mapPoints f).points = path.points.map f := by
  simp only [points, mapPoints, List.flatMap_map, List.map_flatMap, PathCommand.points_mapPoints]

/-- What keeps a path in place keeps all of its points in place. -/
theorem apply_eq_of_mapPoints {f : Point α → Point α} {path : Path α}
    (h : path.mapPoints f = path) : ∀ p ∈ path.points, f p = p := by
  have same : path.points.map f = path.points.map id := by
    rw [← points_mapPoints, h, List.map_id]
  exact List.map_inj_left.mp same

end Path

end

/-! ## Mapped curves -/

/-- Differences of neighbours go along with the linear part of a map. -/
theorem tangentsBetween_map (m : PlaneMap) (curve : ℝ) (before after : Point ℝ)
    (points : List (Point ℝ)) :
    tangentsBetween curve (m.apply before) (m.apply after) (points.map m.apply) =
      (tangentsBetween curve before after points).map m.linear := by
  have pairs : neighbours (m.apply before) (m.apply after) (points.map m.apply) =
      (neighbours before after points).map (Prod.map m.apply m.apply) := by
    rw [neighbours, neighbours, ← List.map_drop, ← List.map_singleton, ← List.map_append,
      ← List.map_cons, List.zip_map]
  rw [tangentsBetween, tangentsBetween, pairs, List.map_map, List.map_map]
  refine List.map_congr_left fun pair _ => ?_
  simp only [Function.comp_apply, Prod.map_fst, Prod.map_snd, m.apply_sub_apply, m.linear_mul]

/-- Without directions a curve has the tangents between its points. -/
theorem redirect_ends_none (tangents : List (Point ℝ)) :
    modifyLast (redirect · none) (tangents.modifyHead (redirect · none)) = tangents := by
  show (tangents.modifyHead id).modify _ id = tangents
  rw [List.modifyHead_id, id, List.modify_id]

theorem splineTangents_map (m : PlaneMap) (points : List (Point ℝ)) (options : SplineOptions ℝ) :
    splineTangents (points.map m.apply) options.undirected =
      (splineTangents points options.undirected).map m.linear := by
  simp only [splineTangents, SplineOptions.undirected, redirect_ends_none, List.head?_map,
    List.getLast?_map]
  cases points.head? with
  | none => rfl
  | some first =>
    cases points.getLast? with
    | none => rfl
    | some last =>
      by_cases closed : options.closed = true
      · simp only [Option.map_some, closed, if_true, tangentsBetween_map]
      · simp only [Option.map_some, closed, Bool.false_eq_true, if_false, tangentsBetween_map]

theorem splineSegments_map (m : PlaneMap) (knots : List (Point ℝ × Point ℝ)) :
    splineSegments (knots.map (Prod.map m.apply m.linear)) =
      (splineSegments knots).mapPoints m.apply := by
  rw [splineSegments, splineSegments, Path.mapPoints, ← List.map_drop, List.zipWith_map,
    List.map_zipWith]
  congr 1
  funext start stop
  simp only [splineSegment, PathCommand.mapPoints, Prod.map_fst, Prod.map_snd, m.apply_add_div,
    m.apply_sub_div]

/-- A curve without directions at its ends goes along with every affine map. -/
theorem spline_map (m : PlaneMap) (points : List (Point ℝ)) (options : SplineOptions ℝ) :
    spline (points.map m.apply) options.undirected =
      (spline points options.undirected).mapPoints m.apply := by
  match points with
  | [] => rfl
  | [p] => rfl
  | first :: second :: rest =>
    have knots : (m.apply first :: m.apply second :: rest.map m.apply).zip
        (splineTangents ((first :: second :: rest).map m.apply) options.undirected) =
        ((first :: second :: rest).zip
          (splineTangents (first :: second :: rest) options.undirected)).map
            (Prod.map m.apply m.linear) := by
      rw [splineTangents_map, ← List.zip_map]
      rfl
    rw [List.map_cons, List.map_cons, spline, spline]
    · simp only [List.map_cons] at knots
      rw [knots, ← List.map_take, ← List.map_append, splineSegments_map, splineSegments_map]
      by_cases closed : options.undirected.closed = true
      · simp [closed, Path.mapPoints, PathCommand.mapPoints]
      · simp [closed, Path.mapPoints, PathCommand.mapPoints]
    · simp
    · simp

/-! ## The other end of a curve -/

instance : Neg (Point ℝ) where
  neg d := ⟨-d.x, -d.y⟩

@[simp] theorem Point.neg_x (d : Point ℝ) : (-d).x = -d.x := rfl

@[simp] theorem Point.neg_y (d : Point ℝ) : (-d).y = -d.y := rfl

def Cubic.backwards {α : Type} (cubic : Cubic α) : Cubic α :=
  ⟨cubic.target, cubic.control2, cubic.control1, cubic.start⟩

/-- The options of a curve that is drawn from its end: the directions change places and point the
other way. -/
noncomputable def SplineOptions.backwards (options : SplineOptions ℝ) : SplineOptions ℝ :=
  { options with
    startDir := options.endDir.map (-·)
    endDir := options.startDir.map (-·) }

/-- A point with its tangent, seen from the other end. -/
noncomputable def turnAround (knot : Point ℝ × Point ℝ) : Point ℝ × Point ℝ :=
  (knot.1, -knot.2)

theorem knotCubic_turnAround (start stop : Point ℝ × Point ℝ) :
    knotCubic (turnAround stop) (turnAround start) = (knotCubic start stop).backwards := by
  have leave : leaving (turnAround stop) = arriving stop := by
    apply Point.ext <;> simp [leaving, arriving, turnAround, neg_div, sub_eq_add_neg]
  have arrive : arriving (turnAround start) = leaving start := by
    apply Point.ext <;> simp [leaving, arriving, turnAround, neg_div]
  rw [knotCubic, leave, arrive]
  rfl

/-- The cubics between the same knots, seen from the other end. -/
theorem knotCubics_reverse (knots : List (Point ℝ × Point ℝ)) :
    knotCubics (knots.map turnAround).reverse =
      ((knotCubics knots).map Cubic.backwards).reverse := by
  induction knots with
  | nil => rfl
  | cons start knots ih =>
    cases knots with
    | nil => rfl
    | cons stop knots =>
      simp only [List.map_cons, List.reverse_cons, List.append_assoc, List.singleton_append] at ih ⊢
      rw [knotCubics_concat, ih, knotCubic_turnAround, knotCubics, List.map_cons,
        List.reverse_cons]

theorem redirect_neg (tangent : Point ℝ) (direction : Option (Point ℝ)) :
    redirect (-tangent) (direction.map (-·)) = -redirect tangent direction := by
  have length (d : Point ℝ) : (-d).length = d.length := by
    simp only [Point.length, Point.neg_x, Point.neg_y, neg_mul_neg]
  cases direction with
  | none => rfl
  | some d =>
    rw [Option.map_some]
    by_cases long : 0 < d.length
    · rw [redirect_of_pos long, redirect_of_pos (by rwa [length]), length, length]
      apply Point.ext <;> simp
    · rw [redirect_of_not_pos long, redirect_of_not_pos (by rwa [length])]

/-- The inner knots of an open curve are the same from either end. -/
theorem knotsBetween_reverse (curve : ℝ) (before after : Point ℝ) (points : List (Point ℝ)) :
    knotsBetween curve after before points.reverse =
      ((knotsBetween curve before after points).map turnAround).reverse := by
  induction points generalizing before with
  | nil => rfl
  | cons p points ih =>
    have last : points.reverse.getLastD after = points.headD after := by
      rw [List.getLastD_eq_getLast?, List.getLast?_reverse, List.headD_eq_head?_getD]
    have tangent : (before - points.headD after) * curve =
        -((points.headD after - before) * curve) := by
      apply Point.ext <;> simp only [Point.mul_x, Point.mul_y, Point.sub_x, Point.sub_y,
        Point.neg_x, Point.neg_y] <;> ring
    rw [List.reverse_cons, knotsBetween_concat, ih, last, tangent, knotsBetween, List.map_cons,
      List.reverse_cons]
    rfl

/-- The knots of an open curve through its ends and the points between them. -/
theorem splineKnots_ends {options : SplineOptions ℝ} (opened : options.closed = false)
    (first last : Point ℝ) (between : List (Point ℝ)) :
    splineKnots options (first :: (between ++ [last])) =
      (first, redirect ((between.headD last - first) * options.curve) options.startDir) ::
        knotsBetween options.curve first last between ++
        [(last, redirect ((last - between.getLastD first) * options.curve) options.endDir)] := by
  obtain ⟨second, rest, points⟩ : ∃ second rest, between ++ [last] = second :: rest :=
    List.exists_cons_of_ne_nil (by simp)
  obtain ⟨between', last', split, knots⟩ := splineKnots_of_open first second rest
  obtain ⟨rfl, ends⟩ := List.append_inj' (points.trans split) rfl
  obtain rfl : last = last' := List.singleton_inj.mp ends
  have next : between.headD last = second := by
    have head := congrArg (List.headD · last) points
    cases between <;> exact head
  rw [points, knots options opened, next]

/-- The knots of an open curve seen from its other end. -/
theorem splineKnots_reverse {options : SplineOptions ℝ} (opened : options.closed = false)
    (first second : Point ℝ) (rest : List (Point ℝ)) :
    splineKnots options.backwards (first :: second :: rest).reverse =
      ((splineKnots options (first :: second :: rest)).map turnAround).reverse := by
  obtain ⟨between, last, points⟩ := (List.eq_nil_or_concat' (second :: rest)).resolve_left
    (List.cons_ne_nil second rest)
  have head : between.reverse.headD first = between.getLastD first := by
    rw [List.headD_eq_head?_getD, List.head?_reverse, List.getLastD_eq_getLast?]
  have tail : between.reverse.getLastD last = between.headD last := by
    rw [List.getLastD_eq_getLast?, List.getLast?_reverse, List.headD_eq_head?_getD]
  have opposite (p q : Point ℝ) : (p - q) * options.curve = -((q - p) * options.curve) := by
    apply Point.ext <;> simp only [Point.mul_x, Point.mul_y, Point.sub_x, Point.sub_y,
      Point.neg_x, Point.neg_y] <;> ring
  have reversed :
      (first :: (between ++ [last])).reverse = last :: (between.reverse ++ [first]) := by
    simp
  have other : options.backwards.closed = false := opened
  rw [points, reversed, splineKnots_ends other, splineKnots_ends opened, head, tail]
  simp only [SplineOptions.backwards, knotsBetween_reverse]
  rw [opposite _ last, opposite first, redirect_neg, redirect_neg]
  simp [turnAround]

/-! ## The start of a closed curve -/

/-- A closed curve that begins at its second point has its first cubic at the end. -/
theorem cubics_rotate_one {options : SplineOptions ℝ} (closed : options.closed = true)
    (points : List (Point ℝ)) :
    (spline (points.rotate 1) options).cubics = (spline points options).cubics.rotate 1 := by
  match points with
  | [] => rfl
  | [p] =>
    rw [List.rotate_singleton]
    rfl
  | first :: second :: rest =>
    obtain ⟨third, others, split⟩ : ∃ third others, rest ++ [first] = third :: others :=
      List.exists_cons_of_ne_nil (by simp)
    have next : rest.headD first = third := by
      have head := congrArg (List.headD · first) split
      cases rest <;> exact head
    have last : others.getLastD third = first := by
      have all : (third :: others).getLastD first = first := by rw [← split, List.getLastD_concat]
      rwa [List.getLastD_cons] at all
    obtain ⟨start, point, tangent, knots⟩ := splineKnots_of_closed first second rest options closed
    obtain ⟨start', point', tangent', knots'⟩ :=
      splineKnots_of_closed second third others options closed
    -- Both curves go through the same knots: `start`, `start'`, and those of `rest`.
    have inner : knotsBetween options.curve first first (second :: rest) =
        start' :: knotsBetween options.curve second first rest := by
      rw [knotsBetween, next, ← last, ← tangent', ← point']
    have inner' : knotsBetween options.curve second second (third :: others) =
        knotsBetween options.curve second first rest ++ [start] := by
      rw [← split, knotsBetween_concat, ← point, ← tangent]
    have around : start' :: (knotsBetween options.curve second first rest ++ [start]) ++ [start'] =
        start' :: knotsBetween options.curve second first rest ++ [start, start'] := by
      simp
    have begin : knotCubics (start :: (start' :: knotsBetween options.curve second first rest) ++
          [start]) =
        knotCubic start start' ::
          knotCubics (start' :: knotsBetween options.curve second first rest ++ [start]) := rfl
    rw [List.rotate_cons_succ, List.rotate_zero, List.cons_append, split, cubics_spline,
      cubics_spline, knots, knots', inner, inner', around, knotCubics_concat, begin,
      List.rotate_cons_succ, List.rotate_zero]

/-- A closed curve that begins at another of its points. -/
theorem cubics_rotate {options : SplineOptions ℝ} (closed : options.closed = true)
    (points : List (Point ℝ)) (n : ℕ) :
    (spline (points.rotate n) options).cubics = (spline points options).cubics.rotate n := by
  induction n with
  | zero => rw [List.rotate_zero, List.rotate_zero]
  | succ n ih => rw [← List.rotate_rotate, cubics_rotate_one closed, ih, List.rotate_rotate]

/-- An open curve drawn from its other end. -/
theorem cubics_reverse {options : SplineOptions ℝ} (opened : options.closed = false)
    (points : List (Point ℝ)) :
    (spline points.reverse options.backwards).cubics =
      ((spline points options).cubics.map Cubic.backwards).reverse := by
  match points with
  | [] => rfl
  | [p] => rfl
  | first :: second :: rest =>
    have knots := splineKnots_reverse opened first second rest
    obtain ⟨last, next, others, reversed⟩ :
        ∃ last next others, (first :: second :: rest).reverse = last :: next :: others := by
      obtain ⟨last, others, h⟩ : ∃ last others, rest.reverse ++ [second] = last :: others :=
        List.exists_cons_of_ne_nil (by simp)
      obtain ⟨next, others', h'⟩ : ∃ next others', others ++ [first] = next :: others' :=
        List.exists_cons_of_ne_nil (by simp)
      exact ⟨last, next, others', by simp only [List.reverse_cons, h, List.cons_append, h']⟩
    rw [cubics_spline, ← knotCubics_reverse, ← knots, reversed, cubics_spline]

/-! ## All symmetries -/

/-- A spline without directions goes along with every affine map of its points. So what a context
draws through points that are not nudged is the curve of the logical space, mapped to pixels, and a
curve through points of a line stays on the line. An open curve through the points in reverse, with
its directions exchanged and pointing the other way, has the same cubics in reverse, each drawn from
its end. A closed curve that begins at another point has the same cubics, beginning with another
one. -/
theorem spline_symmetries (options : SplineOptions ℝ) (points : List (Point ℝ)) :
    let plain := options.undirected
    let opened := { options with closed := false }
    let closed := { options with closed := true }
    ((∀ m : PlaneMap, spline (points.map m.apply) plain =
        (spline points plain).mapPoints m.apply) ∧
      (∀ (style : Style ℝ) (ctx : Context ℝ),
        let drawn := (spline points plain).mapPoints fun p => ctx.mapPoint (.ofPoint p)
        splinePath ctx (points.map .ofPoint) plain = drawn ∧
          (Primitive.spline (points.map .ofPoint) plain).entries style ctx =
            [("d", drawn.text ctx.precision)]) ∧
      ∀ a b c : ℝ, (∀ p ∈ points, a * p.x + b * p.y = c) →
        ∀ p ∈ (spline points plain).points, a * p.x + b * p.y = c) ∧
    (spline points.reverse opened.backwards).cubics =
      ((spline points opened).cubics.map Cubic.backwards).reverse ∧
    ∀ n, (spline (points.rotate n) closed).cubics = (spline points closed).cubics.rotate n := by
  intro plain opened closed
  refine ⟨⟨?_, ?_, ?_⟩, ?_, ?_⟩
  · intro m
    exact spline_map m points options
  · intro style ctx drawn
    have path : splinePath ctx (points.map .ofPoint) options.undirected = drawn := by
      have pixels : (points.map NudgedPoint.ofPoint).map ctx.mapPoint =
          points.map ctx.plane.apply := by
        rw [List.map_map]
        exact List.map_congr_left fun p _ => ctx.mapPoint_ofPoint p
      have mapped : drawn = (spline points options.undirected).mapPoints ctx.plane.apply :=
        congrArg (Path.mapPoints · _) (funext ctx.mapPoint_ofPoint)
      rw [splinePath, pixels, mapped]
      exact spline_map ctx.plane points options
    refine ⟨path, ?_⟩
    rw [Primitive.entries, path]
  · intro a b c line
    have kept : points.map (PlaneMap.shear a b c).apply = points.map id :=
      List.map_congr_left fun p hp => PlaneMap.shear_apply_eq_iff.mpr (line p hp)
    have mapped := spline_map (PlaneMap.shear a b c) points options
    rw [kept, List.map_id] at mapped
    intro p hp
    exact PlaneMap.shear_apply_eq_iff.mp (Path.apply_eq_of_mapPoints mapped.symm p hp)
  · exact cubics_reverse rfl points
  · intro n
    exact cubics_rotate rfl points n

end SvgLayout
