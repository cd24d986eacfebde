import SvgLayout.Proofs.Geometry.Direction
import SvgLayout.Proofs.Path.Finite

/-!
# Smooth curves through points

A spline runs from each of its points to the next in one cubic, and a closed one returns to the
first. Both handles of a point lie along its tangent, a third of it on either side, so the curve
passes the point without a kink. In an open curve the two ends have one handle each, and the
directions that are asked for turn only these.

A handle is read in the direction of travel: the one at the end of a cubic points from the second
control point to the target.

## Main definitions

* `Cubic`, `Path.cubics` — the cubics of a path.
* `Joint` — two cubics of a curve that meet without a kink.
* `Turned` — a handle in a direction that was asked for.
* `OpenEnds` — the handles at the ends of an open curve.
* `knotsBetween` — points with their tangents, one after the other.

## Main statements

* `tangential_knotsBetween` — each tangent is the difference of the neighbours.
* `isChain_knotCubics` — so neighbouring cubics form a joint.
* `turned_redirect` — the handle along a redirected tangent.
* `spline_interpolates` — a spline goes smoothly through its points.
-/

namespace SvgLayout

/-! ## Cubics -/

structure Cubic (α : Type) where
  start : Point α
  control1 : Point α
  control2 : Point α
  target : Point α

section

variable {α : Type}

def Cubic.command (cubic : Cubic α) : PathCommand α :=
  .cubic cubic.control1 cubic.control2 cubic.target

/-- The cubics of a path that is drawn from a point. -/
def Path.cubicsFrom (pen : Point α) : Path α → List (Cubic α)
  | [] => []
  | .cubic control1 control2 target :: path =>
    ⟨pen, control1, control2, target⟩ :: cubicsFrom target path
  | command :: path => cubicsFrom (command.end?.getD pen) path

def Path.cubics [Scalar α] (path : Path α) : List (Cubic α) :=
  path.cubicsFrom .origin

end

/-- Two cubics of a curve meet without a kink: the control points around their knot are symmetric
about it, on the line along the difference of the points around it. -/
structure Joint (curve : ℝ) (before after : Cubic ℝ) : Prop where
  knot : before.target = after.start
  symmetric : before.control2.midpoint after.control1 = after.start
  handle : after.control1 - after.start = (after.target - before.start) * (curve / 3)

/-- A handle in a direction that was asked for, as long as the one it stands for. Without a
direction it is that one. -/
structure Turned (direction : Option (Point ℝ)) (default handle : Point ℝ) : Prop where
  length : handle.length = default.length
  along : ∀ d, direction = some d → d ≠ .origin → ∃ k : ℝ, 0 ≤ k ∧ handle = d * k
  unchanged : direction = none ∨ direction = some .origin → handle = default

/-- The handles at the ends of an open curve: they lie along the first and the last cubic, or are
turned from there. -/
structure OpenEnds (options : SplineOptions ℝ) (cubics : List (Cubic ℝ)) : Prop where
  start : ∀ cubic ∈ cubics.head?, Turned options.startDir
    ((cubic.target - cubic.start) * (options.curve / 3)) (cubic.control1 - cubic.start)
  stop : ∀ cubic ∈ cubics.getLast?, Turned options.endDir
    ((cubic.target - cubic.start) * (options.curve / 3)) (cubic.target - cubic.control2)

/-- The curve with the directions at its ends taken away. -/
def SplineOptions.undirected {α : Type} (options : SplineOptions α) : SplineOptions α :=
  { options with startDir := none, endDir := none }

/-! ## Between knots -/

section

variable {α : Type} [Scalar α]

/-- The control point behind a point with its tangent. -/
def leaving (knot : Point α × Point α) : Point α :=
  knot.1 + knot.2 / (3.0 : α)

/-- The control point before a point with its tangent. -/
def arriving (knot : Point α × Point α) : Point α :=
  knot.1 - knot.2 / (3.0 : α)

/-- The cubic between two points with their tangents. -/
def knotCubic (start stop : Point α × Point α) : Cubic α :=
  ⟨start.1, leaving start, arriving stop, stop.1⟩

/-- The cubics between neighbouring points with their tangents. -/
def knotCubics : List (Point α × Point α) → List (Cubic α)
  | start :: stop :: knots => knotCubic start stop :: knotCubics (stop :: knots)
  | _ => []

theorem splineSegments_eq (knots : List (Point α × Point α)) :
    splineSegments knots = (knotCubics knots).map Cubic.command := by
  induction knots with
  | nil => rfl
  | cons start knots ih =>
    cases knots with
    | nil => rfl
    | cons stop knots => exact congrArg (splineSegment start stop :: ·) ih

/-- The cubics are those of the path that they draw. -/
theorem cubicsFrom_knotCubics {tail : Path α} (straight : ∀ pen, tail.cubicsFrom pen = [])
    (start : Point α × Point α) (knots : List (Point α × Point α)) :
    Path.cubicsFrom start.1 ((knotCubics (start :: knots)).map Cubic.command ++ tail) =
      knotCubics (start :: knots) := by
  induction knots generalizing start with
  | nil => exact straight start.1
  | cons stop knots ih => exact congrArg (knotCubic start stop :: ·) (ih stop)

theorem map_target_knotCubics (start : Point α × Point α) (knots : List (Point α × Point α)) :
    (knotCubics (start :: knots)).map Cubic.target = knots.map Prod.fst := by
  induction knots generalizing start with
  | nil => rfl
  | cons stop knots ih => exact congrArg (stop.1 :: ·) (ih stop)

theorem knotCubics_concat (knots : List (Point α × Point α)) (start stop : Point α × Point α) :
    knotCubics (knots ++ [start, stop]) =
      knotCubics (knots ++ [start]) ++ [knotCubic start stop] := by
  induction knots with
  | nil => rfl
  | cons knot knots ih =>
    cases knots with
    | nil => rfl
    | cons next knots => exact congrArg (knotCubic knot next :: ·) ih

theorem exists_of_mem_head?_knotCubics {start : Point α × Point α}
    {knots : List (Point α × Point α)} {cubic : Cubic α}
    (h : cubic ∈ (knotCubics (start :: knots)).head?) :
    ∃ stop ∈ knots.head?, cubic = knotCubic start stop := by
  cases knots with
  | nil => cases h
  | cons stop knots => exact ⟨stop, rfl, (Option.some_inj.mp h).symm⟩

theorem exists_of_mem_getLast?_knotCubics {stop : Point α × Point α}
    {knots : List (Point α × Point α)} {cubic : Cubic α}
    (h : cubic ∈ (knotCubics (knots ++ [stop])).getLast?) :
    ∃ start ∈ knots.getLast?, cubic = knotCubic start stop := by
  obtain rfl | ⟨before, start, rfl⟩ := List.eq_nil_or_concat' knots
  · cases h
  · rw [List.append_assoc, List.cons_append, List.nil_append, knotCubics_concat,
      List.getLast?_concat] at h
    exact ⟨start, List.getLast?_concat, (Option.some_inj.mp h).symm⟩

/-- The first control points do not depend on the last tangent. -/
theorem map_control1_knotCubics (start stop : Point α × Point α)
    (inner : List (Point α × Point α)) :
    (knotCubics (start :: inner ++ [stop])).map Cubic.control1 = (start :: inner).map leaving := by
  induction inner generalizing start with
  | nil => rfl
  | cons knot inner ih => exact congrArg (leaving start :: ·) (ih knot)

/-- The second control points do not depend on the first tangent. -/
theorem map_control2_knotCubics (start stop : Point α × Point α)
    (inner : List (Point α × Point α)) :
    (knotCubics (start :: inner ++ [stop])).map Cubic.control2 =
      inner.map arriving ++ [arriving stop] := by
  induction inner generalizing start with
  | nil => rfl
  | cons knot inner ih => exact congrArg (arriving knot :: ·) (ih knot)

/-- Each point but the first and the last runs along the difference of its neighbours. -/
def Tangential (curve : α) : List (Point α × Point α) → Prop
  | before :: knot :: after :: knots =>
    knot.2 = (after.1 - before.1) * curve ∧ Tangential curve (knot :: after :: knots)
  | _ => True

/-- The points of a curve with their tangents, where the point before the first is `before` and the
one after the last is `after`. -/
def knotsBetween (curve : α) (before after : Point α) : List (Point α) → List (Point α × Point α)
  | [] => []
  | p :: points =>
    (p, (points.headD after - before) * curve) :: knotsBetween curve p after points

theorem map_fst_knotsBetween (curve : α) (before after : Point α) (points : List (Point α)) :
    (knotsBetween curve before after points).map Prod.fst = points := by
  induction points generalizing before with
  | nil => rfl
  | cons p points ih => exact congrArg (p :: ·) (ih p)

/-- The tangents of a curve that has points. -/
theorem tangentsBetween_eq (curve : α) (before after p : Point α) (points : List (Point α)) :
    tangentsBetween curve before after (p :: points) =
      (knotsBetween curve before after (p :: points)).map Prod.snd := by
  induction points generalizing before p with
  | nil => rfl
  | cons q points ih => exact congrArg ((q - before) * curve :: ·) (ih p q)

theorem knotsBetween_concat (curve : α) (before after q : Point α) (points : List (Point α)) :
    knotsBetween curve before after (points ++ [q]) =
      knotsBetween curve before q points ++ [(q, (after - points.getLastD before) * curve)] := by
  induction points generalizing before with
  | nil => rfl
  | cons p points ih =>
    have next : (points ++ [q]).headD after = points.headD q := by
      cases points <;> rfl
    rw [List.cons_append, knotsBetween, next, ih p, List.getLastD_cons]
    rfl

/-- Between any two points that close them off, the tangents are right. -/
theorem tangential_knotsBetween (curve : α) (before after : Point α × Point α)
    (points : List (Point α)) :
    Tangential curve (before :: knotsBetween curve before.1 after.1 points ++ [after]) := by
  induction points generalizing before with
  | nil => trivial
  | cons p points ih =>
    have rest := ih (p, (points.headD after.1 - before.1) * curve)
    cases points with
    | nil => exact ⟨rfl, rest⟩
    | cons q points => exact ⟨rfl, rest⟩

end

/-- A third of a tangent as a multiple of the difference that it was made from. -/
theorem third_mul (p : Point ℝ) (curve : ℝ) : p * curve / (3.0 : ℝ) = p * (curve / 3) := by
  apply Point.ext <;> simp [mul_div_assoc]

theorem leaving_sub (knot : Point ℝ × Point ℝ) : leaving knot - knot.1 = knot.2 / (3.0 : ℝ) := by
  apply Point.ext <;> simp [leaving]

theorem sub_arriving (knot : Point ℝ × Point ℝ) :
    knot.1 - arriving knot = knot.2 / (3.0 : ℝ) := by
  apply Point.ext <;> simp [arriving]

/-- One tangent serves both cubics of a knot. -/
theorem isChain_knotCubics {curve : ℝ} {knots : List (Point ℝ × Point ℝ)}
    (h : Tangential curve knots) : (knotCubics knots).IsChain (Joint curve) := by
  induction knots with
  | nil => exact .nil
  | cons before knots ih =>
    match knots with
    | [] => exact .nil
    | [knot] => exact .singleton _
    | knot :: after :: knots =>
      obtain ⟨tangent, rest⟩ := h
      have joint : Joint curve (knotCubic before knot) (knotCubic knot after) := by
        refine ⟨rfl, ?_, ?_⟩
        · apply Point.ext <;> simp [knotCubic, leaving, arriving, Point.midpoint]
        · show leaving knot - knot.1 = (after.1 - before.1) * (curve / 3)
          rw [leaving_sub, tangent, third_mul]
      exact .cons_cons joint (ih rest)

/-! ## Knots -/

theorem modifyLast_concat {β : Type} (f : β → β) (xs : List β) (x : β) :
    modifyLast f (xs ++ [x]) = xs ++ [f x] := by
  have last : (xs ++ [x]).modify xs.length f = xs ++ [f x] := by
    induction xs with
    | nil => rfl
    | cons y xs ih => exact congrArg (y :: ·) ih
  rw [modifyLast, List.length_append, List.length_singleton, Nat.add_sub_cancel, last]

section

variable {α : Type} [Scalar α] (first second : Point α) (rest : List (Point α))
  (options : SplineOptions α)

/-- The knots of a curve: its points with their tangents, and of a closed curve the first again. -/
def splineKnots (points : List (Point α)) : List (Point α × Point α) :=
  let knots := points.zip (splineTangents points options)
  knots ++ if options.closed then knots.take 1 else []

/-- A curve through two points or more. -/
theorem spline_eq :
    spline (first :: second :: rest) options =
      .move first :: (knotCubics (splineKnots options (first :: second :: rest))).map
        Cubic.command ++ if options.closed then [.close] else [] := by
  rw [spline, splineKnots, ← splineSegments_eq]
  · cases options.closed <;> simp
  · simp

/-- A closed curve has no ends. -/
theorem spline_undirected (points : List (Point α)) (h : options.closed = true) :
    spline points options.undirected = spline points options := by
  have tangents : splineTangents points options.undirected = splineTangents points options := by
    simp only [splineTangents, SplineOptions.undirected, h, if_true]
  have closed : options.undirected.closed = options.closed := rfl
  simp only [spline, tangents, closed]

/-- A closed curve runs from its first point along the difference of the second and the last. -/
theorem splineKnots_of_closed (h : options.closed = true) :
    ∃ start, start.1 = first ∧ start.2 = (second - rest.getLastD second) * options.curve ∧
      splineKnots options (first :: second :: rest) =
        start :: knotsBetween options.curve first first (second :: rest) ++ [start] := by
  obtain ⟨last, hlast⟩ : ∃ last, last = rest.getLastD second := ⟨_, rfl⟩
  have directions : splineTangents (first :: second :: rest) options =
      (knotsBetween options.curve last first (first :: second :: rest)).map Prod.snd := by
    rw [splineTangents, List.head?_cons, List.getLast?_cons_cons, List.getLast?_cons,
      ← tangentsBetween_eq]
    simp only [h, if_true, hlast, List.getLastD_eq_getLast?]
  have knots : (first :: second :: rest).zip (splineTangents (first :: second :: rest) options) =
      knotsBetween options.curve last first (first :: second :: rest) :=
    (List.zip_of_prod (map_fst_knotsBetween ..) directions.symm).symm
  rw [splineKnots, knots, h, if_pos rfl, ← hlast]
  exact ⟨_, rfl, rfl, rfl⟩

/-- An open curve runs from its first point towards the second and into its last point from the one
before, where it has no other directions. -/
theorem splineKnots_of_open :
    ∃ between q, second :: rest = between ++ [q] ∧
      ∀ directed : SplineOptions α, directed.closed = false →
        splineKnots directed (first :: second :: rest) =
          (first, redirect ((second - first) * directed.curve) directed.startDir) ::
            knotsBetween directed.curve first q between ++
            [(q, redirect ((q - between.getLastD first) * directed.curve) directed.endDir)] := by
  obtain ⟨between, q, hq⟩ := (List.eq_nil_or_concat' (second :: rest)).resolve_left
    (List.cons_ne_nil second rest)
  have next : (between ++ [q]).headD q = second := by rw [← hq, List.headD_cons]
  refine ⟨between, q, hq, ?_⟩
  intro directed h
  have tangents : tangentsBetween directed.curve first q (first :: (between ++ [q])) =
      (second - first) * directed.curve ::
        (knotsBetween directed.curve first q between).map Prod.snd ++
        [(q - between.getLastD first) * directed.curve] := by
    rw [tangentsBetween_eq, knotsBetween, knotsBetween_concat, next, List.map_cons, List.map_append,
      List.map_singleton]
    rfl
  have directions : splineTangents (first :: between ++ [q]) directed =
      redirect ((second - first) * directed.curve) directed.startDir ::
        (knotsBetween directed.curve first q between).map Prod.snd ++
        [redirect ((q - between.getLastD first) * directed.curve) directed.endDir] := by
    rw [splineTangents, List.getLast?_concat, List.cons_append, List.head?_cons]
    simp only [h, Bool.false_eq_true, if_false]
    rw [tangents, List.cons_append, List.modifyHead_cons, ← List.cons_append, modifyLast_concat]
  have points : first :: second :: rest = first :: between ++ [q] := congrArg (first :: ·) hq
  rw [splineKnots, h, if_neg Bool.false_ne_true, List.append_nil, points]
  refine (List.zip_of_prod ?_ ?_).symm
  · rw [List.map_append, List.map_cons, map_fst_knotsBetween, List.map_singleton]
  · rw [directions, List.map_append, List.map_cons, List.map_singleton]

end

/-! ## Directions at the ends -/

/-- A tangent that is turned into a direction keeps its length. -/
theorem redirect_of_pos {d : Point ℝ} (long : 0 < d.length) (tangent : Point ℝ) :
    redirect tangent (.some d) = d * (tangent.length / d.length) := by
  rw [redirect, Option.bind_some, Point.normalize?_eq, if_pos long]
  apply Point.ext <;> simp only [Point.mul_x, Point.mul_y] <;> ring

/-- The origin is no direction. -/
theorem redirect_of_not_pos {d : Point ℝ} (short : ¬0 < d.length) (tangent : Point ℝ) :
    redirect tangent (some d) = tangent := by
  rw [redirect, Option.bind_some, Point.normalize?_eq, if_neg short]

/-- The handle along a redirected tangent. -/
theorem turned_redirect (direction : Option (Point ℝ)) (tangent : Point ℝ) :
    Turned direction (tangent / (3.0 : ℝ)) (redirect tangent direction / (3.0 : ℝ)) := by
  have third (p : Point ℝ) : p / (3.0 : ℝ) = p * (1 / 3 : ℝ) := by
    apply Point.ext <;> simp [div_eq_mul_inv]
  match direction with
  | none => exact ⟨rfl, by simp, fun _ => rfl⟩
  | some d =>
    by_cases long : 0 < d.length
    · have handle : redirect tangent (.some d) / (3.0 : ℝ) =
          d * (tangent.length / d.length * (1 / 3)) := by
        rw [redirect_of_pos long, third]
        apply Point.ext <;> simp only [Point.mul_x, Point.mul_y] <;> ring
      have nonneg : 0 ≤ tangent.length / d.length * (1 / 3) :=
        mul_nonneg (div_nonneg tangent.length_nonneg long.le) (by norm_num)
      refine ⟨?_, ?_, ?_⟩
      · rw [handle, third, Point.length_mul nonneg, Point.length_mul (by norm_num)]
        field_simp
      · rintro _ ⟨⟩ -
        exact ⟨_, nonneg, handle⟩
      · rintro (⟨⟨⟩⟩ | ⟨⟨⟩⟩)
        exact absurd rfl (Point.length_pos_iff.mp long)
    · rw [redirect_of_not_pos long]
      refine ⟨rfl, ?_, fun _ => rfl⟩
      rintro _ ⟨⟩ h
      exact absurd (Point.length_pos_iff.mpr h) long

/-- The directions that are asked for turn the handles at the ends of an open curve. -/
theorem openEnds_knotCubics (options : SplineOptions ℝ) (first second q : Point ℝ)
    {between rest : List (Point ℝ)} (hq : second :: rest = between ++ [q]) :
    OpenEnds options (knotCubics
      ((first, redirect ((second - first) * options.curve) options.startDir) ::
        knotsBetween options.curve first q between ++
        [(q, redirect ((q - between.getLastD first) * options.curve) options.endDir)])) := by
  constructor
  · intro cubic h
    rw [List.cons_append] at h
    obtain ⟨stop, hstop, rfl⟩ := exists_of_mem_head?_knotCubics h
    have target : some stop.1 = some second := by
      rw [← Option.map_some, ← hstop, ← List.head?_map, List.map_append, map_fst_knotsBetween,
        List.map_singleton, ← hq, List.head?_cons]
    rw [← third_mul, ← Option.some_inj.mp target]
    show Turned _ _ (leaving _ - first)
    rw [leaving_sub (first, _)]
    exact turned_redirect options.startDir _
  · intro cubic h
    obtain ⟨start, hstart, rfl⟩ := exists_of_mem_getLast?_knotCubics h
    have source : some start.1 = some (between.getLastD first) := by
      rw [← Option.map_some, ← hstart, ← List.getLast?_map, List.map_cons, map_fst_knotsBetween,
        List.getLast?_cons, List.getLastD_eq_getLast?]
    rw [← third_mul, ← Option.some_inj.mp source]
    show Turned _ _ (q - arriving _)
    rw [sub_arriving (q, _)]
    exact turned_redirect options.endDir _

/-! ## The curve -/

/-- The knots of a curve start where the pen does. -/
theorem exists_splineKnots (first second : Point ℝ) (rest : List (Point ℝ))
    (options : SplineOptions ℝ) :
    ∃ start knots, splineKnots options (first :: second :: rest) = start :: knots ∧
      start.1 = first ∧
      knots.map Prod.fst = second :: rest ++ if options.closed then [first] else [] := by
  have points := List.map_fst_zip (length_splineTangents (first :: second :: rest) options).ge
  have all : (splineKnots options (first :: second :: rest)).map Prod.fst =
      first :: (second :: rest ++ if options.closed then [first] else []) := by
    rw [splineKnots, List.map_append, points]
    cases options.closed with
    | true => simp [List.map_take, points]
    | false => rfl
  obtain ⟨start, knots, eq, hstart, hknots⟩ := List.map_eq_cons_iff.mp all
  exact ⟨start, knots, eq, hstart, hknots⟩

theorem cubics_spline (first second : Point ℝ) (rest : List (Point ℝ)) (options : SplineOptions ℝ) :
    (spline (first :: second :: rest) options).cubics =
      knotCubics (splineKnots options (first :: second :: rest)) := by
  obtain ⟨start, knots, split, rfl, -⟩ := exists_splineKnots first second rest options
  have straight (pen : Point ℝ) :
      Path.cubicsFrom pen (if options.closed then [.close] else []) = [] := by
    cases options.closed <;> rfl
  rw [spline_eq, split]
  exact cubicsFrom_knotCubics straight start knots

/-- The cubics of a curve form joints, those of a closed one also where it returns. -/
theorem isChain_spline (first second : Point ℝ) (rest : List (Point ℝ))
    (options : SplineOptions ℝ) :
    let cubics := knotCubics (splineKnots options (first :: second :: rest))
    (cubics ++ if options.closed then cubics.take 1 else []).IsChain (Joint options.curve) := by
  intro cubics
  cases closed : options.closed with
  | false =>
    obtain ⟨between, q, -, directed⟩ := splineKnots_of_open first second rest
    have knots : cubics = _ := congrArg knotCubics (directed options closed)
    rw [if_neg Bool.false_ne_true, List.append_nil, knots]
    exact isChain_knotCubics (tangential_knotsBetween options.curve (first, _) (q, _) between)
  | true =>
    obtain ⟨start, rfl, tangent, split⟩ := splineKnots_of_closed first second rest options closed
    obtain ⟨next, inner, hinner, hnext⟩ : ∃ next inner,
        knotsBetween options.curve start.1 start.1 (second :: rest) = next :: inner ∧
          next.1 = second :=
      ⟨_, _, rfl, rfl⟩
    have knots : cubics = _ := congrArg knotCubics split
    have wrapped : cubics ++ cubics.take 1 =
        knotCubics (start :: next :: inner ++ [start, next]) := by
      rw [knotCubics_concat, knots, hinner]
      rfl
    -- Between its first point and its second the curve goes through all others and the first again.
    have around : Tangential options.curve (start :: next :: inner ++ [start, next]) := by
      have returned : (start.1, (second - (second :: rest).getLastD start.1) * options.curve) =
          start := by
        rw [List.getLastD_cons, ← tangent]
      have turn := tangential_knotsBetween options.curve start next (second :: rest ++ [start.1])
      rw [knotsBetween_concat, hnext, returned, hinner] at turn
      simpa using turn
    rw [if_pos rfl, wrapped]
    exact isChain_knotCubics around

/-- A spline is one cubic from each point to the next, a closed one with a cubic back to the first,
and all of these form joints. The directions of an open curve turn the handles at its ends and
nothing else, and a closed curve has none. -/
theorem spline_interpolates (options : SplineOptions ℝ) :
    spline [] options = [] ∧ (∀ p, spline [p] options = [.move p]) ∧
      ∀ first second rest,
        let points := first :: second :: rest
        let path := spline points options
        let plain := spline points options.undirected
        path = .move first :: path.cubics.map Cubic.command ++
            (if options.closed then [.close] else []) ∧
          path.cubics.map Cubic.target =
            second :: rest ++ (if options.closed then [first] else []) ∧
          (path.cubics ++ if options.closed then path.cubics.take 1 else []).IsChain
            (Joint options.curve) ∧
          (options.closed = true → path = plain) ∧
          (options.closed = false →
            OpenEnds options path.cubics ∧
            path.cubics.tail.map Cubic.control1 = plain.cubics.tail.map Cubic.control1 ∧
            path.cubics.dropLast.map Cubic.control2 =
              plain.cubics.dropLast.map Cubic.control2) := by
  refine ⟨rfl, fun _ => rfl, ?_⟩
  intro first second rest points path plain
  have cubics (directed : SplineOptions ℝ) :
      (spline points directed).cubics = knotCubics (splineKnots directed points) :=
    cubics_spline first second rest directed
  obtain ⟨start, knots, split, -, targets⟩ := exists_splineKnots first second rest options
  refine ⟨?_, ?_, ?_, ?_, ?_⟩
  · rw [cubics]
    exact spline_eq first second rest options
  · rw [cubics, split, map_target_knotCubics, targets]
  · rw [cubics]
    exact isChain_spline first second rest options
  · intro closed
    exact (spline_undirected options points closed).symm
  · intro closed
    obtain ⟨between, q, hq, directed⟩ := splineKnots_of_open first second rest
    rw [cubics, cubics, directed options closed, directed options.undirected closed]
    refine ⟨openEnds_knotCubics options first second q hq, ?_, ?_⟩
    · rw [List.map_tail, List.map_tail, map_control1_knotCubics, map_control1_knotCubics]
      rfl
    · rw [List.map_dropLast, List.map_dropLast, map_control2_knotCubics, map_control2_knotCubics,
        List.dropLast_concat, List.dropLast_concat]
      rfl

end SvgLayout
