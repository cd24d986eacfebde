import SvgLayout.Proofs.Spec.Objections

/-!
# Valid arguments

Arguments are accepted exactly if they are valid: no field is given in two ways, lists of numbers
have the right count, numbers are finite and in range, and anchors have known names. Accepted
arguments make the spec that they describe, and others are refused with the first thing that is
wrong with them.

## Main definitions

* `SpecArgs.objections` — what is wrong with arguments, in the order in which it is looked for.
* `SpecArgs.described` — the spec that arguments describe.
* `SpecArgs.Valid` — arguments that are accepted.

## Main statements

* `Spec.ofArgs_eq_verdict` — the described spec, or the first objection.
* `SpecArgs.objections_eq_nil_iff` — there are no objections to valid arguments, and only to them.
* `Spec.ofArgs_accepts_valid` — validation as a whole.
-/

namespace SvgLayout

variable {α : Type} [Scalar α]

namespace SpecArgs

/-! ## Objections -/

/-- What is wrong with the rectangle, or with its centre and half extents. -/
def rectObjections (args : SpecArgs α) (node : String) : List (SpecError α) :=
  objection (args.rect.isSome ∧ args.pos.isSome) (.conflictingKeys node "rect" "pos") ++
  objection (args.rect.isSome ∧ args.rad.isSome) (.conflictingKeys node "rect" "rad") ++
  args.rect.elim [] (listObjections node "rect" 4 (.invalidRect node "rect")) ++
  args.pos.elim [] (listObjections node "pos" 2 (.invalidPoint node "pos")) ++
  args.rad.elim [] (radiusObjections node "rad")

/-- What is wrong with the space, or with its limits. -/
def coordObjections (args : SpecArgs α) (node : String) : List (SpecError α) :=
  objection (args.coord.isSome ∧ args.xlim.isSome) (.conflictingKeys node "coord" "xlim") ++
  objection (args.coord.isSome ∧ args.ylim.isSome) (.conflictingKeys node "coord" "ylim") ++
  (match args.coord with
    | some (.rect values) => listObjections node "coord" 4 (.invalidRect node "coord") values
    | _ => []) ++
  args.xlim.elim [] (listObjections node "xlim" 2 (.invalidLimit node "xlim")) ++
  args.ylim.elim [] (listObjections node "ylim" 2 (.invalidLimit node "ylim"))

/-- What is wrong with the ratio. -/
def aspectObjections (args : SpecArgs α) (node : String) : List (SpecError α) :=
  match args.aspect with
  | some (.number value) => (positiveObjections value).map (.invalidNumber node "aspect")
  | _ => []

/-- What is wrong with the angle. -/
def rotateObjections (args : SpecArgs α) (node : String) : List (SpecError α) :=
  args.rotate.elim [] fun angle => (finiteObjections angle).map (.invalidNumber node "rotate")

/-- What is wrong with the arguments of a node, in the order in which it is looked for. -/
def objections (args : SpecArgs α) (node : String) : List (SpecError α) :=
  args.rectObjections node ++ (args.coordObjections node ++ (args.aspectObjections node ++
    (args.align.elim [] (anchorObjections node) ++ args.rotateObjections node)))

/-! ## Described specs -/

/-- The centre of the rectangle, which is that of the unit square by default. -/
def center (args : SpecArgs α) : Point α :=
  match args.pos with
  | some [x, y] => ⟨x, y⟩
  | _ => ⟨0.5, 0.5⟩

/-- The half extents of the rectangle, which are those of the unit square by default. -/
def radii (args : SpecArgs α) : Point α :=
  match args.rad with
  | some [r] => ⟨r, r⟩
  | some [rx, ry] => ⟨rx, ry⟩
  | _ => ⟨0.5, 0.5⟩

/-- The rectangle, by its corners or around its centre. -/
def describedRect (args : SpecArgs α) : Option (Rect α) :=
  match args.rect with
  | some [x1, y1, x2, y2] => some ⟨x1, y1, x2, y2⟩
  | _ =>
    let c := args.center
    let r := args.radii
    if args.pos.isSome ∨ args.rad.isSome then some ⟨c.x - r.x, c.y - r.y, c.x + r.x, c.y + r.y⟩
    else none

/-- The horizontal limit of the space, from left to right. -/
def across (args : SpecArgs α) : Limit α :=
  match args.xlim with
  | some [lo, hi] => ⟨lo, hi⟩
  | _ => ⟨0.0, 1.0⟩

/-- The vertical limit of the space, from top to bottom: a given one is turned over. -/
def down (args : SpecArgs α) : Limit α :=
  match args.ylim with
  | some [lo, hi] => ⟨hi, lo⟩
  | _ => ⟨0.0, 1.0⟩

/-- The space, derived, by its corners or by its limits. -/
def describedCoord (args : SpecArgs α) : Option (Coord α) :=
  match args.coord with
  | some .auto => some .auto
  | some (.rect [x1, y1, x2, y2]) => some (.rect ⟨x1, y1, x2, y2⟩)
  | _ =>
    let x := args.across
    let y := args.down
    if args.xlim.isSome ∨ args.ylim.isSome then some (.rect ⟨x.lo, y.lo, x.hi, y.hi⟩) else none

/-- The ratio, derived or given. -/
def describedAspect (args : SpecArgs α) : Option (Aspect α) :=
  match args.aspect with
  | none => none
  | some .auto => some .auto
  | some (.number value) => some (.fixed value)

/-- The spec that valid arguments describe. -/
def described (args : SpecArgs α) : Spec α where
  rect := args.describedRect
  coord := args.describedCoord
  aspect := args.describedAspect
  expand := args.expand.getD false
  align := args.align.elim ⟨0.5, 0.5⟩ describedAlign
  rotate := args.rotate.getD 0.0
  invar := args.invar.getD false

end SpecArgs

/-! ## Lists of numbers -/

/-- The right count of finite numbers. -/
def FiniteNumbers (count : Nat) (values : List α) : Prop :=
  values.length = count ∧ ∀ x ∈ values, Scalar.isFinite x = true

theorem finiteObjections_eq_nil {x : α} :
    finiteObjections x = [] ↔ Scalar.isFinite x = true := by
  simp [finiteObjections, Scalar.isFinite]

theorem numberObjections_eq_nil {node field : String} {values : List α} :
    numberObjections node field values = [] ↔ ∀ x ∈ values, Scalar.isFinite x = true := by
  simp [numberObjections, finiteObjections_eq_nil]

theorem listObjections_eq_nil {node field : String} {count : Nat} {wrongCount : Nat → SpecError α}
    {values : List α} :
    listObjections node field count wrongCount values = [] ↔ FiniteNumbers count values := by
  simp [listObjections, numberObjections_eq_nil, FiniteNumbers, and_comm]

theorem radiusObjections_eq_nil {node field : String} {values : List α} :
    radiusObjections node field values = [] ↔
      FiniteNumbers 1 values ∨ FiniteNumbers 2 values := by
  rw [radiusObjections, List.append_eq_nil_iff, objection_eq_nil, numberObjections_eq_nil,
    not_and_or, not_not, not_not, FiniteNumbers, FiniteNumbers, or_and_right]

theorem rectArg_eq_verdict (node field : String) (values : List α) :
    rectArg node field values =
      .verdict (listObjections node field 4 (.invalidRect node field) values)
        ((Rect.ofList? values).getD .unit) := by
  apply shapedArg_eq_verdict
  · match values with
    | [] | [_] | [_, _] | [_, _, _] | _ :: _ :: _ :: _ :: _ :: _ => simp [Rect.ofList?]
    | [_, _, _, _] => simp
  · intro length
    match values, length with
    | [_, _, _, _], _ => rfl

theorem pointArg_eq_verdict (node field : String) (values : List α) :
    pointArg node field values =
      .verdict (listObjections node field 2 (.invalidPoint node field) values)
        ((Point.ofList? values).getD .origin) := by
  apply shapedArg_eq_verdict
  · match values with
    | [] | [_] | _ :: _ :: _ :: _ => simp [Point.ofList?]
    | [_, _] => simp
  · intro length
    match values, length with
    | [_, _], _ => rfl

theorem limitArg_eq_verdict (node field : String) (values : List α) :
    limitArg node field values =
      .verdict (listObjections node field 2 (.invalidLimit node field) values)
        ((Limit.ofList? values).getD .unit) := by
  apply shapedArg_eq_verdict
  · match values with
    | [] | [_] | _ :: _ :: _ :: _ => simp [Limit.ofList?]
    | [_, _] => simp
  · intro length
    match values, length with
    | [_, _], _ => rfl

omit [Scalar α] in
/-- An argument that may be absent is read as what it describes, if it is valid. -/
theorem argOr_eq_verdict {β γ : Type} {default described : γ} {read : β → Except (SpecError α) γ}
    {c : β → List (SpecError α)} {v : β → γ} (reads : ∀ b, read b = .verdict (c b) (v b))
    {arg : Option β} (absent : arg = none → described = default)
    (given : ∀ b ∈ arg, c b = [] → described = v b) :
    argOr default read arg = .verdict (arg.elim [] c) described := by
  cases arg with
  | none =>
    rw [absent rfl]
    rfl
  | some b =>
    refine (reads b).trans (Except.verdict_congr fun valid => ?_)
    exact (given b rfl valid).symm

/-- Half extents are read as `radii`, unless there are objections to them. -/
theorem radiusArg_eq_verdict (node field : String) (values : List α) :
    radiusArg node field values =
      .verdict (radiusObjections node field values) (SpecArgs.radii { rad := some values }) := by
  match values with
  | [] => rfl
  | [r] =>
    rw [radiusArg, finiteArg_eq_verdict, bind_pure_comp, Except.map_verdict]
    simp [radiusObjections, numberObjections, objection, SpecArgs.radii]
  | [rx, ry] =>
    have both : radiusArg node field [rx, ry] =
        .verdict ((finiteObjections rx).map (.invalidNumber node field) ++
          (finiteObjections ry).map (.invalidNumber node field)) ⟨rx, ry⟩ := by
      rw [radiusArg, finiteArg_eq_verdict]
      refine Except.verdict_bind ?_ _
      rw [finiteArg_eq_verdict, bind_pure_comp, Except.map_verdict]
    rw [both]
    simp [radiusObjections, numberObjections, objection, SpecArgs.radii]
  | x :: y :: z :: rest =>
    simp [radiusArg, radiusObjections, objection, throw, throwThe, MonadExceptOf.throw]

/-! ## Validation -/

namespace SpecArgs

theorem center_eq_verdict (args : SpecArgs α) (node : String) :
    argOr ⟨0.5, 0.5⟩ (pointArg node "pos") args.pos =
      .verdict (args.pos.elim [] (listObjections node "pos" 2 (.invalidPoint node "pos")))
        args.center := by
  apply argOr_eq_verdict (pointArg_eq_verdict node "pos")
  · intro absent
    rw [center, absent]
  · intro values given valid
    obtain ⟨length, -⟩ := listObjections_eq_nil.mp valid
    rw [center, given]
    match values, length with
    | [_, _], _ => rfl

theorem radii_eq_verdict (args : SpecArgs α) (node : String) :
    argOr ⟨0.5, 0.5⟩ (radiusArg node "rad") args.rad =
      .verdict (args.rad.elim [] (radiusObjections node "rad")) args.radii := by
  apply argOr_eq_verdict (radiusArg_eq_verdict node "rad")
  · intro absent
    rw [radii, absent]
  · intro values given _
    rw [radii, radii, given]

theorem across_eq_verdict (args : SpecArgs α) (node : String) :
    argOr .unit (limitArg node "xlim") args.xlim =
      .verdict (args.xlim.elim [] (listObjections node "xlim" 2 (.invalidLimit node "xlim")))
        args.across := by
  apply argOr_eq_verdict (limitArg_eq_verdict node "xlim")
  · intro absent
    rw [across, absent]
    rfl
  · intro values given valid
    obtain ⟨length, -⟩ := listObjections_eq_nil.mp valid
    rw [across, given]
    match values, length with
    | [_, _], _ => rfl

theorem down_eq_verdict (args : SpecArgs α) (node : String) :
    argOr .unit (fun values => Limit.reverse <$> limitArg node "ylim" values) args.ylim =
      .verdict (args.ylim.elim [] (listObjections node "ylim" 2 (.invalidLimit node "ylim")))
        args.down := by
  apply argOr_eq_verdict fun values => by rw [limitArg_eq_verdict, Except.map_verdict]
  · intro absent
    rw [down, absent]
    rfl
  · intro values given valid
    obtain ⟨length, -⟩ := listObjections_eq_nil.mp valid
    rw [down, given]
    match values, length with
    | [_, _], _ => rfl

/-- The rectangle is the described one, unless there are objections. -/
theorem rect?_eq_verdict (args : SpecArgs α) (node : String) :
    args.rect? node = .verdict (args.rectObjections node) args.describedRect := by
  have center := args.center_eq_verdict node
  have radii := args.radii_eq_verdict node
  rw [rect?, rectObjections]
  cases rect : args.rect with
  | some values =>
    cases pos : args.pos with
    | some _ => rfl
    | none =>
      cases rad : args.rad with
      | some _ => rfl
      | none =>
        have corners : some <$> rectArg node "rect" values =
            .verdict (listObjections node "rect" 4 (.invalidRect node "rect") values)
              args.describedRect := by
          rw [rectArg_eq_verdict, Except.map_verdict]
          refine Except.verdict_congr fun valid => ?_
          obtain ⟨length, -⟩ := listObjections_eq_nil.mp valid
          rw [describedRect, rect]
          match values, length with
          | [_, _, _, _], _ => rfl
        simpa using corners
  | none =>
    by_cases given : args.pos.isSome ∨ args.rad.isSome
    · have described : args.describedRect = some
          (RadialBox.mk args.center args.radii.x args.radii.y).toRect := by
        simp [describedRect, rect, given, RadialBox.toRect]
      simp only [Bool.or_eq_true, if_pos given, Option.isSome_none, Bool.false_eq_true, false_and,
        objection_false, List.nil_append, Option.elim_none, center, described]
      refine Except.verdict_bind ?_ _
      rw [radii, bind_pure_comp, Except.map_verdict]
    · obtain ⟨pos, rad⟩ := not_or.mp given
      rw [Option.not_isSome_iff_eq_none] at pos rad
      simp [describedRect, rect, pos, rad]

/-- The space is the described one, unless there are objections. -/
theorem coord?_eq_verdict (args : SpecArgs α) (node : String) :
    args.coord? node = .verdict (args.coordObjections node) args.describedCoord := by
  have across := args.across_eq_verdict node
  have down := args.down_eq_verdict node
  rw [coord?, coordObjections]
  cases coord : args.coord with
  | some space =>
    cases xlim : args.xlim with
    | some _ => rfl
    | none =>
      cases ylim : args.ylim with
      | some _ => rfl
      | none =>
        cases space with
        | auto => simp [describedCoord, coord]
        | rect values =>
          have corners : (some <| .rect ·) <$> rectArg node "coord" values =
              .verdict (listObjections node "coord" 4 (.invalidRect node "coord") values)
                args.describedCoord := by
            rw [rectArg_eq_verdict, Except.map_verdict]
            refine Except.verdict_congr fun valid => ?_
            obtain ⟨length, -⟩ := listObjections_eq_nil.mp valid
            rw [describedCoord, coord]
            match values, length with
            | [_, _, _, _], _ => rfl
          simpa using corners
  | none =>
    by_cases given : args.xlim.isSome ∨ args.ylim.isSome
    · have described : args.describedCoord = some (.rect (.ofLimits args.across args.down)) := by
        simp [describedCoord, coord, given, Rect.ofLimits]
      simp only [Bool.or_eq_true, if_pos given, Option.isSome_none, Bool.false_eq_true, false_and,
        objection_false, List.nil_append, across, described]
      refine Except.verdict_bind ?_ _
      rw [down, bind_pure_comp, Except.map_verdict]
    · obtain ⟨xlim, ylim⟩ := not_or.mp given
      rw [Option.not_isSome_iff_eq_none] at xlim ylim
      simp [describedCoord, coord, xlim, ylim]

/-- The ratio is the described one, unless there are objections. -/
theorem aspect?_eq_verdict (args : SpecArgs α) (node : String) :
    args.aspect? node = .verdict (args.aspectObjections node) args.describedAspect := by
  rw [aspect?, aspectObjections, describedAspect]
  cases args.aspect with
  | none => rfl
  | some aspect =>
    cases aspect with
    | auto => rfl
    | number value =>
      simp only [checkPositive_eq_verdict, Except.mapError_verdict, Except.map_verdict]

end SpecArgs

/-- Validation answers with the spec that the arguments describe, or with the first objection. -/
theorem Spec.ofArgs_eq_verdict (node : String) (args : SpecArgs α) :
    Spec.ofArgs node args = .verdict (args.objections node) args.described := by
  have align : argOr .center (Align.ofAnchors node) args.align =
      .verdict (args.align.elim [] (anchorObjections node))
        (args.align.elim ⟨0.5, 0.5⟩ describedAlign) := by
    refine argOr_eq_verdict (Align.ofAnchors_eq_verdict node) ?_ ?_
    · intro absent
      rw [absent]
      rfl
    · intro anchors given _
      rw [given]
      rfl
  have rotate : argOr 0.0 (finiteArg node "rotate") args.rotate =
      .verdict (args.rotateObjections node) (args.rotate.getD 0.0) := by
    refine argOr_eq_verdict (finiteArg_eq_verdict node "rotate") ?_ ?_
    · intro absent
      rw [absent]
      rfl
    · intro angle given _
      rw [given]
      rfl
  rw [Spec.ofArgs, args.rect?_eq_verdict, SpecArgs.objections]
  refine Except.verdict_bind ?_ _
  rw [args.coord?_eq_verdict]
  refine Except.verdict_bind ?_ _
  rw [args.aspect?_eq_verdict]
  refine Except.verdict_bind ?_ _
  rw [align]
  refine Except.verdict_bind ?_ _
  rw [rotate, bind_pure_comp, Except.map_verdict]
  rfl

/-! ## Valid arguments -/

/-- A fraction, or one of the known names. -/
def AnchorArg.Valid (known : List String) : AnchorArg α → Prop
  | .number value => Scalar.isFinite value = true ∧ 0.0 ≤ value ∧ value ≤ 1.0
  | .name token => token ∈ known

/-- One anchor with any of the names, or a horizontal one and a vertical one. -/
def ValidAnchors : List (AnchorArg α) → Prop
  | [a] => a.Valid (horizontalNames ++ verticalNames ++ centralNames)
  | [x, y] => x.Valid (horizontalNames ++ centralNames) ∧ y.Valid (verticalNames ++ centralNames)
  | _ => False

namespace SpecArgs

/-- Arguments in which nothing is given twice, every list has the right count of finite numbers, the
ratio is positive, and the anchors are fractions or known names of their axes. -/
structure Valid (args : SpecArgs α) : Prop where
  rect_alone : args.rect.isSome → args.pos = none ∧ args.rad = none
  coord_alone : args.coord.isSome → args.xlim = none ∧ args.ylim = none
  rect : ∀ values ∈ args.rect, FiniteNumbers 4 values
  pos : ∀ values ∈ args.pos, FiniteNumbers 2 values
  rad : ∀ values ∈ args.rad, FiniteNumbers 1 values ∨ FiniteNumbers 2 values
  coord : ∀ values, args.coord = some (.rect values) → FiniteNumbers 4 values
  xlim : ∀ values ∈ args.xlim, FiniteNumbers 2 values
  ylim : ∀ values ∈ args.ylim, FiniteNumbers 2 values
  aspect : ∀ value, args.aspect = some (.number value) →
    Scalar.isFinite value = true ∧ 0.0 < value
  align : ∀ anchors ∈ args.align, ValidAnchors anchors
  rotate : ∀ angle ∈ args.rotate, Scalar.isFinite angle = true

end SpecArgs

theorem fractionObjections_eq_nil {x : α} :
    fractionObjections x = [] ↔ Scalar.isFinite x = true ∧ 0.0 ≤ x ∧ x ≤ 1.0 := by
  rw [fractionObjections, List.append_eq_nil_iff, finiteObjections_eq_nil, objection_eq_nil,
    not_not]

theorem positiveObjections_eq_nil [Scalar.HasSign α] {x : α} :
    positiveObjections x = [] ↔ Scalar.isFinite x = true ∧ 0.0 < x := by
  rw [positiveObjections, List.append_eq_nil_iff, List.append_eq_nil_iff, finiteObjections_eq_nil,
    objection_eq_nil, objection_eq_nil, Bool.not_eq_true]
  exact and_congr_right fun finite => (Scalar.HasSign.pos_iff finite).symm

theorem AnchorArg.objections_eq_nil {node : String} {known : List String} {arg : AnchorArg α} :
    arg.objections node known = [] ↔ arg.Valid known := by
  cases arg with
  | number value => rw [objections, List.map_eq_nil_iff, fractionObjections_eq_nil]; rfl
  | name token => rw [objections, objection_eq_nil, not_not]; rfl

theorem anchorObjections_eq_nil {node : String} {anchors : List (AnchorArg α)} :
    anchorObjections node anchors = [] ↔ ValidAnchors anchors := by
  match anchors with
  | [] => simp [anchorObjections, ValidAnchors]
  | [a] => exact AnchorArg.objections_eq_nil
  | [x, y] =>
    rw [anchorObjections, List.append_eq_nil_iff, AnchorArg.objections_eq_nil,
      AnchorArg.objections_eq_nil, ValidAnchors]
  | x :: y :: z :: rest => simp [anchorObjections, ValidAnchors]

omit [Scalar α] in
theorem elim_eq_nil {β γ : Type} {objections : β → List γ} {arg : Option β} :
    arg.elim [] objections = [] ↔ ∀ b ∈ arg, objections b = [] := by
  cases arg <;> simp

/-- Two arguments are not given together. -/
theorem conflict_eq_nil {β γ ε : Type} {a : Option β} {b : Option γ} {e : ε} :
    objection (a.isSome ∧ b.isSome) e = [] ↔ (a.isSome → b = none) := by
  rw [objection_eq_nil, not_and, Option.not_isSome_iff_eq_none]

namespace SpecArgs

theorem aspectObjections_eq_nil [Scalar.HasSign α] {args : SpecArgs α} {node : String} :
    args.aspectObjections node = [] ↔
      ∀ value, args.aspect = some (.number value) → Scalar.isFinite value = true ∧ 0.0 < value := by
  rw [aspectObjections]
  match args.aspect with
  | none | some .auto => simp
  | some (.number value) => simp [positiveObjections_eq_nil]

theorem rectObjections_eq_nil {args : SpecArgs α} {node : String} :
    args.rectObjections node = [] ↔
      (args.rect.isSome → args.pos = none ∧ args.rad = none) ∧
        (∀ values ∈ args.rect, FiniteNumbers 4 values) ∧
        (∀ values ∈ args.pos, FiniteNumbers 2 values) ∧
        ∀ values ∈ args.rad, FiniteNumbers 1 values ∨ FiniteNumbers 2 values := by
  simp only [rectObjections, List.append_eq_nil_iff, conflict_eq_nil, elim_eq_nil,
    listObjections_eq_nil, radiusObjections_eq_nil, imp_and, and_assoc]

theorem coordObjections_eq_nil {args : SpecArgs α} {node : String} :
    args.coordObjections node = [] ↔
      (args.coord.isSome → args.xlim = none ∧ args.ylim = none) ∧
        (∀ values, args.coord = some (.rect values) → FiniteNumbers 4 values) ∧
        (∀ values ∈ args.xlim, FiniteNumbers 2 values) ∧
        ∀ values ∈ args.ylim, FiniteNumbers 2 values := by
  have space : (match args.coord with
      | some (.rect values) => listObjections node "coord" 4 (.invalidRect node "coord") values
      | _ => []) = [] ↔
        ∀ values, args.coord = some (.rect values) → FiniteNumbers 4 values := by
    match args.coord with
    | none | some .auto => simp
    | some (.rect values) => simp [listObjections_eq_nil]
  simp only [coordObjections, List.append_eq_nil_iff, conflict_eq_nil, elim_eq_nil,
    listObjections_eq_nil, space, imp_and, and_assoc]

/-- There are no objections to valid arguments, and only to them. -/
theorem objections_eq_nil_iff [Scalar.HasSign α] {args : SpecArgs α} {node : String} :
    args.objections node = [] ↔ args.Valid := by
  have rotate : args.rotateObjections node = [] ↔
      ∀ angle ∈ args.rotate, Scalar.isFinite angle = true := by
    simp only [rotateObjections, elim_eq_nil, List.map_eq_nil_iff, finiteObjections_eq_nil]
  have align : args.align.elim [] (anchorObjections node) = [] ↔
      ∀ anchors ∈ args.align, ValidAnchors anchors := by
    simp only [elim_eq_nil, anchorObjections_eq_nil]
  rw [objections, List.append_eq_nil_iff, List.append_eq_nil_iff, List.append_eq_nil_iff,
    List.append_eq_nil_iff, rectObjections_eq_nil, coordObjections_eq_nil, aspectObjections_eq_nil,
    align, rotate]
  constructor
  · rintro ⟨⟨rect_alone, rect, pos, rad⟩, ⟨coord_alone, coord, xlim, ylim⟩, aspect, align, rotate⟩
    exact { rect_alone, coord_alone, rect, pos, rad, coord, xlim, ylim, aspect, align, rotate }
  · intro valid
    exact ⟨⟨valid.rect_alone, valid.rect, valid.pos, valid.rad⟩,
      ⟨valid.coord_alone, valid.coord, valid.xlim, valid.ylim⟩, valid.aspect, valid.align,
      valid.rotate⟩

end SpecArgs

/-! ## Alignments of doubles -/

/-- A double from zero to one. -/
def IsFraction (x : Float) : Prop :=
  0.0 ≤ x ∧ x ≤ 1.0

instance : DecidablePred IsFraction := fun _ =>
  inferInstanceAs (Decidable (_ ∧ _))

theorem isFraction_zero : IsFraction 0.0 := by
  decide +kernel

theorem isFraction_half : IsFraction 0.5 := by
  decide +kernel

theorem isFraction_one : IsFraction 1.0 := by
  decide +kernel

theorem AnchorArg.isFraction_fraction {known : List String} {arg : AnchorArg Float}
    (valid : arg.Valid known) : IsFraction arg.fraction := by
  cases arg with
  | number value => exact valid.2
  | name token =>
    rw [fraction]
    split
    · exact isFraction_zero
    · split
      · exact isFraction_one
      · exact isFraction_half

theorem AnchorArg.isFraction_fractionBut {known others : List String} {arg : AnchorArg Float}
    (valid : arg.Valid known) : IsFraction (arg.fractionBut others) := by
  cases arg with
  | number value => exact valid.2
  | name token =>
    rw [fractionBut]
    split
    · exact isFraction_half
    · exact isFraction_fraction valid

/-- Valid anchors stand inside the free space. -/
theorem isFraction_describedAlign {anchors : List (AnchorArg Float)}
    (valid : ValidAnchors anchors) :
    IsFraction (describedAlign anchors).x ∧ IsFraction (describedAlign anchors).y := by
  match anchors, valid with
  | [a], valid =>
    exact ⟨AnchorArg.isFraction_fractionBut valid, AnchorArg.isFraction_fractionBut valid⟩
  | [x, y], ⟨validX, validY⟩ =>
    exact ⟨AnchorArg.isFraction_fraction validX, AnchorArg.isFraction_fraction validY⟩

theorem SpecArgs.Valid.isFraction_align {args : SpecArgs Float} (valid : args.Valid) :
    IsFraction args.described.align.x ∧ IsFraction args.described.align.y := by
  rw [described]
  cases given : args.align with
  | none => exact ⟨isFraction_half, isFraction_half⟩
  | some anchors => exact isFraction_describedAlign (valid.align anchors given)

/-! ## Validation as a whole -/

/-- The arguments of a node are accepted exactly if they are valid. Accepted arguments make the
spec that they describe, whose alignment stands inside the free space; others are refused with the
first objection to them. -/
theorem Spec.ofArgs_accepts_valid (node : String) (args : SpecArgs Float) :
    ((∃ spec, Spec.ofArgs node args = .ok spec) ↔ args.Valid) ∧
      (∀ spec, Spec.ofArgs node args = .ok spec →
        spec = args.described ∧ IsFraction spec.align.x ∧ IsFraction spec.align.y) ∧
      ∀ error, Spec.ofArgs node args = .error error ↔
        (args.objections node).head? = some error := by
  rw [Spec.ofArgs_eq_verdict]
  refine ⟨?_, ?_, ?_⟩
  · simp only [Except.verdict_eq_ok, SpecArgs.objections_eq_nil_iff, exists_and_left,
      exists_eq', and_true]
  · intro spec accepted
    obtain ⟨flawless, rfl⟩ := Except.verdict_eq_ok.mp accepted
    exact ⟨rfl, (SpecArgs.objections_eq_nil_iff.mp flawless).isFraction_align⟩
  · intro error
    cases args.objections node <;> simp

/-- Arguments around a centre, with an upward limit and an anchor for each axis. -/
def SpecArgs.pinned : SpecArgs Float where
  pos := some [0.25, 0.5]
  rad := some [0.125]
  ylim := some [0.0, 2.0]
  align := some [.name "left", .number 0.75]

/-- The arguments `pinned` are accepted, and their limit is turned over; with a ratio of zero the
first objection is to the ratio. -/
theorem Spec.ofArgs_pinned :
    (∃ spec, Spec.ofArgs "Group" SpecArgs.pinned = .ok spec ∧
      spec.coord = some (.rect ⟨0.0, 2.0, 1.0, 0.0⟩) ∧ spec.align = ⟨0.0, 0.75⟩) ∧
      Spec.ofArgs "Group" { SpecArgs.pinned with aspect := some (.number 0.0) } =
        .error (.invalidNumber "Group" "aspect" .zero) := by
  have valid : SpecArgs.pinned.Valid := by
    constructor <;> simp [SpecArgs.pinned, FiniteNumbers, ValidAnchors, AnchorArg.Valid,
      horizontalNames] <;> decide +kernel
  obtain ⟨spec, accepted⟩ := (Spec.ofArgs_accepts_valid "Group" _).1.mpr valid
  obtain ⟨rfl, -⟩ := (Spec.ofArgs_accepts_valid _ _).2.1 spec accepted
  exact ⟨⟨_, accepted, rfl, rfl⟩, ((Spec.ofArgs_accepts_valid _ _).2.2 _).mpr rfl⟩

end SvgLayout
