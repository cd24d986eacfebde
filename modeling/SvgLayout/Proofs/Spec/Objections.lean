import SvgLayout.Proofs.Scalar.Sign
import SvgLayout.Spec.Args

/-!
# Objections to arguments

What is wrong with a number, with a list of numbers and with the anchors of an alignment, each as a
list in the order in which it is looked for. The lists are made from the arguments alone: from the
count and the finiteness of their numbers, and from the names of the anchors on each axis. A check
answers with the first objection, and with the value that the argument describes if there is none.

## Main definitions

* `Except.verdict` — a value, or the first of the objections to it.
* `finiteObjections`, `fractionObjections`, `positiveObjections` — objections to a number.
* `listObjections`, `radiusObjections`, `anchorObjections` — objections to an argument.

## Main statements

* `Except.verdict_bind`, `Except.mapM_verdict` — objections of composed computations.
* `shapedArg_eq_verdict` — the verdict on a list that is read by its count.
* `Align.ofAnchors_eq_verdict` — the verdict on the anchors of an alignment.
-/

/-! ## Verdicts -/

namespace Except

variable {ε ε' α β : Type}

/-- The value if there are no objections, and the first of them otherwise. -/
def verdict (objections : List ε) (value : α) : Except ε α :=
  match objections with
  | [] => .ok value
  | first :: _ => .error first

@[simp] theorem verdict_nil (a : α) : verdict ([] : List ε) a = .ok a := rfl

@[simp] theorem verdict_cons (e : ε) (es : List ε) (a : α) : verdict (e :: es) a = .error e := rfl

/-- What is objected to need not be known. -/
theorem verdict_congr {es : List ε} {a b : α} (h : es = [] → a = b) :
    verdict es a = verdict es b := by
  cases es with
  | nil => rw [h rfl]
  | cons e es => rfl

theorem verdict_eq_ok {es : List ε} {a b : α} : verdict es a = .ok b ↔ es = [] ∧ a = b := by
  cases es <;> simp

theorem map_verdict (f : α → β) (es : List ε) (a : α) :
    f <$> verdict es a = verdict es (f a) := by
  cases es <;> rfl

theorem mapError_verdict (f : ε → ε') (es : List ε) (a : α) :
    (verdict es a).mapError f = verdict (es.map f) a := by
  cases es <;> rfl

/-- The objections to the first of two computations come before those to the second. -/
theorem verdict_bind {f : α → Except ε β} {a : α} {b : β} {fs : List ε}
    (h : f a = verdict fs b) (es : List ε) : verdict es a >>= f = verdict (es ++ fs) b := by
  cases es with
  | nil => exact h
  | cons e es => rfl

/-- The objections to a list are those to its entries, in order. -/
theorem mapM_verdict {f : α → Except ε β} {c : α → List ε} {v : α → β}
    (h : ∀ x, f x = verdict (c x) (v x)) (xs : List α) :
    xs.mapM f = verdict (xs.flatMap c) (xs.map v) := by
  induction xs with
  | nil => rfl
  | cons x xs ih =>
    rw [List.mapM_cons, h x, List.flatMap_cons]
    refine verdict_bind ?_ _
    rw [ih, bind_pure_comp, map_verdict]
    rfl

end Except

namespace SvgLayout

/-- An objection, if its reason holds. -/
def objection {ε : Type} (reason : Prop) [Decidable reason] (e : ε) : List ε :=
  if reason then [e] else []

@[simp] theorem objection_eq_nil {ε : Type} {reason : Prop} [Decidable reason] {e : ε} :
    objection reason e = [] ↔ ¬reason := by
  simp [objection]

theorem objection_of {ε : Type} {reason : Prop} [Decidable reason] (h : reason) (e : ε) :
    objection reason e = [e] :=
  if_pos h

theorem objection_of_not {ε : Type} {reason : Prop} [Decidable reason] (h : ¬reason) (e : ε) :
    objection reason e = [] :=
  if_neg h

@[simp] theorem objection_false {ε : Type} [Decidable False] (e : ε) : objection False e = [] :=
  objection_of_not id e

@[simp] theorem map_objection {ε ε' : Type} {reason : Prop} [Decidable reason] (f : ε → ε')
    (e : ε) :
    (objection reason e).map f = objection reason (f e) := by
  by_cases h : reason <;> simp [objection, h]

variable {α : Type} [Scalar α]

/-! ## Objections to numbers -/

/-- What is wrong with a number that must be finite. -/
def finiteObjections (x : α) : List (NumericError α) :=
  objection (Scalar.isNaN x = true) .nan ++ objection (Scalar.isInfinite x = true) .infinite

/-- What is wrong with a number that must lie between zero and one. -/
def fractionObjections (x : α) : List (NumericError α) :=
  finiteObjections x ++ objection (¬(0.0 ≤ x ∧ x ≤ 1.0)) (.notFraction x)

/-- What is wrong with a number that must be positive. -/
def positiveObjections (x : α) : List (NumericError α) :=
  finiteObjections x ++
    (objection ((x == 0.0) = true) .zero ++ objection (x < 0.0) .negative)

theorem checkFinite_eq_verdict (x : α) : checkFinite x = .verdict (finiteObjections x) x := by
  rw [checkFinite, finiteObjections]
  by_cases nan : Scalar.isNaN x = true
  · simp [nan, objection, throw, throwThe, MonadExceptOf.throw]
  · by_cases infinite : Scalar.isInfinite x = true <;>
      simp [nan, infinite, objection, throw, throwThe, MonadExceptOf.throw, pure, Except.pure]

theorem checkFraction_eq_verdict (x : α) : checkFraction x = .verdict (fractionObjections x) x := by
  rw [checkFraction, checkFinite_eq_verdict]
  refine Except.verdict_bind ?_ _
  by_cases inside : 0.0 ≤ x ∧ x ≤ 1.0
  · rw [if_pos inside, objection_of_not (not_not_intro inside)]
    rfl
  · rw [if_neg inside, objection_of inside]
    rfl

theorem checkPositive_eq_verdict (x : α) : checkPositive x = .verdict (positiveObjections x) x := by
  rw [checkPositive, checkFinite_eq_verdict]
  refine Except.verdict_bind ?_ _
  by_cases zero : (x == 0.0) = true
  · rw [if_pos zero, objection_of zero]
    rfl
  · rw [if_neg zero, objection_of_not zero, List.nil_append]
    by_cases negative : x < 0.0
    · rw [if_pos negative, objection_of negative]
      rfl
    · rw [if_neg negative, objection_of_not negative]
      rfl

/-! ## Objections to lists of numbers -/

/-- What is wrong with the numbers of a field. -/
def numberObjections (node field : String) (values : List α) : List (SpecError α) :=
  values.flatMap fun x => (finiteObjections x).map (.invalidNumber node field)

/-- What is wrong with the numbers of a field that takes `count` of them. -/
def listObjections (node field : String) (count : Nat) (wrongCount : Nat → SpecError α)
    (values : List α) : List (SpecError α) :=
  numberObjections node field values ++
    objection (values.length ≠ count) (wrongCount values.length)

/-- What is wrong with half extents, whose count is looked at before their values. -/
def radiusObjections (node field : String) (values : List α) : List (SpecError α) :=
  objection (values.length ≠ 1 ∧ values.length ≠ 2) (.invalidPoint node field values.length) ++
    numberObjections node field values

theorem finiteArg_eq_verdict (node field : String) (x : α) :
    finiteArg node field x =
      .verdict ((finiteObjections x).map (.invalidNumber node field)) x := by
  rw [finiteArg, checkFinite_eq_verdict, Except.mapError_verdict]

theorem finiteArgs_eq_verdict (node field : String) (values : List α) :
    finiteArgs node field values = .verdict (numberObjections node field values) values := by
  rw [finiteArgs, Except.mapM_verdict (v := id) (finiteArg_eq_verdict node field), List.map_id]
  rfl

/-- A list that is read by its count is read as `value`, unless there are objections to it. -/
theorem shapedArg_eq_verdict {β : Type} {node field : String} {read : List α → Option β}
    {wrongCount : Nat → SpecError α} {count : Nat} {values : List α} {value : β}
    (wrong : values.length ≠ count → read values = none)
    (right : values.length = count → read values = some value) :
    shapedArg node field read wrongCount values =
      .verdict (listObjections node field count wrongCount values) value := by
  rw [shapedArg, finiteArgs_eq_verdict, listObjections]
  refine Except.verdict_bind ?_ _
  by_cases length : values.length = count
  · rw [right length, objection_of_not (not_not_intro length)]
    rfl
  · rw [wrong length, objection_of length]
    rfl

/-! ## Objections to anchors -/

/-- The names of the anchors of the horizontal axis. -/
def horizontalNames : List String :=
  ["left", "right"]

/-- The names of the anchors of the vertical axis. -/
def verticalNames : List String :=
  ["top", "bottom"]

/-- The names of the anchors of both axes. -/
def centralNames : List String :=
  ["center", "middle"]

namespace AnchorArg

/-- What is wrong with an anchor of which some names are known. -/
def objections (node : String) (known : List String) : AnchorArg α → List (SpecError α)
  | number value => (fractionObjections value).map (.invalidNumber node "align")
  | name token => objection (token ∉ known) (.unknownAnchor node token)

/-- Where an anchor stands: a number where it says, and a name at the start, at the end, or in the
middle of its axis. -/
def fraction : AnchorArg α → α
  | number value => value
  | name token =>
    if token ∈ ["left", "top"] then 0.0 else if token ∈ ["right", "bottom"] then 1.0 else 0.5

/-- Where an anchor stands on an axis on which some names do not count. -/
def fractionBut (others : List String) : AnchorArg α → α
  | number value => value
  | name token => if token ∈ others then 0.5 else (name token).fraction

end AnchorArg

/-- What is wrong with the anchors of an alignment. -/
def anchorObjections (node : String) : List (AnchorArg α) → List (SpecError α)
  | [a] => a.objections node (horizontalNames ++ verticalNames ++ centralNames)
  | [x, y] =>
    x.objections node (horizontalNames ++ centralNames) ++
      y.objections node (verticalNames ++ centralNames)
  | anchors => [.invalidAlign node anchors.length]

/-- The alignment of one anchor, whose name leaves the other axis centred, or of one for each
axis. -/
def describedAlign : List (AnchorArg α) → Align α
  | [a] => ⟨a.fractionBut verticalNames, a.fractionBut horizontalNames⟩
  | [x, y] => ⟨x.fraction, y.fraction⟩
  | _ => .center

/-- The axes that a name fixes, and where. -/
theorem Anchor.ofName?_eq (token : String) :
    (Anchor.ofName? token : Option (Anchor α)) =
      if token ∈ horizontalNames then some (.horizontal (AnchorArg.name token).fraction)
      else if token ∈ verticalNames then some (.vertical (AnchorArg.name token).fraction)
      else if token ∈ centralNames then some (.both (AnchorArg.name token).fraction)
      else none := by
  unfold Anchor.ofName?
  split <;> simp_all [horizontalNames, verticalNames, centralNames, AnchorArg.fraction]

namespace AnchorArg

theorem fractionAnchor_eq_verdict (node : String) (x : α) :
    fractionAnchor node x =
      .verdict ((fractionObjections x).map (.invalidNumber node "align")) x := by
  rw [fractionAnchor, checkFraction_eq_verdict, Except.mapError_verdict]

/-- A name of one of the lists is in none of the others. -/
theorem names_disjoint {token : String} :
    (token ∈ horizontalNames → token ∉ verticalNames ∧ token ∉ centralNames) ∧
      (token ∈ verticalNames → token ∉ centralNames) := by
  constructor
  · intro h
    rcases List.mem_pair.mp h with rfl | rfl <;> decide
  · intro h
    rcases List.mem_pair.mp h with rfl | rfl <;> decide

/-- An anchor on its own. -/
theorem map_anchor_eq_verdict (node : String) (arg : AnchorArg α) :
    (fun anchor => (⟨anchor.x?.getD 0.5, anchor.y?.getD 0.5⟩ : Align α)) <$> arg.anchor node =
      .verdict (arg.objections node (horizontalNames ++ verticalNames ++ centralNames))
        ⟨arg.fractionBut verticalNames, arg.fractionBut horizontalNames⟩ := by
  cases arg with
  | number x =>
    rw [anchor, fractionAnchor_eq_verdict, Except.map_verdict, Except.map_verdict]
    rfl
  | name token =>
    rw [anchor, objections, Anchor.ofName?_eq]
    by_cases horizontal : token ∈ horizontalNames
    · obtain ⟨notVertical, -⟩ := names_disjoint.1 horizontal
      rw [objection_of_not (by simp [horizontal])]
      simp [horizontal, notVertical, fractionBut, Anchor.x?, Anchor.y?]
    · by_cases vertical : token ∈ verticalNames
      · rw [objection_of_not (by simp [vertical])]
        simp [horizontal, vertical, fractionBut, Anchor.x?, Anchor.y?]
      · by_cases central : token ∈ centralNames
        · rw [objection_of_not (by simp [central])]
          simp [horizontal, vertical, central, fractionBut, Anchor.x?, Anchor.y?]
        · rw [objection_of (by simp [horizontal, vertical, central])]
          simp [horizontal, vertical, central, throw, throwThe, MonadExceptOf.throw, Functor.map,
            Except.map]

/-- An anchor for an axis on which the names of one list and the central ones are known. -/
theorem position_eq_verdict {side : Anchor α → Option α} {known : List String}
    (reads : ∀ token, (Anchor.ofName? token).bind side =
      if token ∈ known then some (name token).fraction else none) (node : String)
    (arg : AnchorArg α) :
    arg.position node side = .verdict (arg.objections node known) arg.fraction := by
  cases arg with
  | number x => exact fractionAnchor_eq_verdict node x
  | name token =>
    rw [position, reads, objections]
    by_cases h : token ∈ known
    · rw [if_pos h, objection_of_not (not_not_intro h)]
      rfl
    · rw [if_neg h, objection_of h]
      rfl

theorem bind_x?_ofName? (token : String) :
    (Anchor.ofName? token).bind Anchor.x? =
      if token ∈ horizontalNames ++ centralNames then some (name token : AnchorArg α).fraction
      else none := by
  rw [Anchor.ofName?_eq]
  by_cases horizontal : token ∈ horizontalNames
  · simp [horizontal, Anchor.x?]
  · by_cases vertical : token ∈ verticalNames
    · simp [horizontal, vertical, names_disjoint.2 vertical, Anchor.x?]
    · by_cases central : token ∈ centralNames <;> simp [horizontal, vertical, central, Anchor.x?]

theorem bind_y?_ofName? (token : String) :
    (Anchor.ofName? token).bind Anchor.y? =
      if token ∈ verticalNames ++ centralNames then some (name token : AnchorArg α).fraction
      else none := by
  rw [Anchor.ofName?_eq]
  by_cases horizontal : token ∈ horizontalNames
  · obtain ⟨notVertical, notCentral⟩ := names_disjoint.1 horizontal
    simp [horizontal, notVertical, notCentral, Anchor.y?]
  · by_cases vertical : token ∈ verticalNames
    · simp [horizontal, vertical, Anchor.y?]
    · by_cases central : token ∈ centralNames <;> simp [horizontal, vertical, central, Anchor.y?]

end AnchorArg

/-- The alignment of a list of anchors is the described one, unless there are objections. -/
theorem Align.ofAnchors_eq_verdict (node : String) (anchors : List (AnchorArg α)) :
    Align.ofAnchors node anchors =
      .verdict (anchorObjections node anchors) (describedAlign anchors) := by
  match anchors with
  | [] => rfl
  | [a] => exact (bind_pure_comp _ _).trans (a.map_anchor_eq_verdict node)
  | [x, y] =>
    have first := x.position_eq_verdict AnchorArg.bind_x?_ofName? node
    have second := y.position_eq_verdict AnchorArg.bind_y?_ofName? node
    rw [Align.ofAnchors, first, anchorObjections]
    refine Except.verdict_bind ?_ _
    rw [second, bind_pure_comp, Except.map_verdict]
    rfl
  | x :: y :: z :: rest => rfl

end SvgLayout
