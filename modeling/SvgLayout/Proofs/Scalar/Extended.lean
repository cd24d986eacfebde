import SvgLayout.Proofs.Scalar.Real

/-!
# The real numbers with infinities

Exact arithmetic in which a quotient by zero is an infinity, or no number if the dividend is zero as
well. Comparisons with what is no number are false. There is one zero, which counts as positive.

## Main definitions

* `Extended` — a real number, an infinity, or no number.
* `Extended.withQuotients` — the same numbers with other quotients by zero.

## Main statements

* `Extended.real_add` and its companions — on real numbers the operations are the exact ones.
* `Extended.real_div_zero` — a positive number over zero is an infinity.
* `Extended.isFinite_iff` — the finite numbers are the real ones.
-/

namespace SvgLayout

/-- A real number, an infinity, or no number. -/
inductive Extended
  | nan
  | infinite (negative : Bool)
  | real (value : ℝ)

namespace Extended

noncomputable section

/-! ## Operations -/

/-- A real function where it is defined, with its values at the infinities. -/
def lift (f : ℝ → Extended) (below above : Extended) : Extended → Extended
  | nan => nan
  | infinite negative => if negative then below else above
  | real x => f x

/-- The sum; opposite infinities have none. -/
def add : Extended → Extended → Extended
  | real x, real y => real (x + y)
  | infinite s, infinite t => if s = t then infinite s else nan
  | infinite s, real _ => infinite s
  | real _, infinite t => infinite t
  | _, _ => nan

def neg : Extended → Extended
  | nan => nan
  | infinite s => infinite !s
  | real x => real (-x)

/-- The product; an infinity times zero has none. -/
def mul : Extended → Extended → Extended
  | real x, real y => real (x * y)
  | infinite s, infinite t => infinite (s != t)
  | infinite s, real y => if y = 0 then nan else infinite (s != decide (y < 0))
  | real x, infinite t => if x = 0 then nan else infinite (decide (x < 0) != t)
  | _, _ => nan

/-- The quotient; zero over zero and an infinity over an infinity have none. -/
def div : Extended → Extended → Extended
  | real x, real y =>
    if y = 0 then if x = 0 then nan else infinite (decide (x < 0)) else real (x / y)
  | infinite s, real y => infinite (s != decide (y < 0))
  | real _, infinite _ => real 0
  | _, _ => nan

/-- The strict order; what is no number is not in it. -/
def lt : Extended → Extended → Prop
  | real x, real y => x < y
  | infinite s, infinite t => s = true ∧ t = false
  | infinite s, real _ => s = true
  | real _, infinite t => t = false
  | _, _ => False

/-- The weak order; what is no number is not in it. -/
def le : Extended → Extended → Prop
  | real x, real y => x ≤ y
  | infinite s, infinite t => s = true ∨ t = false
  | infinite s, real _ => s = true
  | real _, infinite t => t = false
  | _, _ => False

/-- Numeric equality; what is no number differs from itself. -/
def eq : Extended → Extended → Prop
  | real x, real y => x = y
  | infinite s, infinite t => s = t
  | _, _ => False

def isNegative : Extended → Bool
  | nan => false
  | infinite s => s
  | real x => decide (x < 0)

def magnitude : Extended → Extended
  | nan => nan
  | infinite _ => infinite false
  | real x => real |x|

end

noncomputable instance : Scalar Extended where
  add := add
  sub a b := add a (neg b)
  mul := mul
  div := div
  neg := neg
  lt := lt
  le := le
  beq a b := open Classical in decide (eq a b)
  natCast n := real n
  ofScientific mantissa sign exponent := real (OfScientific.ofScientific mantissa sign exponent)
  decidableLT := Classical.decRel _
  decidableLE := Classical.decRel _
  abs := magnitude
  copySign m s := if isNegative s then neg (magnitude m) else magnitude m
  sqrt := lift (fun x => if x < 0 then nan else real (Real.sqrt x)) nan (infinite false)
  exp := lift (fun x => real (Real.exp x)) (real 0) (infinite false)
  log :=
    lift (fun x => if x < 0 then nan else if x = 0 then infinite true else real (Real.log x)) nan
      (infinite false)
  sin := lift (fun x => real (Real.sin x)) nan nan
  cos := lift (fun x => real (Real.cos x)) nan nan
  pi := real Real.pi
  isNaN a := a matches nan
  isInfinite a := a matches infinite _

/-! ## Real numbers among them -/

section

variable (x y : ℝ)

@[simp] theorem real_add : real x + real y = real (x + y) := rfl

@[simp] theorem real_neg : -real x = real (-x) := rfl

@[simp] theorem real_sub : real x - real y = real (x - y) := by
  rw [sub_eq_add_neg]
  rfl

@[simp] theorem real_mul : real x * real y = real (x * y) := rfl

@[simp] theorem real_lt : real x < real y ↔ x < y := Iff.rfl

@[simp] theorem real_le : real x ≤ real y ↔ x ≤ y := Iff.rfl

@[simp] theorem real_beq : (real x == real y) = decide (x = y) :=
  decide_eq_decide.mpr Iff.rfl

@[simp] theorem abs_real : Scalar.abs (real x) = real |x| := rfl

@[simp] theorem cos_real : Scalar.cos (real x) = real (Real.cos x) := rfl

@[simp] theorem sin_real : Scalar.sin (real x) = real (Real.sin x) := rfl

@[simp] theorem copySign_real :
    Scalar.copySign (real x) (real y) = real (Scalar.copySign x y) := by
  by_cases h : y < 0 <;> simp [Scalar.copySign, isNegative, magnitude, neg, h]

@[simp] theorem min_real : Scalar.min (real x) (real y) = real (min x y) := by
  rw [Scalar.min]
  by_cases h : y < x
  · simp [h, h.le]
  · simp [h, not_lt.mp h]

@[simp] theorem max_real : Scalar.max (real x) (real y) = real (max x y) := by
  rw [Scalar.max]
  by_cases h : x < y
  · simp [h, h.le]
  · simp [h, not_lt.mp h]

variable {x y}

theorem real_div (h : y ≠ 0) : real x / real y = real (x / y) :=
  if_neg h

/-- A positive number over zero is an infinity. -/
theorem real_div_zero (h : 0 < x) : real x / real 0 = infinite false := by
  have answer : real x / real 0 = if x = 0 then nan else infinite (decide (x < 0)) := if_pos rfl
  rw [answer, if_neg h.ne', decide_eq_false h.le.not_gt]

end

@[simp] theorem pi_eq : (Scalar.pi : Extended) = real Real.pi := rfl

/-- A literal is a real number. -/
@[simp] theorem ofScientific_eq (mantissa exponent : ℕ) (sign : Bool) :
    (OfScientific.ofScientific mantissa sign exponent : Extended) =
      real (OfScientific.ofScientific mantissa sign exponent) :=
  rfl

@[simp] theorem isFinite_real (x : ℝ) : Scalar.isFinite (real x) = true := rfl

@[simp] theorem isFinite_nan : Scalar.isFinite nan = false := rfl

@[simp] theorem isFinite_infinite (negative : Bool) :
    Scalar.isFinite (infinite negative) = false := rfl

/-- The finite numbers are the real ones. -/
theorem isFinite_iff {a : Extended} : Scalar.isFinite a = true ↔ ∃ x, a = real x := by
  cases a <;> simp [Scalar.isFinite, Scalar.isNaN, Scalar.isInfinite]

@[simp] theorem isPositive_real (x : ℝ) : Scalar.isPositive (real x) = decide (0 < x) := by
  simp [Scalar.isPositive]

/-- The positive finite numbers are the positive real ones. -/
theorem isPositive_iff {a : Extended} : Scalar.isPositive a = true ↔ ∃ x, a = real x ∧ 0 < x := by
  constructor
  · intro h
    have finite : Scalar.isFinite a = true := by
      rw [Scalar.isPositive, Bool.and_eq_true] at h
      exact h.1
    obtain ⟨x, rfl⟩ := isFinite_iff.mp finite
    exact ⟨x, rfl, by simpa using h⟩
  · rintro ⟨x, rfl, h⟩
    simpa using h

/-! ## Infinities -/

section

variable (x : ℝ)

@[simp] theorem infinite_lt_real (negative : Bool) :
    infinite negative < real x ↔ negative = true := Iff.rfl

@[simp] theorem real_lt_infinite (negative : Bool) :
    real x < infinite negative ↔ negative = false := Iff.rfl

@[simp] theorem infinite_le_real (negative : Bool) :
    infinite negative ≤ real x ↔ negative = true := Iff.rfl

/-- A real number is less than the positive infinity. -/
@[simp] theorem min_infinite : Scalar.min (infinite false) (real x) = real x := by
  simp [Scalar.min]

@[simp] theorem min_real_infinite : Scalar.min (real x) (infinite false) = real x := by
  simp [Scalar.min]

@[simp] theorem max_infinite : Scalar.max (infinite false) (real x) = infinite false := by
  have self : (infinite false == infinite false) = true := by
    classical exact decide_eq_true rfl
  simp [Scalar.max, self]

@[simp] theorem max_real_infinite : Scalar.max (real x) (infinite false) = infinite false := by
  simp [Scalar.max]

end

/-! ## Other quotients by zero -/

/-- The same numbers with other quotients by zero. A result that is the same whatever they are is
computed without dividing by zero. -/
@[reducible] noncomputable def withQuotients (byZero : Extended → Extended) : Scalar Extended :=
  { (inferInstance : Scalar Extended) with
    div := fun x y => open Classical in if y = real 0 then byZero x else x / y }

/-- The usual quotients by zero are among the others. -/
theorem withQuotients_self : withQuotients (· / real 0) = (inferInstance : Scalar Extended) := by
  have same : (fun x y : Extended => open Classical in if y = real 0 then x / real 0 else x / y) =
      fun x y => x / y := by
    funext x y
    split
    · next h => rw [h]
    · rfl
  exact congrArg (fun div => { (inferInstance : Scalar Extended) with div := div }) same

section

variable (byZero : Extended → Extended) {x y : ℝ}

theorem withQuotients_div (h : y ≠ 0) :
    letI := withQuotients byZero
    real x / real y = real (x / y) := by
  have nonzero : real y ≠ real 0 := by simpa using h
  exact (if_neg nonzero).trans (real_div h)

/-! Every other operation is the usual one. -/

theorem withQuotients_abs : @Scalar.abs Extended (withQuotients byZero) = Scalar.abs := rfl

theorem withQuotients_copySign :
    @Scalar.copySign Extended (withQuotients byZero) = Scalar.copySign := rfl

theorem withQuotients_cos : @Scalar.cos Extended (withQuotients byZero) = Scalar.cos := rfl

theorem withQuotients_sin : @Scalar.sin Extended (withQuotients byZero) = Scalar.sin := rfl

theorem withQuotients_pi : @Scalar.pi Extended (withQuotients byZero) = Scalar.pi := rfl

theorem withQuotients_min : @Scalar.min Extended (withQuotients byZero) = Scalar.min := rfl

theorem withQuotients_max : @Scalar.max Extended (withQuotients byZero) = Scalar.max := rfl

end

end Extended

end SvgLayout
