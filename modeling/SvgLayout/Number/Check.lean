import SvgLayout.Scalar
import SvgLayout.Number.Text

/-!
# Checked numbers

The three conditions that numbers from outside are held to. Each check asks first for a number,
then for a finite one, then for its range, and answers with the number itself.

## Main definitions

* `NumericError` — why a number is refused.
* `checkFinite`, `checkFraction`, `checkPositive`.
-/

namespace SvgLayout

/-- Why a number is refused. -/
inductive NumericError (α : Type)
  | nan
  | infinite
  | zero
  | negative
  /-- It lies outside `0 … 1`. -/
  | notFraction (value : α)

def NumericError.message {α : Type} [NumberText α] : NumericError α → String
  | nan => "value is NaN"
  | infinite => "value is infinite"
  | zero => "value is zero"
  | negative => "value is negative"
  | notFraction value => "value " ++ NumberText.shortest value ++ " is outside 0..=1"

variable {α : Type} [Scalar α]

def checkFinite (value : α) : Except (NumericError α) α :=
  if Scalar.isNaN value then throw .nan
  else if Scalar.isInfinite value then throw .infinite
  else pure value

/-- A finite number from zero to one. -/
def checkFraction (value : α) : Except (NumericError α) α := do
  let value ← checkFinite value
  if 0.0 ≤ value ∧ value ≤ 1.0 then pure value else throw (.notFraction value)

/-- A finite number above zero. -/
def checkPositive (value : α) : Except (NumericError α) α := do
  let value ← checkFinite value
  if value == 0.0 then throw .zero
  else if value < 0.0 then throw .negative
  else pure value

end SvgLayout
