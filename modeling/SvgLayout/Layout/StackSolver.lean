import SvgLayout.Layout.Tracks

/-!
# Dividing an axis among the items of a stack

Items are laid end to end along a main axis. An item may ask for a share of the axis, for a ratio of
its main to its cross length, for both, or for neither. Items with a share are *sized*, items with
only a ratio are *expanding*, and the others are *flexible* and take what remains.

## Main definitions

* `StackItem`, `StackItem.Role` — what an item asks for.
* `naturalLength` — the ratio of the whole stack that its items determine.
* `solveStack` — the range of each item, and the ratio of the whole.
-/

namespace SvgLayout

variable {α : Type}

/-- What an item asks for: a share of the main axis, and a ratio of main to cross length. -/
structure StackItem (α : Type) where
  size : Option α
  aspect : Option α

/-- The ranges of the items on the unit axis, and the ratio of main to cross length of the whole. -/
structure StackLayout (α : Type) where
  ranges : List (Limit α)
  length : Option α

variable [Scalar α]

namespace StackItem

/-- How an item takes part in the division: with a share of its own, with the share in which its
ratio is kept, or with what remains. -/
inductive Role (α : Type)
  | sized (share : α)
  | expanding (aspect : α)
  | flexible

/-- The role of an item; only positive ratios count. -/
def role (item : StackItem α) : Role α :=
  match item.size, item.aspect with
  | some share, _ => .sized share
  | none, some aspect => if 0.0 < aspect then .expanding aspect else .flexible
  | none, none => .flexible

/-- The share that an item has of its own; zero for the others. -/
def share (item : StackItem α) : α :=
  item.size.getD 0.0

/-- The ratio of an expanding item. -/
def wish (item : StackItem α) : Option α :=
  match item.role with
  | .expanding aspect => some aspect
  | _ => none

/-- The length of the whole in which a sized item of a ratio spans the cross axis exactly. -/
def fittingLength (room : α) (item : StackItem α) : Option α :=
  match item.size, item.aspect with
  | some share, some aspect =>
    if 0.0 < share ∧ 0.0 < aspect then some (aspect / (room * share)) else none
  | _, _ => none

/-- The item with its share divided by `total`. -/
def scaleShare (total : α) (item : StackItem α) : StackItem α :=
  { item with size := item.size.map (· / total) }

/-- The item takes what remains. -/
def isFlexible (item : StackItem α) : Bool :=
  item.role matches .flexible

end StackItem

def least? : List α → Option α
  | [] => none
  | x :: xs => some (xs.foldl Scalar.min x)

/-- The length at which every sized item of a ratio fits its range. -/
def fittingLength (items : List (StackItem α)) (room : α) : Option α :=
  least? (items.filterMap (StackItem.fittingLength room))

/-- The length at which the expanding items fill what the sized ones leave. -/
def fillingLength (wishes : List α) (remaining room : α) : Option α :=
  if wishes.isEmpty then none else some (Scalar.sum wishes / (remaining * room))

/-- The share of an expanding item: what its ratio asks for or, when all of them ask for more than
there is, a part in proportion. A single one then takes all there is. -/
def expandedShare (wants : List α) (remaining want : α) : α :=
  let total := Scalar.sum wants
  if remaining < total then
    if wants.length = 1 then remaining else want * (remaining / total)
  else want

/-- The shares when no item can grow: those of the sized items, divided by their sum if it is more
than one. -/
def fixedShares (items : List (StackItem α)) (total : α) : List α :=
  let shares := items.map StackItem.share
  if 1.0 < total then shares.map (· / total) else shares

/-- The shares when the expanding and flexible items divide what remains. There is a length whenever
an item expands. -/
def grownShares (items : List (StackItem α)) (remaining room : α) (length : Option α) : List α :=
  let want := fun aspect => aspect / (room * length.getD 0.0)
  let wants := (items.filterMap StackItem.wish).map want
  let grow := fun aspect => expandedShare wants remaining (want aspect)
  let shareOr := fun (rest : α) (item : StackItem α) =>
    match item.role with
    | .sized share => share
    | .expanding aspect => grow aspect
    | .flexible => rest
  let used := Scalar.sum (items.map (shareOr 0.0))
  let rest := Scalar.max (1.0 - used) 0.0 / ((items.filter StackItem.isFlexible).length : α)
  items.map (shareOr rest)

/-- Nothing is left to divide: the sized items take the whole axis, or there are no others. -/
def isSettled (items : List (StackItem α)) (total : α) : Bool :=
  decide (1.0 ≤ total) || items.all fun item => item.size.isSome

/-- The shares of all items and the length of the whole. -/
def divideStack (items : List (StackItem α)) (room : α) (length : Option α) :
    List α × Option α :=
  let total := Scalar.sum (items.map StackItem.share)
  if isSettled items total then
    let scaled := items.map (StackItem.scaleShare (Scalar.max total 1.0))
    (fixedShares items total, length.or (fittingLength scaled room))
  else
    let remaining := 1.0 - total
    let wishes := items.filterMap StackItem.wish
    let length := (length.or (fittingLength items room)).or (fillingLength wishes remaining room)
    (grownShares items remaining room length, length)

/-- The ranges of the items, with a gap between neighbours, and the length of the whole. A given
length is kept; otherwise it follows from the sized items with a ratio, or failing that from the
expanding ones. -/
def solveStack (items : List (StackItem α)) (gap : α) (length : Option α) : StackLayout α :=
  if items.isEmpty then
    ⟨[], none⟩
  else
    let spacing := Spacing.resolve gap items.length
    let (shares, length) := divideStack items spacing.room length
    ⟨tracks (shares.map (spacing.room * ·)) spacing.gap, length⟩

end SvgLayout
