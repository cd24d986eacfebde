import SvgLayout.Error
import SvgLayout.Spec.Basic

/-!
# Anchors

An alignment is given by one or two anchors, each a fraction or a name. A single name moves its own
axis and leaves the other centred; of two anchors the first is horizontal and the second vertical.

## Main definitions

* `AnchorArg` — an anchor as it is given; `Anchor` — the axes it fixes.
* `Align.ofAnchors` — the alignment of a list of anchors.
-/

namespace SvgLayout

variable {α : Type}

/-- An anchor as it is given. -/
inductive AnchorArg (α : Type)
  | number (value : α)
  | name (token : String)

/-- The axes that an anchor fixes, and where. -/
inductive Anchor (α : Type)
  | horizontal (value : α)
  | vertical (value : α)
  | both (value : α)

namespace Anchor

def x? : Anchor α → Option α
  | horizontal a | both a => some a
  | vertical _ => none

def y? : Anchor α → Option α
  | vertical a | both a => some a
  | horizontal _ => none

variable [Scalar α]

def ofName? : String → Option (Anchor α)
  | "left" => some (horizontal 0.0)
  | "right" => some (horizontal 1.0)
  | "top" => some (vertical 0.0)
  | "bottom" => some (vertical 1.0)
  | "center" | "middle" => some (both 0.5)
  | _ => none

end Anchor

/-- A fraction given as an anchor of `node`. -/
def fractionAnchor [Scalar α] (node : String) (value : α) : Except (SpecError α) α :=
  (checkFraction value).mapError (.invalidNumber node "align")

namespace AnchorArg

variable [Scalar α]

/-- The anchor that an argument of `node` gives on its own. -/
def anchor (node : String) : AnchorArg α → Except (SpecError α) (Anchor α)
  | number value => .both <$> fractionAnchor node value
  | name token =>
    match Anchor.ofName? token with
    | some anchor => pure anchor
    | none => throw (.unknownAnchor node token)

/-- Where an argument of `node` stands on the axis that `side` reads. A name of the other axis is as
unknown as any other. -/
def position (node : String) (side : Anchor α → Option α) :
    AnchorArg α → Except (SpecError α) α
  | number value => fractionAnchor node value
  | name token =>
    match (Anchor.ofName? token).bind side with
    | some value => pure value
    | none => throw (.unknownAnchor node token)

end AnchorArg

/-- The alignment of one anchor, or of a horizontal and a vertical one. -/
def Align.ofAnchors [Scalar α] (node : String) :
    List (AnchorArg α) → Except (SpecError α) (Align α)
  | [arg] => do
    let anchor ← arg.anchor node
    pure ⟨anchor.x?.getD 0.5, anchor.y?.getD 0.5⟩
  | [x, y] => do
    let x ← x.position node Anchor.x?
    let y ← y.position node Anchor.y?
    pure ⟨x, y⟩
  | args => throw (.invalidAlign node args.length)

end SvgLayout
