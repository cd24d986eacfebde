import SvgLayout.Geometry.Rect

/-!
# Fitting sizes

How large a box of a given ratio, turned by a given angle, can be made inside a signed size. Every
answer keeps the signs of the size, so flipped spaces stay flipped.

## Main definitions

* `embed` — the largest size of a ratio inside a size, or the smallest around it.
* `rotatedBounds`, `rotatedAspect` — the upright bounding box of a turned box.
* `rotateFit` — the size of a box that fits once it is turned.
* `freeFit` — the box of largest area that fits, when its ratio is free.
-/

namespace SvgLayout

variable {α : Type} [Scalar α]

/-- A ratio that can be fitted: finite and positive. Others count as absent. -/
def usableAspect (aspect : Option α) : Option α :=
  aspect.filter Scalar.isPositive

/-- The lesser of two bounds, or with `expand` the greater. -/
def bindingLength (expand : Bool) (a b : α) : α :=
  if expand then Scalar.max a b else Scalar.min a b

/-- A width and height with the signs of `size`. -/
def signedLike (size : Size α) (w h : α) : Size α :=
  ⟨Scalar.copySign w size.w, Scalar.copySign h size.h⟩

/-- The largest size of ratio `aspect` inside `size` or, with `expand`, the smallest that covers it.
Without a usable ratio it is `size` itself. -/
def embed (size : Size α) (aspect : Option α) (expand : Bool) : Size α :=
  match usableAspect aspect with
  | none => size
  | some a =>
    let h := bindingLength expand (Scalar.abs size.w / a) (Scalar.abs size.h)
    signedLike size (h * a) h

/-- The magnitudes of the cosine and the sine of an angle in degrees. -/
def absCosSin (degrees : α) : α × α :=
  let angle := Scalar.radians degrees
  (Scalar.abs (Scalar.cos angle), Scalar.abs (Scalar.sin angle))

/-- The size of the upright bounding box of a box of size `size` turned by `degrees`. -/
def rotatedBounds (size : Size α) (degrees : α) : Size α :=
  let (c, s) := absCosSin degrees
  let w := Scalar.abs size.w
  let h := Scalar.abs size.h
  ⟨w * c + h * s, w * s + h * c⟩

/-- The ratio of the upright bounding box of a box of ratio `aspect` turned by `degrees`. -/
def rotatedAspect (aspect degrees : α) : α :=
  let (c, s) := absCosSin degrees
  (aspect * c + s) / (aspect * s + c)

/-- The box of largest area that fits into `aw × ah` when turned by an angle whose cosine and sine
have the magnitudes `c` and `s`, that is the `(w, h)` with `c * w + s * h ≤ aw` and
`s * w + c * h ≤ ah` of largest product. In a narrow container only the width binds, in a shallow
one only the height, and between them both do; there the two equations are solved, unless their
determinant is below `tolerance`, where a square is taken. -/
def freeFit (aw ah c s tolerance : α) : α × α :=
  if aw == 0.0 || ah == 0.0 then
    (0.0, 0.0)
  else
    let ratio := aw / ah
    let tangent := s / c
    let cotangent := c / s
    if ratio ≤ Scalar.min tangent cotangent then
      (aw / (2.0 * c), aw / (2.0 * s))
    else if Scalar.max tangent cotangent ≤ ratio then
      (ah / (2.0 * s), ah / (2.0 * c))
    else
      let det := c * c - s * s
      if Scalar.abs det < tolerance then
        let side := Scalar.min aw ah / (c + s)
        (side, side)
      else
        ((c * aw - s * ah) / det, (c * ah - s * aw) / det)

/-- The size of a box that fits into `size` once it is turned by `rotate` degrees. With a usable
ratio it is the largest such box or, with `expand`, the smallest whose bounding box covers `size`;
without one it is the box of largest area. An invariant box is fitted as if it were not turned. -/
def rotateFit (size : Size α) (rotate : α) (aspect : Option α) (expand invar : Bool)
    (tolerance : α) : Size α :=
  if invar || rotate == 0.0 then
    embed size aspect expand
  else
    let (c, s) := absCosSin rotate
    let aw := Scalar.abs size.w
    let ah := Scalar.abs size.h
    match usableAspect aspect with
    | some a =>
      let h := bindingLength expand (aw / (a * c + s)) (ah / (a * s + c))
      signedLike size (h * a) h
    | none =>
      let (w, h) := freeFit aw ah c s tolerance
      signedLike size w h

end SvgLayout
