import SvgLayout.Proofs.Element.Failures
import SvgLayout.Proofs.Picture.Drawn
import SvgLayout.Proofs.Scalar.Sign

/-!
# Why rendering fails

Rendering refuses a canvas that is not finite and positive before it looks at the tree. On a canvas
that it accepts it fails if the tree has a fault anywhere, and otherwise only if the pixels of some
node are not finite.

## Main statements

* `RenderOptions.size_eq` — which canvases are accepted.
* `renderSvg_ends` — how rendering ends.
-/

namespace SvgLayout

variable {α : Type} [Scalar α] {options : RenderOptions α} {root : Element α}

/-! ## The canvas -/

/-- A size is accepted if both extents are positive. -/
theorem Size.checked_eq_ok [Scalar.HasSign α] {w h : α} {size : Size α} :
    Size.checked w h = .ok size ↔
      (Scalar.isPositive w = true ∧ Scalar.isPositive h = true) ∧ size = ⟨w, h⟩ := by
  simp only [Size.checked, Except.bind_eq_ok, checkPositive_eq_ok, Except.pure_eq_ok]
  constructor
  · rintro ⟨_, ⟨rfl, width⟩, _, ⟨rfl, height⟩, rfl⟩
    exact ⟨⟨width, height⟩, rfl⟩
  · rintro ⟨⟨width, height⟩, rfl⟩
    exact ⟨w, ⟨rfl, width⟩, h, ⟨rfl, height⟩, rfl⟩

/-- A canvas is accepted if both extents are positive; any other one is refused. -/
theorem RenderOptions.size_eq [Scalar.HasSign α] (options : RenderOptions α) :
    options.size =
      if Scalar.isPositive options.width = true ∧ Scalar.isPositive options.height = true then
        .ok ⟨options.width, options.height⟩
      else .error (.invalidSize options.width options.height) := by
  split
  next positive => rw [RenderOptions.size, Size.checked_eq_ok.mpr ⟨positive, rfl⟩, Except.mapError]
  next refused =>
    cases checked : Size.checked options.width options.height with
    | ok size => exact absurd (Size.checked_eq_ok.mp checked).1 refused
    | error e => rw [RenderOptions.size, checked, Except.mapError]

variable [NumberText α]

/-- What is rendered has no fault. -/
theorem not_raises_of_renderSvg {svg : String} (h : renderSvg root options = .ok svg)
    (err : LayoutError α) : ¬root.Raises err := by
  obtain ⟨picture, hdraw, -⟩ := renderSvg_eq_ok.mp h
  obtain ⟨-, hbody⟩ := Picture.draw_eq_ok.mp hdraw
  have settled := root.settled (options.context picture.canvas) .empty
  rw [hbody] at settled
  exact settled err

/-- On a canvas that is accepted a tree is rendered, or fails with what it may fail with. -/
theorem renderSvg_failsOnly {size : Size α} (accepted : options.size = .ok size) :
    (renderSvg root options).FailsOnly root.MayFail := by
  have measures : root.measured.sizing.FailsOnly root.MayFail :=
    root.measured_failsOnly.mono fun _ raised => .inr raised
  have canvas : (options.canvas root).FailsOnly root.MayFail := by
    rw [RenderOptions.canvas, accepted]
    exact (Measured.layoutAspect_failsOnly measures).bind fun _ => .pure _
  refine .map (canvas.bind fun canvas => .bind ?_ fun _ => .pure _)
  exact (root.settled (options.context canvas)).failsOnly .empty

/-- How rendering ends. A canvas that is not finite and positive is refused, whatever the tree. On
any other canvas a tree with a fault is not rendered, wherever the fault is: a group below its root
that derives its ratio from other than one child, or a grid with weights that do not fit. A tree
without a fault is rendered, unless the pixels of one of its nodes are not finite. -/
theorem renderSvg_ends [Scalar.HasSign α] (root : Element α) (options : RenderOptions α) :
    (¬(Scalar.isPositive options.width = true ∧ Scalar.isPositive options.height = true) →
      renderSvg root options = .error (.invalidSize options.width options.height)) ∧
    (Scalar.isPositive options.width = true → Scalar.isPositive options.height = true →
      ((∃ fault, root.Raises fault) →
        ∃ err, renderSvg root options = .error err ∧ root.MayFail err) ∧
      ((∀ fault, ¬root.Raises fault) → (∃ svg, renderSvg root options = .ok svg) ∨
        ∃ kind, renderSvg root options = .error (.nonFinite kind))) := by
  constructor
  · intro refused
    rw [renderSvg, Picture.draw, RenderOptions.canvas, options.size_eq, if_neg refused]
    rfl
  · intro width height
    have fails : (renderSvg root options).FailsOnly root.MayFail :=
      renderSvg_failsOnly (options.size_eq.trans (if_pos ⟨width, height⟩))
    cases h : renderSvg root options with
    | ok svg =>
      refine ⟨?_, fun _ => .inl ⟨svg, rfl⟩⟩
      rintro ⟨fault, raised⟩
      exact absurd raised (not_raises_of_renderSvg h fault)
    | error err =>
      refine ⟨fun _ => ⟨err, rfl, fails err h⟩, fun sound => .inr ?_⟩
      rcases fails err h with ⟨kind, rfl⟩ | raised
      · exact ⟨kind, rfl⟩
      · exact absurd raised (sound err)

/-! ## A hidden fault -/

/-- A group of two children that derives its ratio from one. -/
def pairForOne : Element Float :=
  let pair : Group (Element Float) := ⟨[.ellipse, .ellipse], false, none, false⟩
  ⟨{ Spec.plain with aspect := some .auto }, .empty, .group pair⟩

/-- The pair in a stack that gives it half of its length and asks nothing of it. -/
def shelvedPair : Element Float :=
  .stack ⟨.vertical, [⟨pairForOne, some 0.5, false⟩], 0.0, none, false⟩

/-- The stack has the fault of the pair. -/
theorem shelvedPair_raises : shelvedPair.Raises (.childCount "Group" 1 2) := by
  refine Element.raises_iff.mpr (.inr ⟨pairForOne, List.mem_singleton_self _, ?_⟩)
  exact Element.raises_iff.mpr (.inl ⟨rfl, by decide, rfl⟩)

/-- The stack is measured, but it is not rendered; an ellipse is rendered unless its pixels are not
finite, but not on a canvas of a negative width. -/
theorem renderSvg_ends_shelvedPair :
    (∃ aspect, shelvedPair.layoutAspect = .ok aspect) ∧
      (∃ err, renderSvg shelvedPair .plain = .error err ∧ shelvedPair.MayFail err) ∧
      ((∃ svg, renderSvg (.ellipse : Element Float) .plain = .ok svg) ∨
        ∃ kind, renderSvg (.ellipse : Element Float) .plain = .error (.nonFinite kind)) ∧
      renderSvg (.ellipse : Element Float) { RenderOptions.plain with width := -1.0 } =
        .error (.invalidSize (-1.0) 500.0) := by
  have positive : Scalar.isPositive (500.0 : Float) = true := by decide +kernel
  have negative : Scalar.isPositive (-1.0 : Float) = false := by decide +kernel
  refine ⟨⟨none, rfl⟩, ?_, ?_, ?_⟩
  · exact ((renderSvg_ends shelvedPair .plain).2 positive positive).1 ⟨_, shelvedPair_raises⟩
  · refine ((renderSvg_ends .ellipse .plain).2 positive positive).2 fun fault => ?_
    exact Element.not_raises_primitive _ _ _
  · refine (renderSvg_ends .ellipse { RenderOptions.plain with width := -1.0 }).1 ?_
    simp [negative]

end SvgLayout
