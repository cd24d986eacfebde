import SvgLayout.Element.Build
import SvgLayout.Picture
import SvgLayout.Proofs.Element.Sketch
import SvgLayout.Scalar.Double

/-!
# Drawn pictures

A picture is its canvas with what drawing the root into it answers and leaves.

## Main statements

* `Picture.draw_eq_ok` — when a picture is drawn, and which.
* `renderSvg_eq_ok` — a document is rendered if its picture is drawn.
* `Picture.sketch_run` — up to pixels a picture is the sketch of its tree.
-/

namespace SvgLayout

variable {α : Type} [Scalar α] [NumberText α]

theorem Picture.draw_eq_ok {root : Element α} {options : RenderOptions α} {picture : Picture α} :
    Picture.draw root options = .ok picture ↔
      options.canvas root = .ok picture.canvas ∧
        (root.drawIn (options.context picture.canvas)).Returns .empty picture.body
          picture.registry := by
  obtain ⟨canvas, registry, body⟩ := picture
  rw [Picture.draw, Except.bind_eq_ok]
  constructor
  · rintro ⟨size, hsize, h⟩
    obtain ⟨m, hm, h⟩ := Except.bind_eq_ok.mp h
    obtain ⟨rfl, rfl, rfl⟩ : size = canvas ∧ _ = registry ∧ m = body := by
      simpa using h
    exact ⟨hsize, Prod.ext hm rfl⟩
  · rintro ⟨hsize, h⟩
    have answer := congrArg Prod.fst h
    have left := congrArg Prod.snd h
    refine ⟨canvas, hsize, Except.bind_eq_ok.mpr ⟨body, answer, ?_⟩⟩
    rw [Except.pure_eq_ok]
    exact congrArg (Picture.mk canvas · body) left

theorem renderSvg_eq_ok {root : Element α} {options : RenderOptions α} {svg : String} :
    renderSvg root options = .ok svg ↔
      ∃ picture, Picture.draw root options = .ok picture ∧
        picture.text options.precision = svg := by
  rw [renderSvg, Except.map_eq_ok]

/-- Up to the attributes of pixels, the body and the definitions of a picture are those of the
sketch of its tree. -/
theorem Picture.sketch_run {root : Element α} {options : RenderOptions α} {picture : Picture α}
    (h : Picture.draw root options = .ok picture) :
    (root.sketch options.precision).run .empty =
      (picture.body.skeleton, picture.registry.skeleton) := by
  obtain ⟨-, hdraw⟩ := Picture.draw_eq_ok.mp h
  exact drawIn_follows (d := root.drawable) (root.draw_follows options.precision) rfl hdraw

/-- A text with an attribute of its own in a clipped and masked group; both contain characters that
are escaped. -/
def maskedNote : Element Float :=
  let style : Style Float := { extra := [("data-note", "it's <new>")] }
  let note : Element Float := ⟨.plain, style, .primitive (.text "a < b & \"c\"" 4.0)⟩
  .group ⟨[note], true, some .ellipse, false⟩

/-- The styles of that tree. -/
theorem maskedNote_everyStyle {P : Style Float → Prop} (plain : P .empty)
    (note : P { extra := [("data-note", "it's <new>")] }) : maskedNote.EveryStyle P := by
  refine Element.everyStyle_iff.mpr ⟨plain, ?_⟩
  intro child hchild
  rcases List.mem_cons.mp hchild with rfl | hchild
  · exact Element.everyStyle_leaf rfl plain
  · rw [List.mem_singleton.mp hchild]
    exact Element.everyStyle_leaf rfl note

/-- Rendering that was evaluated to some document has succeeded. -/
theorem exists_of_isSome_renderSvg {root : Element Float} {options : RenderOptions Float}
    (h : (renderSvg root options).toOption.isSome = true) :
    ∃ svg, renderSvg root options = .ok svg := by
  cases rendered : renderSvg root options with
  | ok svg => exact ⟨svg, rfl⟩
  | error e => simp [rendered, Except.toOption] at h

theorem maskedNote_renders : ∃ svg, renderSvg maskedNote .plain = .ok svg :=
  exists_of_isSome_renderSvg (by decide +kernel)

end SvgLayout
