import SvgLayout.Proofs.Picture.DeadSpace
import SvgLayout.Proofs.Element.Opacity

/-!
# Opacities in a picture

Whatever is drawn in a document is covered by the opacities of the styles on its path in the tree,
from the root down, or inside a definition from the mask down. Each of them counts once, except
that of an arrow: it counts for the arrow as a whole, and again for its shaft and for its head.

## Main definitions

* `Picture.veiled` — the leaves of a document with the opacities over them.
* `Element.allVeiled` — those of a tree, with the leaves of its masks first.

## Main statements

* `opacities_count_once_iff` — which opacities are over the leaves of a document. All count once
  exactly if no arrow sets one.
-/

namespace SvgLayout

variable {α : Type} [Scalar α] [NumberText α]

omit [Scalar α] in
/-- The leaves of the document of a picture without the attributes of pixels, each with the
opacities over it. -/
def Picture.veiled (picture : Picture α) (precision : Nat) : List Veiled :=
  (document picture.canvas picture.registry picture.body precision).veiled.map Veiled.skeleton

/-- The leaves of the masks of a tree and then its own, each with the opacities over it. -/
def Element.allVeiled (twice : Bool) (precision : Nat) (e : Element α) : List Veiled :=
  e.hidden twice precision ++ e.veiled twice precision

/-- The shaft and the head of an arrow have the opacity of its style over them, or have it twice. -/
theorem Element.map_opacities_arrow (twice : Bool) (precision : Nat) (spec : Spec α)
    (style : Style α) (arrow : Arrow α) :
    ((Element.mk spec style (.arrow arrow)).allVeiled twice precision).map Veiled.opacities =
      .replicate 2 (style.opacities precision ++
        if twice then style.opacities precision else []) := by
  rw [allVeiled, hidden_eq, veiled_eq]
  rfl

/-- That an arrow's opacity counts twice shows on the leaves of a tree and of its masks exactly if
there is an arrow that sets one. -/
theorem Element.allVeiled_eq_iff (precision : Nat) (e : Element α) :
    e.allVeiled true precision = e.allVeiled false precision ↔
      ∀ node ∈ e.nodes, ¬node.IsVeiledArrow := by
  rw [allVeiled, allVeiled, append_eq_iff (e.length_hidden precision), and_comm]
  exact e.veiled_eq_iff precision

/-- A picture shows the leaves of its definitions and of its body with the opacities of the tree. -/
theorem Picture.veiled_eq {root : Element α} {options : RenderOptions α} {picture : Picture α}
    (plain : ∀ node ∈ root.nodes, node.shape.debug = false)
    (typed : root.EveryStyle Style.IsTyped) (h : Picture.draw root options = .ok picture) :
    picture.veiled options.precision = root.allVeiled true options.precision := by
  obtain ⟨seen, defined⟩ := root.sketch_yields options.precision plain typed .empty
  rw [Picture.sketch_run h] at seen defined
  have masks : (picture.registry.defs.flatMap Markup.veiled).map Veiled.skeleton =
      root.hidden true options.precision := by
    have pieces : picture.registry.skeleton.defs.flatMap Markup.veiled =
        (picture.registry.defs.flatMap Markup.veiled).map Veiled.skeleton := by
      simp [Registry.skeleton, List.flatMap_map, List.map_flatMap, Markup.veiled_skeleton]
    rw [← pieces, defined]
    simp [Registry.empty]
  rw [Picture.veiled, veiled_document, List.map_append, masks, ← Markup.veiled_skeleton, seen,
    Element.allVeiled]

/-- A tree that is rendered without outlines, and in which opacities are set by styles only, is
shown with the opacities of the styles from its root or from a mask down to each leaf, where an
arrow counts its own once more for its shaft and its head. So each counts once exactly if there is
no arrow that sets one. -/
theorem opacities_count_once_iff {root : Element α} {options : RenderOptions α} {svg : String}
    (plain : ∀ node ∈ root.nodes, node.shape.debug = false)
    (typed : root.EveryStyle Style.IsTyped) (rendered : renderSvg root options = .ok svg) :
    ∃ picture, Picture.draw root options = .ok picture ∧
      picture.text options.precision = svg ∧
      picture.veiled options.precision = root.allVeiled true options.precision ∧
      (picture.veiled options.precision = root.allVeiled false options.precision ↔
        ∀ node ∈ root.nodes, ¬node.IsVeiledArrow) := by
  obtain ⟨picture, drawn, written⟩ := renderSvg_eq_ok.mp rendered
  have shown := Picture.veiled_eq plain typed drawn
  refine ⟨picture, drawn, written, shown, ?_⟩
  rw [shown]
  exact root.allVeiled_eq_iff options.precision

/-! ### A faded note, and a faded arrow -/

/-- A style that only sets an opacity. -/
def Style.faded (opacity : α) : Style α :=
  { opacity := some opacity }

omit [NumberText α] [Scalar α] in
theorem Style.isTyped_faded (opacity : α) : (Style.faded opacity).IsTyped := by
  intro pair hpair
  cases hpair

/-- A framed text in a group with a mask. All but the frame set an opacity. -/
def fadedNote : Element Float :=
  let note : Element Float := ⟨.plain, .faded 0.75, .primitive (.text "north" 4.0)⟩
  let framed : Element Float := ⟨.plain, .empty, .frame ⟨note, 0.125, 0.0625, some .plain, none⟩⟩
  ⟨.plain, .faded 0.5,
    .group ⟨[framed], true, some ⟨.plain, .faded 0.25, .primitive .ellipse⟩, false⟩⟩

theorem fadedNote_typed : fadedNote.EveryStyle Style.IsTyped := by
  refine Element.everyStyle_iff.mpr ⟨Style.isTyped_faded _, ?_⟩
  intro child hchild
  rcases List.mem_cons.mp hchild with rfl | hchild
  · exact Element.everyStyle_leaf rfl (Style.isTyped_faded _)
  · rw [List.mem_singleton.mp hchild]
    refine Element.everyStyle_iff.mpr ⟨by simp [Style.IsTyped, Style.empty], ?_⟩
    intro note hnote
    rw [List.mem_singleton.mp hnote]
    exact Element.everyStyle_leaf rfl (Style.isTyped_faded _)

theorem opacities_count_once_fadedNote :
    fadedNote.EveryStyle Style.IsTyped ∧ (∀ node ∈ fadedNote.nodes, node.shape.debug = false) ∧
      ∃ svg picture, renderSvg fadedNote .plain = .ok svg ∧
        Picture.draw fadedNote .plain = .ok picture ∧
        picture.veiled Defaults.precision = fadedNote.allVeiled false Defaults.precision ∧
        (picture.veiled Defaults.precision).map Veiled.opacities =
          [["0.25"], ["0.5"], ["0.5", "0.75"]] := by
  have plain : ∀ node ∈ fadedNote.nodes, node.shape.debug = false := by
    simp [fadedNote, Element.nodes_eq, Shape.children, Shape.debug]
  have unveiled : ∀ node ∈ fadedNote.nodes, ¬node.IsVeiledArrow := by
    simp [fadedNote, Element.nodes_eq, Shape.children, Element.IsVeiledArrow]
  have opacities : (fadedNote.allVeiled false Defaults.precision).map Veiled.opacities =
      [["0.25"], ["0.5"], ["0.5", "0.75"]] := by
    decide +kernel
  obtain ⟨svg, rendered⟩ : ∃ svg, renderSvg fadedNote .plain = .ok svg :=
    exists_of_isSome_renderSvg (by decide +kernel)
  obtain ⟨picture, drawn, -, -, once⟩ := opacities_count_once_iff plain fadedNote_typed rendered
  have shown := once.mpr unveiled
  refine ⟨fadedNote_typed, plain, svg, picture, rendered, drawn, shown, ?_⟩
  exact (congrArg (List.map Veiled.opacities) shown).trans opacities

/-- An arrow to the right that sets an opacity. -/
noncomputable def fadedArrow : Element ℝ :=
  ⟨.plain, .faded 0.5, .arrow ⟨0, .plain⟩⟩

/-- In exact arithmetic the arrow is drawn. -/
theorem fadedArrow_draws : ∃ picture, Picture.draw fadedArrow .plain = .ok picture := by
  have planned : fadedArrow.layoutAspect = .ok none := by
    rw [Element.layoutAspect, Element.measured_eq]
    rfl
  have width : 0 < (RenderOptions.plain : RenderOptions ℝ).width := by
    norm_num [RenderOptions.plain, Defaults.canvasSize, Scalar.ofScientific_eq]
  have canvas := RenderOptions.canvas_eq_ok width width planned
  have resolved : fadedArrow.resolvedSpec = .ok .plain := by
    rw [Element.resolvedSpec, Element.measured_eq]
    rfl
  have seated : fadedArrow.Everywhere (fun _ e => ∃ aspect, e.layoutAspect = .ok aspect)
      (RenderOptions.plain.context (embed ⟨500.0, 500.0⟩ none false)) :=
    .node ⟨none, planned⟩ resolved rfl (by simp)
  obtain ⟨body, registry, drawn⟩ := seated.drawIn_succeeds (fun _ _ known => known) .empty
  exact ⟨⟨_, registry, body⟩, Picture.draw_eq_ok.mpr ⟨canvas, drawn⟩⟩

/-- The number is written with one decimal. -/
theorem formatNumber_half : formatNumber (0.5 : ℝ) Defaults.precision = "0.5" := by
  have units : nearest (|1 / 2| * 10 ^ 2) = 50 := by
    have magnitude : |(1 / 2 : ℝ)| * 10 ^ 2 = (50 : ℕ) := by
      rw [abs_of_pos (by norm_num)]
      norm_num
    rw [magnitude, nearest]
    simp
  have positive : ¬(1 / 2 : ℝ) < 0 := by
    norm_num
  have digits : NumberText.fixed (1 / 2 : ℝ) Defaults.precision = String.ofList "0.50".toList := by
    show realDecimal _ 2 = _
    rw [realDecimal, units, decide_eq_false positive]
    decide
  rw [Scalar.literal_half, formatNumber, digits]
  decide

/-- The opacity of the arrow stands over its shaft and over its head twice. -/
theorem opacities_count_twice_fadedArrow :
    fadedArrow.EveryStyle Style.IsTyped ∧ (∀ node ∈ fadedArrow.nodes, node.shape.debug = false) ∧
      ∃ svg picture, renderSvg fadedArrow .plain = .ok svg ∧
        Picture.draw fadedArrow .plain = .ok picture ∧
        (picture.veiled Defaults.precision).map Veiled.opacities =
          [["0.5", "0.5"], ["0.5", "0.5"]] ∧
        (fadedArrow.allVeiled false Defaults.precision).map Veiled.opacities =
          [["0.5"], ["0.5"]] := by
  have plain : ∀ node ∈ fadedArrow.nodes, node.shape.debug = false := by
    simp [fadedArrow, Element.nodes_eq, Shape.children, Shape.debug]
  have typed : fadedArrow.EveryStyle Style.IsTyped :=
    Element.everyStyle_leaf rfl (Style.isTyped_faded _)
  have written : (Style.faded (0.5 : ℝ)).opacities Defaults.precision = ["0.5"] :=
    congrArg ([·]) formatNumber_half
  have tree (twice : Bool) :
      (fadedArrow.allVeiled twice Defaults.precision).map Veiled.opacities =
        .replicate 2 (["0.5"] ++ if twice then ["0.5"] else []) := by
    rw [fadedArrow, Element.map_opacities_arrow, written]
  obtain ⟨picture, drawn⟩ := fadedArrow_draws
  have shown := Picture.veiled_eq plain typed drawn
  refine ⟨typed, plain, _, picture, renderSvg_eq_ok.mpr ⟨picture, drawn, rfl⟩, drawn, ?_, ?_⟩
  · exact (congrArg (List.map Veiled.opacities) shown).trans (tree true)
  · exact tree false

end SvgLayout
