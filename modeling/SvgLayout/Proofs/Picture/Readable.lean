import SvgLayout.Proofs.Element.Legible
import SvgLayout.Proofs.Element.Links
import SvgLayout.Proofs.Picture.Drawn

/-!
# Documents are read back

The text of a rendered document is read back as the markup that was drawn, and what is read back
mirrors the tree that was rendered: up to pixels it is the sketch of that tree.

## Main definitions

* `Tree.Distinct` — no tag has two attributes of one key.
* `Tree.skeleton` — a tree without the attributes of pixels.
* `documentTrees` — what is read in a document.

## Main statements

* `Primitive.tree_element`, `Element.tree_of_returns_draw` — what is read of a node.
* `readDocument_renderSvg` — a rendered document is read back, and mirrors its tree.
-/

namespace SvgLayout

/-! ## What can be read -/

namespace Tree

mutual

/-- No tag of the tree has two attributes of one key. -/
def Distinct : Tree → Prop
  | text _ => True
  | tag _ attrs content => (attrs.map Prod.fst).Nodup ∧ DistinctAll content

/-- No tag of the trees has two attributes of one key. -/
def DistinctAll : List Tree → Prop
  | [] => True
  | tree :: trees => tree.Distinct ∧ DistinctAll trees

end

theorem distinctAll_iff (trees : List Tree) :
    DistinctAll trees ↔ ∀ tree ∈ trees, tree.Distinct := by
  induction trees with
  | nil => simp [DistinctAll]
  | cons tree trees ih => simp [DistinctAll, ih]

mutual

def skeleton : Tree → Tree
  | text content => text content
  | tag name attrs content => tag name (Attrs.skeleton ⟨attrs⟩).entries (skeletonAll content)

def skeletonAll : List Tree → List Tree
  | [] => []
  | tree :: trees => tree.skeleton :: skeletonAll trees

end

theorem skeletonAll_eq_map (trees : List Tree) : skeletonAll trees = trees.map skeleton := by
  induction trees with
  | nil => rfl
  | cons tree trees ih => rw [skeletonAll, ih, List.map_cons]

end Tree

namespace Content

/-- The trees that are complete have distinct keys. -/
def Distinct (c : Content) : Prop :=
  ∀ tree ∈ c.trees, tree.Distinct

theorem Distinct.close {c : Content} (h : c.Distinct) : ∀ tree ∈ c.close, tree.Distinct := by
  intro tree htree
  rw [Content.close, endText] at htree
  by_cases blank : c.chars.isEmpty = true
  · rw [if_pos blank] at htree
    exact h tree htree
  · rw [if_neg blank, List.mem_append, List.mem_singleton] at htree
    rcases htree with old | rfl
    · exact h tree old
    · rw [Tree.Distinct]
      trivial

theorem Distinct.snoc {c : Content} (h : c.Distinct) {tree : Tree} (ht : tree.Distinct) :
    (c.snoc tree).Distinct := by
  intro other hother
  rw [Content.snoc, List.mem_append, List.mem_singleton] at hother
  rcases hother with old | rfl
  · exact h.close other old
  · exact ht

def skeleton (c : Content) : Content :=
  { c with trees := c.trees.map Tree.skeleton }

theorem close_skeleton (c : Content) : c.skeleton.close = c.close.map Tree.skeleton := by
  rw [close, close, skeleton, endText, endText]
  by_cases blank : c.chars.isEmpty = true
  · simp only [blank, if_true]
  · simp [blank, Tree.skeleton]

theorem snoc_skeleton (c : Content) (tree : Tree) :
    (c.snoc tree).skeleton = c.skeleton.snoc tree.skeleton := by
  rw [snoc, snoc, close_skeleton]
  simp [skeleton]

end Content

namespace Markup

mutual

/-- Legible markup stands for trees with distinct keys. -/
theorem distinct_addTo : ∀ (m : Markup), m.Legible → ∀ (c : Content), c.Distinct →
    (m.addTo c).Distinct
  | .text content, _, c, hc => by
    rw [addTo]
    exact hc
  | .verbatim written, _, c, hc => by
    rw [addTo]
    exact hc
  | .empty name attrs, h, c, hc => by
    rw [Legible] at h
    rw [addTo]
    refine hc.snoc ?_
    rw [Tree.Distinct]
    exact ⟨h.2.distinct, trivial⟩
  | .tag name attrs content, h, c, hc => by
    rw [Legible] at h
    have inside := distinct_addAll content h.2.2 .nil (by simp [Content.Distinct, Content.nil])
    rw [addTo]
    refine hc.snoc ?_
    rw [Tree.Distinct, Tree.distinctAll_iff]
    exact ⟨h.2.1.distinct, inside.close⟩

theorem distinct_addAll : ∀ (pieces : List Markup), LegibleAll pieces → ∀ (c : Content),
    c.Distinct → (addAll pieces c).Distinct
  | [], _, c, hc => by
    rw [addAll]
    exact hc
  | piece :: pieces, h, c, hc => by
    rw [LegibleAll] at h
    rw [addAll]
    exact distinct_addAll pieces h.2 _ (distinct_addTo piece h.1 c hc)

end

theorem distinct_trees {pieces : List Markup} (h : ∀ piece ∈ pieces, piece.Legible) :
    ∀ tree ∈ trees pieces, tree.Distinct :=
  (distinct_addAll pieces ((legibleAll_iff pieces).mpr h) .nil
    (by simp [Content.Distinct, Content.nil])).close

mutual

/-- The skeleton of what a piece of markup stands for is what its skeleton stands for. -/
theorem skeleton_addTo : ∀ (m : Markup) (c : Content),
    (m.addTo c).skeleton = m.skeleton.addTo c.skeleton
  | .text content, c => by
    rw [addTo, skeleton, addTo]
    rfl
  | .verbatim written, c => by
    rw [addTo, skeleton, addTo]
  | .empty name attrs, c => by
    rw [addTo, skeleton, addTo, Content.snoc_skeleton, Tree.skeleton, Tree.skeletonAll]
  | .tag name attrs content, c => by
    have inside := skeleton_addAll content .nil
    have nil : Content.nil.skeleton = .nil := rfl
    rw [addTo, skeleton, addTo, Content.snoc_skeleton, Tree.skeleton, Tree.skeletonAll_eq_map,
      ← Content.close_skeleton, inside, nil]

theorem skeleton_addAll : ∀ (pieces : List Markup) (c : Content),
    (addAll pieces c).skeleton = addAll (skeletonAll pieces) c.skeleton
  | [], c => by
    rw [addAll, skeletonAll, addAll]
  | piece :: pieces, c => by
    rw [addAll, skeletonAll, addAll, ← skeleton_addTo piece c]
    exact skeleton_addAll pieces _

end

theorem map_skeleton_trees (pieces : List Markup) :
    (trees pieces).map Tree.skeleton = trees (pieces.map skeleton) := by
  have nil : Content.nil.skeleton = .nil := rfl
  rw [trees, trees, ← Content.close_skeleton, skeleton_addAll, nil, skeletonAll_eq_map]

end Markup

variable {α : Type} [Scalar α] [NumberText α]

/-! ## Nodes are tags -/

theorem isTag_of_returns_drawTag {kind tag : String} {style : Style α} {ctx : Context α}
    {geometry : Render α Attrs} {content : Render α (Option (List Markup))} {r r' : Registry}
    {m : Markup} (h : (drawTag kind tag style ctx geometry content).Returns r m r') : m.IsTag := by
  obtain ⟨-, attrs, s, c, -, -, rfl⟩ := Render.returns_drawTag.mp h
  exact Markup.isTag_element tag _ c

theorem Element.isTag_of_returns_draw {e : Element α} {ctx : Context α} {r r' : Registry}
    {m : Markup} (h : (e.draw ctx).Returns r m r') : m.IsTag := by
  rw [draw_eq] at h
  exact isTag_of_returns_drawTag h

/-- Children are drawn as tags on lines of their own. -/
theorem drawChildren_isTag (debug : Bool) (ctx : Context α) {children : List (Drawable α)}
    (h : ∀ child ∈ children, ∀ ctx r m r', (child.draw ctx).Returns r m r' → m.IsTag) :
    (drawChildren debug ctx children).Ensures (fun _ => True) fun content =>
      ∃ pieces, (∀ piece ∈ pieces, piece.IsTag) ∧ content = Markup.lines pieces := by
  have each : ∀ child ∈ children,
      (do
        let childCtx ← child.contextIn ctx
        let markup ← child.draw childCtx
        pure (if debug then [markup, debugBox childCtx] else [markup]) :
          Render α (List Markup)).Ensures (fun _ => True)
        fun pieces => ∀ piece ∈ pieces, piece.IsTag := by
    intro child hchild
    have tag : ∀ childCtx, (child.draw childCtx).Ensures (fun _ => True) Markup.IsTag :=
      fun childCtx r m r' _ hm => ⟨h child hchild childCtx r m r' hm, trivial⟩
    refine Render.Ensures.bind (P := fun _ => True) (.lift fun _ _ => trivial) fun childCtx _ => ?_
    refine (tag childCtx).bind fun markup hm => .pure ?_
    have box : (debugBox childCtx).IsTag := trivial
    cases debug with
    | false => simpa using hm
    | true => simpa using ⟨hm, box⟩
  refine (Render.Ensures.mapM each).bind fun drawn tags => .pure ⟨drawn.flatten, ?_, rfl⟩
  intro piece hpiece
  obtain ⟨pieces, hpieces, mem⟩ := List.mem_flatten.mp hpiece
  exact tags pieces hpieces piece mem

omit [NumberText α] in
/-- A single tag is read back with the string of a text in it, or with no content. -/
theorem Primitive.tree_element (p : Primitive α) (attrs : Attrs) :
    (Markup.element p.tag attrs p.content).tree = .tag p.tag attrs.entries
      (match p with
        | .text string _ => if string = "" then [] else [.text string]
        | _ => []) := by
  cases p with
  | text string width => exact congrArg (Tree.tag _ attrs.entries) (Markup.trees_text string)
  | _ => rfl

/-- Any other node is read back with tags in it, and the ends of lines between them. -/
theorem Element.tree_of_returns_draw {e : Element α} (several : e.shape.isPrimitive = false)
    {ctx : Context α} {r r' : Registry} {m : Markup} (h : (e.draw ctx).Returns r m r') :
    ∃ (attrs : List (String × String)) (pieces : List Markup), (∀ piece ∈ pieces, piece.IsTag) ∧
      m.tree = .tag "g" attrs ((pieces.map Markup.tree).intersperse (.text "\n")) := by
  rw [draw_eq, drawableShape] at h
  obtain ⟨-, attrs, s, c, -, hcontent, rfl⟩ := Render.returns_drawTag.mp h
  rw [Shape.content_eq e.spec e.style ctx (by simpa using several)] at hcontent
  obtain ⟨parts, t, hparts, hlines⟩ := Render.returns_bind.mp hcontent
  obtain ⟨drawn, hdrawn, rfl⟩ := Render.returns_map.mp hlines
  have tags : ∀ part ∈ parts, ∀ ctx r m r', (part.draw ctx).Returns r m r' → m.IsTag := by
    refine Shape.forall_parts (P := fun draw => ∀ ctx r m r', (draw ctx).Returns r m r' → m.IsTag)
      (Render.returns_lift.mp hparts).1 ?_ ?_
    · exact fun _ _ _ _ _ _ => isTag_of_returns_drawTag
    · intro child hchild
      rw [Shape.placed_map] at hchild
      obtain ⟨below, -, rfl⟩ := List.mem_map.mp hchild
      exact fun _ _ _ _ => isTag_of_returns_draw
  obtain ⟨⟨pieces, each, rfl⟩, -⟩ := drawChildren_isTag _ ctx tags trivial hdrawn
  have group : (e.shape.map drawable).tag = "g" := by
    rw [Shape.tag_map]
    cases shape : e.shape <;> simp [shape, Shape.isPrimitive, Shape.tag] at several ⊢
  exact ⟨_, pieces, each, by rw [group]; exact Markup.tree_tag_lines "g" _ each⟩

/-- What defines an identifier is a tag. -/
theorem Markup.isTag_of_id? {m : Markup} {id : String} (h : m.id? = some id) : m.IsTag := by
  cases m with
  | text content => simp [id?] at h
  | verbatim written => simp [id?] at h
  | _ => trivial

theorem Markup.IsTag.skeleton {m : Markup} (h : m.IsTag) : m.skeleton.IsTag := by
  cases m with
  | text content => exact h.elim
  | verbatim written => exact h.elim
  | _ =>
    rw [Markup.skeleton]
    trivial

/-- The body and the definitions of a picture are tags. -/
theorem Picture.isTag {root : Element α} {options : RenderOptions α} {picture : Picture α}
    (h : Picture.draw root options = .ok picture) :
    picture.body.IsTag ∧ ∀ definition ∈ picture.registry.defs, definition.IsTag := by
  obtain ⟨-, hdraw⟩ := Picture.draw_eq_ok.mp h
  constructor
  · obtain ⟨ctx, s, -, drawn⟩ := Render.returns_bind.mp hdraw
    exact Element.isTag_of_returns_draw drawn
  · obtain ⟨begun, -, ⟨defs, -, eq, defined⟩, -⟩ :=
      drawIn_grows (d := root.drawable) root.draw_grows (options.context picture.canvas) .empty
    have outcome : (root.drawable.drawIn (options.context picture.canvas)).outcome .empty =
      (.ok picture.body, picture.registry) := hdraw
    rw [outcome] at eq
    have defs_eq : picture.registry.defs = defs := eq
    intro definition mem
    rw [defs_eq] at mem
    obtain ⟨id, -, named⟩ := List.mem_map.mp (defined.subset (List.mem_map_of_mem mem))
    exact Markup.isTag_of_id? named.symm

/-! ## Documents -/

omit [Scalar α] in
theorem legible_documentAttrs (size : Size α) (precision : Nat) :
    (documentAttrs size precision).Legible := by
  refine Attrs.legible_ofList ?_
  simp only [List.map_cons, List.map_nil]
  decide

/-- The content of a document is legible if its definitions and its body are. -/
theorem legible_documentContent {registry : Registry} {body : Markup} (hr : registry.Legible)
    (hb : body.Legible) : ∀ piece ∈ documentContent registry body, piece.Legible := by
  have block : ∀ piece ∈ definitionBlock registry.defs, piece.Legible := by
    cases hd : registry.defs with
    | nil => simp [definitionBlock]
    | cons first rest =>
      have defs : ∀ piece ∈ .newline :: (first :: rest).flatMap (fun d => [d, .newline]),
          piece.Legible := by
        intro piece hpiece
        rw [List.mem_cons, List.mem_flatMap] at hpiece
        rcases hpiece with rfl | ⟨d, hmem, hpiece⟩
        · exact Markup.legible_newline
        · rw [← hd] at hmem
          simp only [List.mem_cons, List.not_mem_nil, or_false] at hpiece
          rcases hpiece with rfl | rfl
          · exact hr _ hmem
          · exact Markup.legible_newline
      have tag := Markup.legible_tag.mpr
        ⟨show IsName "defs" by decide, Attrs.legible_empty, defs⟩
      simpa [definitionBlock] using ⟨tag, Markup.legible_newline⟩
  intro piece hpiece
  simp only [documentContent, List.cons_append, List.mem_cons, List.mem_append, List.not_mem_nil,
    or_false] at hpiece
  rcases hpiece with rfl | hpiece | rfl | rfl
  · exact Markup.legible_newline
  · exact block piece hpiece
  · exact hb
  · exact Markup.legible_newline

theorem map_skeleton_documentContent (registry : Registry) (body : Markup) :
    (documentContent registry body).map Markup.skeleton =
      documentContent registry.skeleton body.skeleton := by
  have line : Markup.newline.skeleton = .newline := Markup.skeleton_text "\n"
  have block : (definitionBlock registry.defs).map Markup.skeleton =
      definitionBlock (registry.defs.map Markup.skeleton) := by
    cases registry.defs with
    | nil => rfl
    | cons first rest =>
      simp [definitionBlock, line, List.map_flatMap, List.flatMap_map]
  simp [documentContent, line, block]

/-- The body and the definitions of a picture are legible if the keys that styles add are names. -/
theorem Picture.legible {root : Element α} {options : RenderOptions α} {picture : Picture α}
    (named : root.EveryStyle Style.Named) (h : Picture.draw root options = .ok picture) :
    picture.body.Legible ∧ picture.registry.Legible := by
  obtain ⟨-, hdraw⟩ := Picture.draw_eq_ok.mp h
  have start : Registry.empty.Legible := by simp [Registry.Legible, Registry.empty]
  exact ensures_drawIn (d := root.drawable) (Element.legible_draw named) _ start hdraw

/-- What is read in a document: the definitions, if there are any, and the body, each on lines of
their own. -/
def documentTrees (registry : Registry) (body : Markup) : List Tree :=
  .text "\n" ::
    ((if registry.defs.isEmpty then [] else
      [.tag "defs" []
        (.text "\n" :: registry.defs.flatMap fun definition => [definition.tree, .text "\n"]),
       .text "\n"]) ++
    [body.tree, .text "\n"])

theorem trees_documentContent {registry : Registry} {body : Markup} (hb : body.IsTag)
    (hr : ∀ definition ∈ registry.defs, definition.IsTag) :
    Markup.trees (documentContent registry body) = documentTrees registry body := by
  let block := Markup.tag "defs" .empty
    (.newline :: registry.defs.flatMap fun definition => [definition, .newline])
  have line : Markup.newline.addTo .nil = ⟨[], ['\n']⟩ := rfl
  have inside : block.tree = .tag "defs" []
      (.text "\n" :: registry.defs.flatMap fun definition => [definition.tree, .text "\n"]) := by
    simp only [block]
    rw [Markup.tree, Markup.trees, Markup.addAll, Markup.close_eachLine hr, line]
    rfl
  let blocks := if registry.defs.isEmpty then [] else [block]
  have tags : ∀ piece ∈ blocks ++ [body], piece.IsTag := by
    have defs : block.IsTag := trivial
    cases bare : registry.defs.isEmpty <;> simp [blocks, bare, hb, defs]
  have content : documentContent registry body =
      .newline :: (blocks ++ [body]).flatMap fun piece => [piece, .newline] := by
    cases hd : registry.defs <;> simp [documentContent, definitionBlock, blocks, block, hd]
  rw [content, Markup.trees, Markup.addAll, Markup.close_eachLine tags, line, documentTrees,
    ← inside]
  cases bare : registry.defs.isEmpty <;> simp [blocks, bare, Content.close, endText]

/-- A rendered document is read back as one `svg` tag with all attributes and all content that were
drawn. No tag has a key twice, and up to pixels the tags that are read are those of the sketch of
the rendered tree. -/
theorem readDocument_renderSvg {root : Element α} {options : RenderOptions α} {svg : String}
    (named : root.EveryStyle Style.Named) (h : renderSvg root options = .ok svg) :
    ∃ picture tree, Picture.draw root options = .ok picture ∧ readDocument svg = some tree ∧
      tree = .tag "svg" (documentAttrs picture.canvas options.precision).entries
        (documentTrees picture.registry picture.body) ∧
      tree.Distinct ∧
      let sketch := (root.sketch options.precision).run .empty
      tree.skeleton = .tag "svg" (documentAttrs picture.canvas options.precision).skeleton.entries
        (documentTrees sketch.2 sketch.1) := by
  obtain ⟨picture, hdraw, rfl⟩ := renderSvg_eq_ok.mp h
  obtain ⟨hbody, hdefs⟩ := Picture.legible named hdraw
  have attrs := legible_documentAttrs picture.canvas options.precision
  have content := legible_documentContent hdefs hbody
  obtain ⟨body, defs⟩ := Picture.isTag hdraw
  have trees := trees_documentContent body defs
  refine ⟨picture, _, hdraw, ?_, rfl, ?_, ?_⟩
  · rw [← trees]
    exact Markup.readDocument_write (Markup.legible_tag.mpr ⟨by decide, attrs, content⟩)
  · rw [Tree.Distinct, Tree.distinctAll_iff, ← trees]
    exact ⟨attrs.distinct, Markup.distinct_trees content⟩
  · have defs' : ∀ definition ∈ picture.registry.skeleton.defs, definition.IsTag := by
      intro definition mem
      obtain ⟨drawn, hdrawn, rfl⟩ := List.mem_map.mp mem
      exact (defs drawn hdrawn).skeleton
    rw [Picture.sketch_run hdraw, Tree.skeleton, Tree.skeletonAll_eq_map, ← trees,
      Markup.map_skeleton_trees, map_skeleton_documentContent,
      trees_documentContent body.skeleton defs']

/-- A document with escaped characters in a text and in an attribute is read back with both as they
were given. -/
theorem readDocument_maskedNote :
    maskedNote.EveryStyle Style.Named ∧ ∃ svg picture tree,
      renderSvg maskedNote .plain = .ok svg ∧ Picture.draw maskedNote .plain = .ok picture ∧
      readDocument svg = some tree ∧
      tree = .tag "svg" (documentAttrs picture.canvas Defaults.precision).entries
        (documentTrees picture.registry picture.body) ∧ tree.Distinct ∧
      tree.skeleton = .tag "svg" (documentAttrs picture.canvas Defaults.precision).skeleton.entries
        [.text "\n",
         .tag "defs" []
          [.text "\n", .tag "clipPath" [("id", "clip-0")] [.tag "rect" [] []],
           .text "\n", .tag "mask" [("id", "mask-1")] [.tag "ellipse" [] []], .text "\n"],
         .text "\n",
         .tag "g" [("clip-path", "url(#clip-0)"), ("mask", "url(#mask-1)")]
          [.tag "text"
            [("text-anchor", "middle"), ("dominant-baseline", "central"),
             ("data-note", "it's <new>")]
            [.text "a < b & \"c\""]],
         .text "\n"] := by
  have key : IsName "data-note" := by decide
  have named : maskedNote.EveryStyle Style.Named :=
    maskedNote_everyStyle (by simp [Style.Named, Style.empty]) (by simp [Style.Named, key])
  obtain ⟨svg, h⟩ := maskedNote_renders
  obtain ⟨picture, tree, hdraw, hread, htree, hdistinct, mirrored⟩ :=
    readDocument_renderSvg named h
  exact ⟨named, svg, picture, tree, h, hdraw, hread, htree, hdistinct, mirrored⟩

end SvgLayout
