import SvgLayout.Proofs.Element.Every
import SvgLayout.Proofs.Element.Parts
import SvgLayout.Proofs.Markup.Attrs
import SvgLayout.Proofs.Markup.RoundTrip
import SvgLayout.Proofs.Render.Outcome

/-!
# What is drawn can be read

Every tag that is drawn has a name, its keys are names as well, and no key stands twice, provided
that the keys that styles add are names. This holds inside definitions, masks and debug outlines
just as in the body.

## Main definitions

* `Style.Named` — all keys that a style adds are names.

## Main statements

* `Element.legible_draw` — drawing a tree gives legible markup and keeps definitions legible.
-/

namespace SvgLayout

/-! ## Attributes -/

instance (name : String) : Decidable (IsName name) :=
  decidable_of_iff (name.toList.isEmpty = false ∧ name.toList.all isNameChar = true)
    (by simp [IsName])

namespace Attrs

theorem legible_empty : empty.Legible :=
  ⟨by simp, by simp⟩

theorem Legible.setAll {attrs : Attrs} (h : attrs.Legible) {pairs : List (String × String)}
    (hp : ∀ key ∈ pairs.map Prod.fst, IsName key) : (attrs.setAll pairs).Legible := by
  constructor
  · intro entry hentry
    have hkey : entry.1 ∈ (attrs.setAll pairs).keys := List.mem_map_of_mem hentry
    rcases mem_keys_setAll.mp hkey with old | new
    · obtain ⟨other, hother, eq⟩ := List.mem_map.mp old
      rw [← eq]
      exact h.names other hother
    · exact hp _ new
  · exact nodup_keys_setAll h.distinct pairs

/-- Attributes made from pairs whose keys are names are legible. -/
theorem legible_ofList {pairs : List (String × String)}
    (hp : ∀ key ∈ pairs.map Prod.fst, IsName key) : (ofList pairs).Legible :=
  legible_empty.setAll hp

theorem Legible.merge {attrs other : Attrs} (h : attrs.Legible) (ho : other.Legible) :
    (attrs.merge other).Legible := by
  refine h.setAll ?_
  intro key hkey
  obtain ⟨entry, hentry, rfl⟩ := List.mem_map.mp hkey
  exact ho.names entry hentry

end Attrs

namespace Markup

theorem legible_newline : newline.Legible := by
  rw [newline, Legible]
  trivial

theorem legible_empty {name : String} {attrs : Attrs} :
    (empty name attrs).Legible ↔ IsName name ∧ attrs.Legible := by
  rw [Legible]

theorem legible_tag {name : String} {attrs : Attrs} {content : List Markup} :
    (tag name attrs content).Legible ↔
      IsName name ∧ attrs.Legible ∧ ∀ piece ∈ content, piece.Legible := by
  rw [Legible, legibleAll_iff]

theorem legible_element {name : String} {attrs : Attrs} {content : Option (List Markup)}
    (hn : IsName name) (ha : attrs.Legible)
    (hc : ∀ pieces ∈ content, ∀ piece ∈ pieces, piece.Legible) :
    (element name attrs content).Legible := by
  cases content with
  | none => exact legible_empty.mpr ⟨hn, ha⟩
  | some pieces => exact legible_tag.mpr ⟨hn, ha, hc pieces rfl⟩

theorem mem_lines : ∀ {pieces : List Markup} {piece : Markup}, piece ∈ lines pieces →
    piece = newline ∨ piece ∈ pieces
  | [], _, h => by simp [lines] at h
  | [_], _, h => .inr h
  | first :: second :: pieces, piece, h => by
    rw [lines, List.intersperse_cons_cons, List.mem_cons, List.mem_cons] at h
    rcases h with rfl | rfl | h
    · exact .inr List.mem_cons_self
    · exact .inl rfl
    · have ih : piece = newline ∨ piece ∈ second :: pieces := mem_lines h
      exact ih.imp_right (List.mem_cons_of_mem first)

end Markup

variable {α : Type} [Scalar α] [NumberText α]

/-! ## Styles and shapes -/

omit [Scalar α] [NumberText α] in
/-- All keys that a style adds are names. -/
def Style.Named (style : Style α) : Prop :=
  ∀ entry ∈ style.extra, IsName entry.1

omit [Scalar α] in
theorem Style.legible_attrs {style : Style α} (h : style.Named) (precision : Nat) :
    (style.attrs precision).Legible := by
  refine ⟨?_, Attrs.nodup_keys_ofList _⟩
  intro entry hentry
  have typed : ∀ key ∈ styleKeys, IsName key := by decide
  rcases Style.mem_keys_attrs (List.mem_map_of_mem hentry) with known | added
  · exact typed _ known
  · obtain ⟨other, hother, eq⟩ := List.mem_map.mp added
    rw [← eq]
    exact h other hother

theorem Context.legible_boxEntries (ctx : Context α) :
    ∀ key ∈ ctx.boxEntries.map Prod.fst, IsName key := by
  simp only [boxEntries, List.map_cons, List.map_nil]
  decide

theorem Primitive.legible_attrs (style : Style α) (ctx : Context α) (p : Primitive α) :
    (p.attrs style ctx).Legible := by
  refine Attrs.legible_ofList ?_
  cases p with
  | rectangle rounded =>
    rw [entries]
    cases roundedCorners rounded with
    | none => exact ctx.legible_boxEntries
    | some corners =>
      simp only [List.map_cons, List.map_nil]
      decide
  | arrowHead direction head =>
    rw [entries, headFill]
    by_cases closed : (head.base && style.fill.isNone) = true
    · simp only [if_pos closed, List.map_append, List.map_cons, List.map_nil]
      decide
    · simp only [if_neg closed, List.map_append, List.map_cons, List.map_nil]
      decide
  | ellipse | line | polyline | spline | text =>
    simp only [entries, List.map_cons, List.map_nil]
    decide

/-- The names of all tags that nodes are drawn as. -/
def nodeTags : List String :=
  ["path", "rect", "ellipse", "line", "polygon", "polyline", "text", "g"]

omit [NumberText α] in
theorem Shape.tag_mem {ε : Type} (shape : Shape α ε) : shape.tag ∈ nodeTags := by
  cases shape with
  | primitive p =>
    cases p with
    | rectangle rounded =>
      cases h : (roundedCorners rounded).isSome <;> simp [tag, Primitive.tag, nodeTags, h]
    | polyline points closed => cases closed <;> simp [tag, Primitive.tag, nodeTags]
    | _ => simp [tag, Primitive.tag, nodeTags]
  | _ => simp [tag, nodeTags]

omit [NumberText α] in
theorem Shape.isName_tag {ε : Type} (shape : Shape α ε) : IsName shape.tag := by
  have names : ∀ name ∈ nodeTags, IsName name := by decide
  exact names _ shape.tag_mem

theorem debugBox_legible (ctx : Context α) : (debugBox ctx).Legible := by
  refine Markup.legible_empty.mpr ⟨by decide, Attrs.legible_ofList ?_⟩
  intro key hkey
  simp only [List.map_append, List.mem_append] at hkey
  rcases hkey with (hkey | hkey) | hkey
  · exact ctx.legible_boxEntries key hkey
  · revert key
    simp only [List.map_cons, List.map_nil]
    decide
  · cases turn : ctx.transform? with
    | none => simp [turn] at hkey
    | some t =>
      have name : IsName "transform" := by decide
      rw [turn] at hkey
      rw [List.mem_singleton.mp hkey]
      exact name

/-! ## Drawings -/

def Registry.Legible (r : Registry) : Prop :=
  ∀ definition ∈ r.defs, definition.Legible

theorem Registry.Legible.define {r : Registry} (h : r.Legible) {definition : Markup}
    (hd : definition.Legible) : (r.define definition).Legible := by
  intro piece hpiece
  rw [defs_define, List.mem_append, List.mem_singleton] at hpiece
  rcases hpiece with old | rfl
  · exact h piece old
  · exact hd

/-- In every context the node is drawn as legible markup, and its definitions are legible. -/
def DrawsLegible (draw : Context α → Render α Markup) : Prop :=
  ∀ ctx, (draw ctx).Ensures Registry.Legible Markup.Legible

open Render in
omit [Scalar α] [NumberText α] in
theorem ensures_newId (stem : String) :
    (newId stem : Render α String).Ensures Registry.Legible fun _ => True := by
  intro r id r' hr hid
  obtain ⟨-, rfl⟩ := returns_newId.mp hid
  exact ⟨trivial, hr⟩

open Render in
omit [Scalar α] [NumberText α] in
theorem ensures_addDefinition {definition : Markup} (h : definition.Legible) :
    (addDefinition definition : Render α Unit).Ensures Registry.Legible fun _ => True := by
  intro r u r' hr hu
  rw [returns_addDefinition.mp hu]
  exact ⟨trivial, hr.define h⟩

omit [Scalar α] in
theorem legible_nodeEntries {style : Style α} (hs : style.Named) (ctx : Context α) {attrs : Attrs}
    (ha : attrs.Legible) : (Render.nodeEntries style ctx attrs).Legible := by
  refine (ha.merge (style.legible_attrs hs _)).setAll ?_
  cases ctx.transform? with
  | none => simp
  | some t =>
    have name : IsName "transform" := by decide
    simpa using name

/-- A tag of a legible geometry and legible content is legible. -/
theorem ensures_drawTag {kind tag : String} {style : Style α} {ctx : Context α}
    {geometry : Render α Attrs} {content : Render α (Option (List Markup))} (hn : IsName tag)
    (hs : style.Named) (hg : geometry.Ensures Registry.Legible Attrs.Legible)
    (hc : content.Ensures Registry.Legible fun c => ∀ pieces ∈ c, ∀ piece ∈ pieces, piece.Legible) :
    (drawTag kind tag style ctx geometry content).Ensures Registry.Legible Markup.Legible := by
  intro r m r' hr hm
  obtain ⟨-, attrs, s, c, hattrs, hcontent, rfl⟩ := Render.returns_drawTag.mp hm
  obtain ⟨ha, hs'⟩ := hg hr hattrs
  obtain ⟨hpieces, hr'⟩ := hc hs' hcontent
  exact ⟨Markup.legible_element hn (legible_nodeEntries hs ctx ha) hpieces, hr'⟩

theorem Primitive.drawsLegible {style : Style α} (hs : style.Named) (p : Primitive α) :
    DrawsLegible (p.draw style) := by
  intro ctx
  have hn : IsName p.tag := Shape.isName_tag (ε := Unit) (.primitive p)
  refine ensures_drawTag hn hs (.pure (p.legible_attrs style ctx)) (.pure ?_)
  cases p <;> simp [content, Markup.Legible]

omit [NumberText α] in
theorem ensures_drawIn {d : Drawable α} (h : DrawsLegible d.draw) (ctx : Context α) :
    (d.drawIn ctx).Ensures Registry.Legible Markup.Legible :=
  Render.Ensures.bind (.lift fun _ _ => trivial) fun childCtx _ => h childCtx

/-- Legible children are drawn as legible pieces, with their outlines. -/
theorem ensures_drawChildren (debug : Bool) (ctx : Context α) {children : List (Drawable α)}
    (h : ∀ child ∈ children, DrawsLegible child.draw) :
    (drawChildren debug ctx children).Ensures Registry.Legible fun pieces =>
      ∀ piece ∈ pieces, piece.Legible := by
  have each : ∀ child ∈ children,
      (do
        let childCtx ← child.contextIn ctx
        let markup ← child.draw childCtx
        pure (if debug then [markup, debugBox childCtx] else [markup]) :
          Render α (List Markup)).Ensures Registry.Legible
        fun pieces => ∀ piece ∈ pieces, piece.Legible := by
    intro child hchild
    refine Render.Ensures.bind (.lift fun _ _ => trivial) fun childCtx _ => ?_
    refine (h child hchild childCtx).bind fun markup hm => .pure ?_
    cases debug with
    | false => simpa using hm
    | true => simpa using ⟨hm, debugBox_legible childCtx⟩
  refine (Render.Ensures.mapM each).bind fun drawn hd => .pure ?_
  intro piece hpiece
  rcases Markup.mem_lines hpiece with rfl | hpiece
  · exact Markup.legible_newline
  · obtain ⟨pieces, hpieces, mem⟩ := List.mem_flatten.mp hpiece
    exact hd pieces hpieces piece mem

/-! ## Groups -/

namespace Group

theorem ensures_clipEntry (ctx : Context α) :
    (clipEntry ctx).Ensures Registry.Legible fun entry => IsName entry.1 := by
  refine (ensures_newId "clip").bind fun id _ => ?_
  have box : (Markup.empty "rect" (.ofList ctx.boxEntries)).Legible :=
    Markup.legible_empty.mpr ⟨by decide, Attrs.legible_ofList ctx.legible_boxEntries⟩
  have key : ∀ key ∈ [("id", id)].map Prod.fst, IsName key :=
    show ∀ key ∈ ["id"], IsName key by decide
  have clip := Markup.legible_tag.mpr
    ⟨show IsName "clipPath" by decide, Attrs.legible_ofList key, List.forall_mem_singleton.mpr box⟩
  exact (ensures_addDefinition clip).bind fun _ _ => .pure (show IsName "clip-path" by decide)

omit [NumberText α] in
theorem ensures_maskEntry {mask : Drawable α} (h : DrawsLegible mask.draw) (ctx : Context α) :
    (maskEntry mask ctx).Ensures Registry.Legible fun entry => IsName entry.1 := by
  refine (ensures_newId "mask").bind fun id _ => ?_
  refine (ensures_drawIn h ctx).bind fun body hbody => ?_
  have key : ∀ key ∈ [("id", id)].map Prod.fst, IsName key :=
    show ∀ key ∈ ["id"], IsName key by decide
  have definition := Markup.legible_tag.mpr
    ⟨show IsName "mask" by decide, Attrs.legible_ofList key, List.forall_mem_singleton.mpr hbody⟩
  exact (ensures_addDefinition definition).bind fun _ _ => .pure (show IsName "mask" by decide)

theorem ensures_attrs {group : Group (Drawable α)} (h : ∀ mask ∈ group.mask, DrawsLegible mask.draw)
    (ctx : Context α) : (group.attrs ctx).Ensures Registry.Legible Attrs.Legible := by
  have clip : (group.clipEntries ctx).Ensures Registry.Legible
      fun entries => ∀ entry ∈ entries, IsName entry.1 := by
    rw [clipEntries]
    by_cases hc : group.clip = true
    · rw [if_pos hc]
      exact (ensures_clipEntry ctx).map fun entry he => List.forall_mem_singleton.mpr he
    · rw [if_neg hc]
      exact .pure (by simp)
  have mask : (group.maskEntries ctx).Ensures Registry.Legible
      fun entries => ∀ entry ∈ entries, IsName entry.1 := by
    rw [maskEntries]
    cases hm : group.mask with
    | none => exact .pure (by simp)
    | some mask =>
      exact (ensures_maskEntry (h mask hm) ctx).map fun entry he => List.forall_mem_singleton.mpr he
  rw [attrs_eq]
  refine clip.bind fun clips hclips => mask.bind fun masks hmasks => .pure ?_
  refine Attrs.legible_ofList fun key hkey => ?_
  obtain ⟨entry, hentry, rfl⟩ := List.mem_map.mp hkey
  exact (List.mem_append.mp hentry).elim (hclips entry) (hmasks entry)

end Group

/-! ## Nodes -/

omit [NumberText α] in
theorem Shape.named_trim {ε : Type} {style : Style α} (hs : style.Named) (ctx : Context α)
    (shape : Shape α ε) : ∀ trim ∈ shape.trim style ctx, trim.1.Named := by
  intro trim htrim
  rcases shape.extra_trim style ctx trim htrim with eq | bare
  · rw [Style.Named, eq]
    exact hs
  · simp [Style.Named, bare]

/-- A node is drawn as legible markup if its children are. -/
theorem Shape.drawsLegible {spec : Spec α} {style : Style α} (hs : style.Named)
    {shape : Shape α (Drawable α)} (h : ∀ child ∈ shape.children, DrawsLegible child.draw) :
    DrawsLegible (shape.draw spec style) := by
  intro ctx
  rw [Shape.children_eq] at h
  have placed : ∀ child ∈ shape.placed, DrawsLegible child.draw :=
    fun child hc => h child (List.mem_append_right _ hc)
  refine ensures_drawTag shape.isName_tag hs ?_ ?_
  · cases shape with
    | primitive p => exact .pure (p.legible_attrs style ctx)
    | group g =>
      refine Group.ensures_attrs ?_ ctx
      intro mask hm
      exact h mask (List.mem_append_left _ (Option.mem_toList.mpr hm))
    | _ => exact .pure Attrs.legible_empty
  · by_cases hp : shape.isPrimitive = true
    · cases shape with
      | primitive p =>
        refine .pure ?_
        cases p <;> simp [Primitive.content, Markup.Legible]
      | _ => simp [isPrimitive] at hp
    · rw [Bool.not_eq_true] at hp
      rw [content_eq spec style ctx hp]
      refine Render.Ensures.bind (P := fun parts => ∀ part ∈ parts, DrawsLegible part.draw)
        (.lift fun parts hparts => ?_) fun parts hparts => ?_
      · refine forall_parts hparts ?_ placed
        intro trim htrim
        exact trim.2.drawsLegible (shape.named_trim hs ctx trim htrim)
      · exact (ensures_drawChildren shape.debug ctx hparts).map fun pieces hp => by simpa using hp

/-- A tree whose styles only add names is drawn as legible markup, with legible definitions. -/
theorem Element.legible_draw {e : Element α} (h : e.EveryStyle Style.Named) :
    DrawsLegible e.draw := by
  have node : Hereditary fun e : Element α => e.EveryStyle Style.Named → DrawsLegible e.draw := by
    intro e ih h
    obtain ⟨hs, hc⟩ := everyStyle_iff.mp h
    rw [draw_eq]
    refine Shape.drawsLegible hs ?_
    intro child hchild
    rw [drawableShape, Shape.children_map] at hchild
    obtain ⟨c, hmem, rfl⟩ := List.mem_map.mp hchild
    exact ih c hmem (hc c hmem)
  exact induction_on node e h

end SvgLayout
