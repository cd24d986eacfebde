import Mathlib.Tactic.SplitIfs
import SvgLayout.Proofs.Markup.Attrs
import SvgLayout.Style.Basic

/-!
# Styles with a fallback

A style with a fallback is meant to keep what it sets and to take the rest from the fallback. It
does so field by field, and key by key among the attributes that are added to the typed fields. But
the added attributes of both styles are set after all typed fields. So where a style sets an
attribute only by a typed field and the fallback adds the same key, the fallback wins.

## Main definitions

* `Style.typed?`, `Style.added?` — the value that a style gives to a key by a typed field, and by an
  added attribute.

## Main statements

* `Style.get?_attrs` — an added attribute wins over a typed field.
* `Style.get?_attrs_orElse` — the four places where a value may come from, in their order.
* `Style.orElse_fills_gaps_iff` — when a fallback only fills gaps.
-/

namespace SvgLayout.Style

variable {α : Type}

/-! ## Where values come from -/

section

variable [NumberText α]

/-- The value that a typed field gives to its key. -/
def typed? (style : Style α) (precision : Nat) (key : String) : Option String :=
  if key = "stroke" then style.stroke.map Color.text
  else if key = "fill" then style.fill.map Color.text
  else if key = "stroke-width" then style.strokeWidth.map (formatNumber · precision)
  else if key = "opacity" then style.opacity.map (formatNumber · precision)
  else if key = "stroke-dasharray" then style.dash
  else none

omit [NumberText α] in
/-- The last value that the added attributes give to a key. -/
def added? (style : Style α) (key : String) : Option String :=
  style.extra.reverse.lookup key

theorem lookup_reverse_entry (name : String) (value : Option String) (key : String) :
    (entry name value).reverse.lookup key = if key = name then value else none := by
  cases value with
  | none => by_cases h : key = name <;> simp [entry, h]
  | some v => exact Attrs.lookup_pair (name, v) [] key

/-- An added attribute wins over a typed field. -/
theorem get?_attrs (style : Style α) (precision : Nat) (key : String) :
    (style.attrs precision).get? key = (style.added? key).or (style.typed? precision key) := by
  rw [attrs, Attrs.get?_ofList, entries]
  simp only [List.reverse_append, List.lookup_append, lookup_reverse_entry, typed?]
  rw [added?]
  congr 1
  by_cases stroke : key = "stroke"
  · simp [stroke]
  by_cases fill : key = "fill"
  · simp [fill]
  by_cases width : key = "stroke-width"
  · simp [width]
  by_cases opacity : key = "opacity"
  · simp [opacity]
  · simp [stroke, fill, width, opacity]

omit [NumberText α] in
theorem added?_orElse (style fallback : Style α) (key : String) :
    (style.orElse fallback).added? key = (style.added? key).or (fallback.added? key) := by
  simp only [added?, orElse, List.reverse_append, List.lookup_append]

theorem typed?_orElse (style fallback : Style α) (precision : Nat) (key : String) :
    (style.orElse fallback).typed? precision key =
      (style.typed? precision key).or (fallback.typed? precision key) := by
  simp only [typed?, orElse, Option.map_or]
  split_ifs <;> rfl

/-- A value comes from the added attributes of the style, from those of the fallback, from the typed
fields of the style, and from those of the fallback, in this order. -/
theorem get?_attrs_orElse (style fallback : Style α) (precision : Nat) (key : String) :
    ((style.orElse fallback).attrs precision).get? key =
      ((style.added? key).or (fallback.added? key)).or
        ((style.typed? precision key).or (fallback.typed? precision key)) := by
  rw [get?_attrs, added?_orElse, typed?_orElse]

end

/-! ## Filling gaps -/

/-- Styles are filled up from the left or from the right with the same result. -/
theorem orElse_assoc (a b c : Style α) : (a.orElse b).orElse c = a.orElse (b.orElse c) := by
  simp only [orElse, Option.or_assoc, List.append_assoc]

theorem empty_orElse (style : Style α) : empty.orElse style = style := by
  simp [orElse, empty]

theorem orElse_empty (style : Style α) : style.orElse empty = style := by
  simp [orElse, empty]

/-- The fallback of a value that is set is not asked for, unless it is asked before. -/
theorem or_or_or_eq_iff {β : Type} (a b c d : Option β) :
    (a.or b).or (c.or d) = (a.or c).or (b.or d) ↔ a = none → ∀ x ∈ c, ∀ y ∈ b, x = y := by
  cases a <;> cases b <;> cases c <;> simp [eq_comm]

/-- Filling up styles is associative, with the empty style on either side. The attributes of a style
with a fallback are those of the style where it sets a key and those of the fallback where only the
fallback does, exactly if no other value is added by the fallback to a key that the style sets by a
typed field alone. -/
theorem orElse_fills_gaps_iff [NumberText α] (style fallback : Style α) :
    (∀ last : Style α, (style.orElse fallback).orElse last =
      style.orElse (fallback.orElse last)) ∧
    empty.orElse style = style ∧ style.orElse empty = style ∧
    ∀ (precision : Nat) (key : String),
      ((style.orElse fallback).attrs precision).get? key =
          ((style.attrs precision).get? key).or ((fallback.attrs precision).get? key) ↔
        (style.added? key = none → ∀ own ∈ style.typed? precision key,
          ∀ other ∈ fallback.added? key, own = other) := by
  refine ⟨fun last => orElse_assoc style fallback last, empty_orElse style, orElse_empty style, ?_⟩
  intro precision key
  rw [get?_attrs_orElse, get?_attrs, get?_attrs]
  exact or_or_or_eq_iff _ _ _ _

/-! ## A fallback that does not only fill gaps -/

/-- A style with a red stroke. -/
def redStroke : Style Float :=
  { empty with stroke := some (.named "red") }

/-- A style that adds a blue stroke to its typed fields. -/
def addedBlueStroke : Style Float :=
  { empty with extra := [("stroke", "blue")] }

/-- A red stroke with the other style as its fallback is blue. -/
theorem orElse_overwrites_redStroke :
    (redStroke.attrs 2).get? "stroke" = some "red" ∧
      ((redStroke.orElse addedBlueStroke).attrs 2).get? "stroke" = some "blue" := by
  decide

end SvgLayout.Style
