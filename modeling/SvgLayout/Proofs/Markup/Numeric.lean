import SvgLayout.Element.Primitive
import SvgLayout.Proofs.Markup.Skeleton
import SvgLayout.Proofs.Path.Finite

/-!
# Numbers in markup

A number that is not finite has a text with letters, `NaN` or `inf`. Two of these letters stand in
no other text that pixels are written with: neither in the commands of a path nor in the name of a
rotation. So the value of an attribute shows whether all numbers in it are finite.

## Main definitions

* `IsNumeric` — a text in which no number is `NaN` or `inf`.
* `NumberText.Spells` — numbers are written like this.
* `Attrs.ShowsNumbers`, `Markup.ShowsNumbers` — the attributes of geometry show finite numbers.

## Main statements

* `isNumeric_formatNumber`, `isNumeric_pathText`, `isNumeric_turnText` — the texts of pixels.
* `Attrs.showsNumbers_ofList`, `Attrs.showsNumbers_setAll` — attributes that are set.
-/

namespace SvgLayout

/-! ## Texts -/

/-- The text has none of the letters that only stand in `NaN` and in `inf`. -/
def IsNumeric (text : String) : Prop :=
  'N' ∉ text.toList ∧ 'f' ∉ text.toList

instance : DecidablePred IsNumeric := fun _ =>
  inferInstanceAs (Decidable (_ ∧ _))

/-- Numbers whose decimals have those letters exactly if they are not finite. -/
class NumberText.Spells (α : Type) [Scalar α] [NumberText α] : Prop where
  isNumeric_fixed : ∀ (x : α) (places : Nat),
    IsNumeric (NumberText.fixed x places) ↔ Scalar.isFinite x = true

theorem isNumeric_append {s t : String} : IsNumeric (s ++ t) ↔ IsNumeric s ∧ IsNumeric t := by
  simp only [IsNumeric, String.toList_append, List.mem_append, not_or, and_and_and_comm]

theorem isNumeric_intercalate {separator : String} (h : IsNumeric separator)
    (texts : List String) :
    IsNumeric (separator.intercalate texts) ↔ ∀ text ∈ texts, IsNumeric text := by
  induction texts with
  | nil => simp [IsNumeric]
  | cons text texts ih =>
    cases texts with
    | nil => simp
    | cons next texts =>
      rw [String.intercalate_cons_cons, isNumeric_append, isNumeric_append, ih,
        List.forall_mem_cons (a := text)]
      simp only [h, and_true]

theorem mem_dropTrailing {c d : Char} (h : d ≠ c) {text : List Char} :
    d ∈ dropTrailing c text ↔ d ∈ text := by
  have dropped : ∀ cs : List Char, d ∈ cs.dropWhile (· == c) ↔ d ∈ cs := by
    intro cs
    induction cs with
    | nil => rfl
    | cons x cs ih =>
      by_cases eq : x = c
      · subst eq
        rw [List.dropWhile_cons_of_pos (by simp), ih, List.mem_cons, or_iff_right h]
      · rw [List.dropWhile_cons_of_neg (by simpa using eq)]
  rw [dropTrailing, List.mem_reverse, dropped, List.mem_reverse]

/-- Letters are not left out of a decimal. -/
theorem mem_trimDecimal {d : Char} (h : d ∉ ['.', '0', '-']) {text : List Char} :
    d ∈ trimDecimal text ↔ d ∈ text := by
  simp only [List.mem_cons, List.not_mem_nil, or_false, not_or] at h
  obtain ⟨point, zero, minus⟩ := h
  have trimmed : d ∈ (if '.' ∈ text then dropTrailing '.' (dropTrailing '0' text) else text) ↔
      d ∈ text := by
    split
    · rw [mem_dropTrailing point, mem_dropTrailing zero]
    · rfl
  rw [trimDecimal]
  by_cases negativeZero :
      (if '.' ∈ text then dropTrailing '.' (dropTrailing '0' text) else text) = ['-', '0']
  · rw [if_pos negativeZero, ← trimmed, negativeZero]
    simp [zero, minus]
  · rw [if_neg negativeZero, trimmed]

section

variable {α : Type} [Scalar α] [NumberText α] [NumberText.Spells α]

/-- The text of a number has no letters exactly if it is finite. -/
theorem isNumeric_formatNumber {x : α} {precision : Nat} :
    IsNumeric (formatNumber x precision) ↔ Scalar.isFinite x = true := by
  rw [← NumberText.Spells.isNumeric_fixed x precision]
  simp only [IsNumeric, formatNumber, String.toList_ofList]
  rw [mem_trimDecimal (by decide), mem_trimDecimal (by decide)]

theorem isNumeric_pointText {p : Point α} {precision : Nat} :
    IsNumeric (PathCommand.pointText precision p) ↔ p.IsFinite := by
  have comma : IsNumeric "," := by decide
  simp only [PathCommand.pointText, isNumeric_append, isNumeric_formatNumber, comma, and_true,
    Point.IsFinite]

/-- The text of a command shows whether its numbers are finite. -/
theorem isNumeric_commandText {command : PathCommand α} {precision : Nat} :
    IsNumeric (command.text precision) ↔ command.IsFinite := by
  have letters : IsNumeric "M" ∧ IsNumeric "L" ∧ IsNumeric "A" ∧ IsNumeric "Q" ∧ IsNumeric "C" ∧
      IsNumeric "Z" ∧ IsNumeric " " := by decide
  have flag (b : Bool) : IsNumeric (PathCommand.flagText b) := by cases b <;> decide
  cases command <;>
    simp only [PathCommand.text, PathCommand.IsFinite, isNumeric_append, isNumeric_pointText,
      isNumeric_formatNumber, letters, flag, and_true, true_and, and_assoc]

/-- The text of a path shows whether its numbers are finite. -/
theorem isNumeric_pathText {path : Path α} {precision : Nat} :
    IsNumeric (path.text precision) ↔ path.IsFinite := by
  rw [Path.text, isNumeric_intercalate (by decide), List.forall_mem_map]
  exact forall₂_congr fun _ _ => isNumeric_commandText

theorem isNumeric_pointsText {ctx : Context α} {points : List (NudgedPoint α)} :
    IsNumeric (pointsText ctx points) ↔ ∀ p ∈ points, (ctx.mapPoint p).IsFinite := by
  rw [pointsText, isNumeric_intercalate (by decide), List.forall_mem_map]
  exact forall₂_congr fun _ _ => isNumeric_pointText

/-- The text of a rotation shows whether its angle and its centre are finite. -/
theorem isNumeric_turnText {turn : Turn α} {precision : Nat} :
    IsNumeric (turn.text precision) ↔
      Scalar.isFinite turn.degrees = true ∧ turn.about.IsFinite := by
  have words : IsNumeric "rotate(" ∧ IsNumeric " " ∧ IsNumeric ")" := by decide
  simp only [Turn.text, isNumeric_append, isNumeric_formatNumber, words, and_true, true_and,
    and_assoc, Point.IsFinite]

end

/-! ## Attributes -/

/-- The attributes whose values are written with pixels. -/
def geometryKeys : List String :=
  "viewBox" :: pixelKeys

/-- The value of the attribute is written with pixels. -/
def isGeometryKey (key : String) : Bool :=
  geometryKeys.contains key

/-- The values of all attributes of geometry are numeric. -/
def Attrs.ShowsNumbers (attrs : Attrs) : Prop :=
  ∀ entry ∈ attrs.entries, isGeometryKey entry.1 = true → IsNumeric entry.2

instance : DecidablePred Attrs.ShowsNumbers := fun attrs =>
  inferInstanceAs (Decidable (∀ entry ∈ attrs.entries, _ → _))

/-- Pairs that may be set are numeric. -/
def PairsNumeric (pairs : List (String × String)) : Prop :=
  ∀ pair ∈ pairs, isGeometryKey pair.1 = true → IsNumeric pair.2

theorem pairsNumeric_nil : PairsNumeric [] := by
  simp [PairsNumeric]

theorem pairsNumeric_cons {pair : String × String} {pairs : List (String × String)} :
    PairsNumeric (pair :: pairs) ↔
      (isGeometryKey pair.1 = true → IsNumeric pair.2) ∧ PairsNumeric pairs :=
  List.forall_mem_cons

theorem pairsNumeric_append {pairs pairs' : List (String × String)} :
    PairsNumeric (pairs ++ pairs') ↔ PairsNumeric pairs ∧ PairsNumeric pairs' :=
  List.forall_mem_append

namespace Attrs

theorem showsNumbers_empty : empty.ShowsNumbers := by
  simp [ShowsNumbers]

/-- Attributes of other keys show no numbers. -/
theorem showsNumbers_of_keys {attrs : Attrs}
    (other : ∀ key ∈ attrs.keys, isGeometryKey key = false) : attrs.ShowsNumbers := by
  intro entry hentry key
  rw [other entry.1 (List.mem_map_of_mem hentry)] at key
  cases key

/-- Attributes made from pairs of distinct keys show the numbers of the pairs. -/
theorem showsNumbers_ofList {pairs : List (String × String)}
    (distinct : (pairs.map Prod.fst).Nodup) : (ofList pairs).ShowsNumbers ↔ PairsNumeric pairs := by
  rw [ShowsNumbers, entries_ofList distinct, PairsNumeric]

theorem showsNumbers_iff_restrict {attrs : Attrs} :
    attrs.ShowsNumbers ↔ (attrs.restrict isGeometryKey).ShowsNumbers := by
  simp only [ShowsNumbers, restrict, List.mem_filter]
  constructor
  · exact fun h entry part => h entry part.1
  · exact fun h entry all key => h entry ⟨all, key⟩ key

/-- Pairs of other keys show no numbers. -/
theorem showsNumbers_setAll {attrs : Attrs} {pairs : List (String × String)}
    (other : ∀ pair ∈ pairs, isGeometryKey pair.1 = false) :
    (attrs.setAll pairs).ShowsNumbers ↔ attrs.ShowsNumbers := by
  have filtered : pairs.filter (fun pair => isGeometryKey pair.1) = [] := by
    simpa [List.filter_eq_nil_iff] using other
  rw [showsNumbers_iff_restrict, restrict_setAll, filtered, setAll_nil, ← showsNumbers_iff_restrict]

/-- A key that is not set yet adds its number. -/
theorem showsNumbers_set {attrs : Attrs} {key value : String} (new : key ∉ attrs.keys)
    (geometry : isGeometryKey key = true) :
    (attrs.set key value).ShowsNumbers ↔ attrs.ShowsNumbers ∧ IsNumeric value := by
  simp only [ShowsNumbers, entries_set new, List.forall_mem_append, List.forall_mem_singleton,
    geometry, true_imp_iff]

end Attrs

/-! ## Markup -/

namespace Markup

mutual

/-- The attributes of geometry of all tags show finite numbers. -/
def ShowsNumbers : Markup → Prop
  | text _ | verbatim _ => True
  | empty _ attrs => attrs.ShowsNumbers
  | tag _ attrs content => attrs.ShowsNumbers ∧ ShowsNumbersAll content

def ShowsNumbersAll : List Markup → Prop
  | [] => True
  | piece :: pieces => piece.ShowsNumbers ∧ ShowsNumbersAll pieces

end

mutual

/-- Whether all numbers are finite is decided tag by tag. -/
def decidableShowsNumbers : (m : Markup) → Decidable m.ShowsNumbers
  | text _ | verbatim _ => inferInstanceAs (Decidable True)
  | empty _ attrs => inferInstanceAs (Decidable attrs.ShowsNumbers)
  | tag _ attrs content =>
    have := decidableShowsNumbersAll content
    inferInstanceAs (Decidable (attrs.ShowsNumbers ∧ ShowsNumbersAll content))

def decidableShowsNumbersAll : (pieces : List Markup) → Decidable (ShowsNumbersAll pieces)
  | [] => inferInstanceAs (Decidable True)
  | piece :: pieces =>
    have := decidableShowsNumbers piece
    have := decidableShowsNumbersAll pieces
    inferInstanceAs (Decidable (piece.ShowsNumbers ∧ ShowsNumbersAll pieces))

end

instance : DecidablePred ShowsNumbers :=
  decidableShowsNumbers

theorem showsNumbersAll_iff {pieces : List Markup} :
    ShowsNumbersAll pieces ↔ ∀ piece ∈ pieces, piece.ShowsNumbers := by
  induction pieces with
  | nil => simp [ShowsNumbersAll]
  | cons piece pieces ih => rw [ShowsNumbersAll, ih, List.forall_mem_cons]

@[simp] theorem showsNumbers_text (content : String) : (text content).ShowsNumbers := by
  rw [ShowsNumbers]
  trivial

@[simp] theorem showsNumbers_empty {name : String} {attrs : Attrs} :
    (empty name attrs).ShowsNumbers ↔ attrs.ShowsNumbers := by
  rw [ShowsNumbers]

@[simp] theorem showsNumbers_tag {name : String} {attrs : Attrs} {content : List Markup} :
    (tag name attrs content).ShowsNumbers ↔
      attrs.ShowsNumbers ∧ ∀ piece ∈ content, piece.ShowsNumbers := by
  rw [ShowsNumbers, showsNumbersAll_iff]

theorem showsNumbers_element {name : String} {attrs : Attrs} {content : Option (List Markup)} :
    (element name attrs content).ShowsNumbers ↔
      attrs.ShowsNumbers ∧ ∀ pieces ∈ content, ∀ piece ∈ pieces, piece.ShowsNumbers := by
  cases content <;> simp [element]

/-- Line ends show no numbers. -/
theorem forall_lines : ∀ {pieces : List Markup},
    (∀ piece ∈ lines pieces, piece.ShowsNumbers) ↔ ∀ piece ∈ pieces, piece.ShowsNumbers
  | [] => Iff.rfl
  | [_] => Iff.rfl
  | first :: second :: pieces => by
    have ih : (∀ piece ∈ lines (second :: pieces), piece.ShowsNumbers) ↔
        ∀ piece ∈ second :: pieces, piece.ShowsNumbers := forall_lines
    rw [lines, List.intersperse_cons_cons, List.forall_mem_cons, List.forall_mem_cons,
      List.forall_mem_cons (a := first), ← ih]
    simp [newline, lines]

end Markup

end SvgLayout
