import SvgLayout.Proofs.Scalar.Real
import SvgLayout.Element.Build
import SvgLayout.Element.Sizing

/-!
# How the widths of texts add up

A text is meant to be as wide as its characters together. The widths of the characters are added in
32 bits, so the sum is that of the characters only up to a multiple of `2 ^ 32`. Two texts put
together are as wide as both, and no narrower than the first, exactly if the addition does not carry
out of the 32 bits; and a text has no width at all exactly if the sum of its characters is a
multiple of `2 ^ 32`. No text of at most 28 633 115 characters is that wide.

## Main definitions

* `tableWidth` — the width of a character by the table, in hundredths of a full character.
* `fullWidth` — the sum of these widths over a text, without a bound.

## Main statements

* `toNat_textWidth` — what is left of the sum in 32 bits.
* `textWidth_exact_of_length_le` — the length up to which nothing is lost.
* `Metrics.width_adds_up_iff` — when the widths of texts add up.
* `Element.aspect_text` — the ratio that a line of text wants.
-/

namespace SvgLayout

/-! ## Characters -/

/-- The width of a character in hundredths of a full one: its entry in the table, and that of a full
character if the table has none. -/
def tableWidth (c : Char) : ℕ :=
  if ' ' ≤ c ∧ c ≤ '~' then (characterWidths.getD (c.toNat - ' '.toNat) 0).toNat else 100

/-- The table ends with the tilde, so a character behind it counts as one outside of the table. -/
theorem toNat_characterWidth (c : Char) : (characterWidth c).toNat = tableWidth c := by
  have lower : c < ' ' ↔ c.toNat < 32 := Iff.rfl
  have least : ' ' ≤ c ↔ 32 ≤ c.toNat := Iff.rfl
  have greatest : c ≤ '~' ↔ c.toNat ≤ 126 := Iff.rfl
  have blank : ' '.toNat = 32 := rfl
  have entries : characterWidths.length = 95 := rfl
  simp only [characterWidth, tableWidth, lower, least, greatest, blank]
  rcases lt_or_ge c.toNat 32 with below | above
  · rw [if_pos below, if_neg (by omega)]
    rfl
  rcases le_or_gt c.toNat 126 with inside | behind
  · have place : c.toNat - 32 < characterWidths.length := by omega
    rw [if_neg (by omega), if_pos ⟨above, inside⟩, List.getD_eq_getElem?_getD,
      List.getElem?_eq_getElem place]
    rfl
  · rw [if_neg (by omega), if_neg (by omega), List.getElem?_eq_none (by omega)]
    rfl

/-- No character is wider than one and a half full ones, and each has some width. -/
theorem tableWidth_bounds (c : Char) : 1 ≤ tableWidth c ∧ tableWidth c ≤ 150 := by
  -- a `∀` instead of `List.all` may be decided by a search through all numbers of 32 bits
  have entries : characterWidths.all (fun width => 1 ≤ width.toNat ∧ width.toNat ≤ 150) := by
    decide
  rw [← toNat_characterWidth, characterWidth]
  split
  · simp
  rcases h : characterWidths[c.toNat - ' '.toNat]? with _ | width
  · simp
  · exact of_decide_eq_true (List.all_eq_true.mp entries width (List.mem_of_getElem? h))

/-! ## Texts -/

/-- The width of a text in hundredths of a full character, as a number without a bound. -/
def fullWidth (text : String) : ℕ :=
  (text.toList.map tableWidth).sum

@[simp] theorem fullWidth_append (s t : String) :
    fullWidth (s ++ t) = fullWidth s + fullWidth t := by
  simp [fullWidth]

/-- Every character adds to a text. -/
theorem fullWidth_pos_iff {text : String} : 0 < fullWidth text ↔ text ≠ "" := by
  constructor
  · rintro wide rfl
    exact absurd wide (by decide)
  · intro nonempty
    obtain ⟨c, cs, h⟩ := List.exists_cons_of_ne_nil (mt String.toList_eq_nil_iff.mp nonempty)
    rw [fullWidth, h, List.map_cons, List.sum_cons]
    exact Nat.add_pos_left (tableWidth_bounds c).1 _

theorem fullWidth_le (text : String) : fullWidth text ≤ 150 * text.length := by
  have widest : ∀ width ∈ text.toList.map tableWidth, width ≤ 150 := by
    intro width hwidth
    obtain ⟨c, -, rfl⟩ := List.mem_map.mp hwidth
    exact (tableWidth_bounds c).2
  have total := List.sum_le_card_nsmul _ 150 widest
  rwa [List.length_map, String.length_toList, smul_eq_mul, mul_comm] at total

/-- One character after the other is added to what the 32 bits have kept so far. -/
theorem toNat_foldl_characterWidth (cs : List Char) (start : UInt32) :
    (cs.foldl (fun total c => total + characterWidth c) start).toNat =
      (start.toNat + (cs.map tableWidth).sum) % 2 ^ 32 := by
  induction cs generalizing start with
  | nil => simp [Nat.mod_eq_of_lt start.toNat_lt]
  | cons c cs ih =>
    rw [List.foldl_cons, ih, UInt32.toNat_add, toNat_characterWidth, List.map_cons, List.sum_cons,
      Nat.mod_add_mod, Nat.add_assoc]

/-- Added in 32 bits, the width of a text is what is left of it modulo `2 ^ 32`. -/
theorem toNat_textWidth (text : String) : (textWidth text).toNat = fullWidth text % 2 ^ 32 := by
  rw [textWidth, toNat_foldl_characterWidth, fullWidth]
  simp

/-- Up to this length even the widest characters fit into 32 bits. -/
theorem textWidth_exact_of_length_le {text : String} (short : text.length ≤ 28633115) :
    (textWidth text).toNat = fullWidth text := by
  have bounded := fullWidth_le text
  rw [toNat_textWidth]
  omega

/-! ## Widths in ems -/

namespace Metrics

theorem width_proportional (text : String) :
    (proportional.width text : ℝ) = (fullWidth text % 2 ^ 32 : ℕ) * (57 / 10000) := by
  rw [← toNat_textWidth]
  simp only [width, Defaults.characterWidth, Scalar.ofScientific_eq]
  norm_num
  ring

theorem width_proportional_le_iff (s t : String) :
    (proportional.width s : ℝ) ≤ proportional.width t ↔
      fullWidth s % 2 ^ 32 ≤ fullWidth t % 2 ^ 32 := by
  rw [width_proportional, width_proportional, mul_le_mul_iff_left₀ (by norm_num), Nat.cast_le]

theorem width_proportional_pos_iff (text : String) :
    0 < (proportional.width text : ℝ) ↔ ¬2 ^ 32 ∣ fullWidth text := by
  rw [width_proportional, mul_pos_iff_of_pos_right (by norm_num), Nat.cast_pos, Nat.pos_iff_ne_zero,
    Nat.dvd_iff_mod_eq_zero]

theorem width_proportional_append_iff (s t : String) :
    (proportional.width (s ++ t) : ℝ) = proportional.width s + proportional.width t ↔
      (fullWidth s + fullWidth t) % 2 ^ 32 = fullWidth s % 2 ^ 32 + fullWidth t % 2 ^ 32 := by
  simp only [width_proportional, fullWidth_append]
  rw [← add_mul, mul_left_inj' (by norm_num), ← Nat.cast_add, Nat.cast_inj]

/-- The sum that is kept of the widths of the characters of a text is theirs exactly if it is less
than `2 ^ 32`. Two texts put together are as wide as both, and no narrower than the first, exactly
if what is kept of both is together less than `2 ^ 32`. A text has a width exactly if the sum of the
widths of its characters is not a multiple of `2 ^ 32`. -/
theorem width_adds_up_iff (s t : String) :
    ((textWidth s).toNat = fullWidth s ↔ fullWidth s < 2 ^ 32) ∧
      ((proportional.width (s ++ t) : ℝ) = proportional.width s + proportional.width t ↔
        fullWidth s % 2 ^ 32 + fullWidth t % 2 ^ 32 < 2 ^ 32) ∧
      (0 < (proportional.width s : ℝ) ↔ ¬2 ^ 32 ∣ fullWidth s) ∧
      ((proportional.width s : ℝ) ≤ proportional.width (s ++ t) ↔
        fullWidth s % 2 ^ 32 + fullWidth t % 2 ^ 32 < 2 ^ 32) := by
  refine ⟨?exact, ?additive, width_proportional_pos_iff s, ?grows⟩
  case exact =>
    rw [toNat_textWidth]
    exact Nat.mod_eq_iff_lt (by norm_num)
  case additive =>
    rw [width_proportional_append_iff]
    omega
  case grows =>
    rw [width_proportional_le_iff, fullWidth_append]
    -- a sum that carries is less than either summand
    omega

end Metrics

/-! ## Lines of text -/

/-- A line of text wants its width as its ratio, and no ratio if no width is left of it. -/
theorem Element.aspect_text (content : String) :
    (Element.text content .proportional : Element ℝ).aspect =
      .ok (if 2 ^ 32 ∣ fullWidth content then none
        else some (Metrics.proportional.width content)) := by
  have wide : (0.0 : ℝ) < Metrics.proportional.width content ↔ ¬2 ^ 32 ∣ fullWidth content := by
    simpa using Metrics.width_proportional_pos_iff content
  rw [aspect, measured_eq]
  show Except.ok (if (0.0 : ℝ) < Metrics.proportional.width content
    then some (Metrics.proportional.width content) else none) = _
  simp only [wide, ite_not]

/-! ### A text without a width -/

/-- A row of percent signs. -/
def percentSigns (n : ℕ) : String :=
  .ofList (.replicate n '%')

theorem fullWidth_percentSigns (n : ℕ) : fullWidth (percentSigns n) = 132 * n := by
  have sign : tableWidth '%' = 132 := by decide
  rw [fullWidth, percentSigns, String.toList_ofList, List.map_replicate, List.sum_replicate, sign,
    smul_eq_mul, mul_comm]

/-- The widths of so many characters add up to `2 ^ 32`: the text as a whole has no width, and a
line of it wants no ratio, although both of its parts are wide. -/
theorem Metrics.width_vanishes_percentSigns :
    percentSigns 32537630 ++ ".0" ≠ "" ∧ fullWidth (percentSigns 32537630 ++ ".0") = 2 ^ 32 ∧
      (textWidth (percentSigns 32537630 ++ ".0")).toNat = 0 ∧
      (proportional.width (percentSigns 32537630 ++ ".0") : ℝ) = 0 ∧
      0 < (proportional.width (percentSigns 32537630) : ℝ) ∧
      0 < (proportional.width ".0" : ℝ) ∧
      (Element.text (percentSigns 32537630 ++ ".0") .proportional : Element ℝ).aspect =
        .ok none := by
  have row := fullWidth_percentSigns 32537630
  have rest : fullWidth ".0" = 136 := by decide
  have full : fullWidth (percentSigns 32537630 ++ ".0") = 2 ^ 32 := by
    rw [fullWidth_append, row, rest]
    norm_num
  have nonempty : percentSigns 32537630 ++ ".0" ≠ "" := fullWidth_pos_iff.mp (by omega)
  refine ⟨nonempty, full, ?_, ?_, ?_, ?_, ?_⟩
  · rw [toNat_textWidth, full, Nat.mod_self]
  · rw [width_proportional, full, Nat.mod_self, Nat.cast_zero, zero_mul]
  · rw [width_proportional_pos_iff, row]
    norm_num
  · rw [width_proportional_pos_iff, rest]
    norm_num
  · rw [Element.aspect_text, if_pos full.symm.dvd]

end SvgLayout
