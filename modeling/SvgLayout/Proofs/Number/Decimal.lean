import Mathlib.Computability.RegularExpressions
import SvgLayout.Proofs.Number.Digits
import SvgLayout.Proofs.Number.Rounding

/-!
# Canonical decimals

Markup writes a finite number as the canonical decimal of its rounded value: no zeros in front, none
behind a point, no point that nothing follows and no sign before a lone zero. So the text is decided
by the rounded value, and reading it gives that value back.

## Main definitions

* `decimalValue`, `fractionPart` — a decimal read, and its digits after the point.
* `decimalPattern` — the texts of canonical decimals.
* `unitsText` — the canonical decimal of a count of units of a place.

## Main statements

* `trimDecimal_fixedDigits` — what trimming leaves of a fixed-place decimal.
* `unitsText_eq_iff` — canonical decimals of equal values are equal.
* `formatNumber_eq_unitsText` — the text of a finite double.
* `formatNumber_eq_canonicalDecimal` — its form, its value, and what it says about two doubles.
-/

namespace SvgLayout

/-! ## Reading a decimal -/

/-- The digits after the point. -/
def fractionPart (text : List Char) : List Char :=
  (text.dropWhile (· != '.')).drop 1

/-- The value of a decimal without a sign: all its digits, counting units of its last place. -/
def unsignedValue (text : List Char) : ℚ :=
  Nat.ofDigitChars 10 (text.takeWhile (· != '.') ++ fractionPart text) 0 /
    10 ^ (fractionPart text).length

/-- The value of a decimal. -/
def decimalValue (text : List Char) : ℚ :=
  if text.head? = some '-' then -unsignedValue text.tail else unsignedValue text

/-! ## The form of a canonical decimal -/

/-- One of some characters. -/
def oneOf (chars : List Char) : RegularExpression Char :=
  chars.foldr (fun c rest => .char c + rest) 0

/-- The texts `[0-9]*`. -/
def digitsPattern : RegularExpression Char :=
  (oneOf ('0' :: leadingDigits)).star

/-- The texts `0|[1-9][0-9]*`. -/
def wholePattern : RegularExpression Char :=
  .char '0' + oneOf leadingDigits * digitsPattern

/-- The texts `(\.[0-9]*[1-9])?`. -/
def fractionPattern : RegularExpression Char :=
  1 + .char '.' * (digitsPattern * oneOf leadingDigits)

/-- The texts `-?(0|[1-9][0-9]*)(\.[0-9]*[1-9])?`. -/
def decimalPattern : RegularExpression Char :=
  (1 + .char '-') * (wholePattern * fractionPattern)

/-- One of some characters, and nothing else. -/
theorem mem_oneOf {chars text : List Char} :
    text ∈ (oneOf chars).matches' ↔ ∃ c ∈ chars, text = [c] := by
  induction chars with
  | nil => simp [oneOf, Language.notMem_zero]
  | cons d chars ih =>
    have split : text ∈ (oneOf (d :: chars)).matches' ↔
        text = [d] ∨ text ∈ (oneOf chars).matches' := Iff.rfl
    simp only [split, ih, List.mem_cons, exists_eq_or_imp]

theorem mem_star_oneOf {chars text : List Char} (mem : ∀ c ∈ text, c ∈ chars) :
    text ∈ (oneOf chars).star.matches' := by
  rw [RegularExpression.matches'_star, Language.mem_kstar]
  refine ⟨text.map fun c => [c], by simp [← List.flatMap_def], ?_⟩
  intro one isOne
  obtain ⟨c, inText, rfl⟩ := List.mem_map.mp isOne
  exact mem_oneOf.mpr ⟨c, mem c inText, rfl⟩

/-! ## Canonical decimals -/

/-- A whole part and a fraction around a point, or the whole part alone. -/
def pointed (whole fraction : List Char) : List Char :=
  whole ++ if fraction = [] then [] else '.' :: fraction

/-- The digits of a count of units of the last of `places` places, without zeros at the end of the
fraction. -/
def magnitudeText (units places : ℕ) : List Char :=
  pointed (decimalDigits (units / 10 ^ places)) (dropTrailing '0' (placeDigits units places))

/-- The canonical decimal of a count of units of the last of `places` places. -/
def unitsText (units : ℤ) (places : ℕ) : List Char :=
  signChars (decide (units < 0)) ++ magnitudeText units.natAbs places

section

variable {whole fraction : List Char}

theorem ne_point_of_mem (noPoint : '.' ∉ whole) : ∀ c ∈ whole, (c != '.') = true := by
  intro c mem
  exact bne_iff_ne.mpr fun point => noPoint (point ▸ mem)

theorem takeWhile_pointed (noPoint : '.' ∉ whole) :
    (pointed whole fraction).takeWhile (· != '.') = whole := by
  unfold pointed
  rw [List.takeWhile_append_of_pos (ne_point_of_mem noPoint)]
  split_ifs <;> simp

theorem fractionPart_pointed (noPoint : '.' ∉ whole) :
    fractionPart (pointed whole fraction) = fraction := by
  unfold fractionPart pointed
  rw [List.dropWhile_append_of_pos (ne_point_of_mem noPoint)]
  split_ifs with empty
  · simp [empty]
  · simp

theorem unsignedValue_pointed (noPoint : '.' ∉ whole) :
    unsignedValue (pointed whole fraction) =
      Nat.ofDigitChars 10 (whole ++ fraction) 0 / 10 ^ fraction.length := by
  rw [unsignedValue, takeWhile_pointed noPoint, fractionPart_pointed noPoint]

end

section

variable (units places : ℕ)

theorem point_notMem_decimalDigits (n : ℕ) : '.' ∉ decimalDigits n :=
  notMem_of_isDigit rfl fun _ => isDigit_of_mem_decimalDigits

/-- The canonical decimal of a magnitude denotes it. -/
theorem unsignedValue_magnitudeText :
    unsignedValue (magnitudeText units places) = units / 10 ^ places := by
  obtain ⟨zeros, split⟩ := exists_eq_dropTrailing_append_replicate '0' (placeDigits units places)
  have length := length_placeDigits units places
  have value := ofDigitChars_placeDigits units places
  rw [split, ← List.append_assoc, Nat.ofDigitChars_append, Nat.ofDigitChars_replicate_zero] at value
  rw [split, List.length_append, List.length_replicate] at length
  rw [magnitudeText, unsignedValue_pointed (point_notMem_decimalDigits _),
    div_eq_div_iff (by positivity) (by positivity)]
  generalize dropTrailing '0' (placeDigits units places) = fraction at *
  generalize decimalDigits (units / 10 ^ places) = whole at *
  rw [← value, ← length, pow_add]
  push_cast
  ring

theorem eq_point_or_isDigit_of_mem_magnitudeText {c : Char}
    (mem : c ∈ magnitudeText units places) : c = '.' ∨ c.isDigit = true := by
  rcases List.mem_append.mp mem with whole | fraction
  · exact .inr (isDigit_of_mem_decimalDigits whole)
  · split_ifs at fraction
    · cases fraction
    · cases fraction with
      | head => exact .inl rfl
      | tail _ kept =>
        have digit := (List.rdropWhile_prefix (· == '0') _).subset kept
        exact .inr (isDigit_of_mem_placeDigits digit)

theorem minus_notMem_magnitudeText : '-' ∉ magnitudeText units places := by
  intro mem
  rcases eq_point_or_isDigit_of_mem_magnitudeText units places mem with point | digit
  · cases point
  · cases digit

/-- Only zero is written as a lone zero. -/
theorem magnitudeText_eq_zero_iff : magnitudeText units places = ['0'] ↔ units = 0 := by
  constructor
  · intro zero
    have value := unsignedValue_magnitudeText units places
    rw [zero] at value
    have zeroValue : unsignedValue ['0'] = 0 := by
      simp [unsignedValue, fractionPart, Nat.ofDigitChars]
    rw [zeroValue] at value
    have nonzero : (10 : ℚ) ^ places ≠ 0 := by positivity
    exact_mod_cast (div_eq_zero_iff.mp value.symm).resolve_right nonzero
  · rintro rfl
    have zeros : dropTrailing '0' (placeDigits 0 places) = [] := by
      refine List.rdropWhile_eq_nil_iff.mpr fun c mem => ?_
      unfold placeDigits at mem
      split_ifs at mem
      · cases mem
      · rw [Nat.zero_mod, paddedDigits, List.mem_append] at mem
        rcases mem with filled | digit
        · exact beq_iff_eq.mpr (List.eq_of_mem_replicate filled)
        · exact beq_iff_eq.mpr (List.mem_singleton.mp digit)
    rw [magnitudeText, zeros, Nat.zero_div]
    rfl

/-- Trimming drops the zeros at the end of the fraction, and the point if no digit is left. -/
theorem dropTrailing_fixedDigits {sign : List Char} (noPoint : '.' ∉ sign) :
    (let text := sign ++ fixedDigits units places
     if '.' ∈ text then dropTrailing '.' (dropTrailing '0' text) else text) =
      sign ++ magnitudeText units places := by
  have noPoint : '.' ∉ sign ++ decimalDigits (units / 10 ^ places) := by
    simpa [noPoint] using point_notMem_decimalDigits _
  have noPointAfter : '.' ∉ dropTrailing '0' (placeDigits units places) := by
    intro mem
    have mem := (List.rdropWhile_prefix (· == '0') _).subset mem
    exact notMem_of_isDigit rfl (fun _ => isDigit_of_mem_placeDigits) mem
  rw [fixedDigits_eq, magnitudeText, pointed]
  simp only [← List.append_assoc]
  generalize sign ++ decimalDigits (units / 10 ^ places) = before at *
  by_cases integral : places = 0
  · have noDigits : dropTrailing '0' (placeDigits units places) = [] := by
      rw [placeDigits, if_pos integral]
      rfl
    rw [if_pos integral, noDigits, List.append_nil, if_neg noPoint, if_pos rfl, List.append_nil]
  · rw [if_neg integral, if_pos (List.mem_append_right _ List.mem_cons_self),
      dropTrailing_append_cons (by decide)]
    generalize dropTrailing '0' (placeDigits units places) = fraction at *
    split_ifs with dropped
    · rw [dropped, dropTrailing_append_of_eq_nil rfl, dropTrailing_of_notMem noPoint,
        List.append_nil]
    · have kept : dropTrailing '.' fraction = fraction := dropTrailing_of_notMem noPointAfter
      rw [List.append_cons, dropTrailing_append (kept.trans_ne dropped), kept]

end

/-- **What trimming leaves of a fixed-place decimal.** -/
theorem trimDecimal_fixedDigits (negative : Bool) (units places : ℕ) :
    trimDecimal (signChars negative ++ fixedDigits units places) =
      unitsText (if negative then -units else units) places := by
  have noPoint : '.' ∉ signChars negative := by
    cases negative <;> decide
  have zero := magnitudeText_eq_zero_iff units places
  rw [trimDecimal, dropTrailing_fixedDigits units places noPoint]
  cases negative with
  | false =>
    have other : signChars false ++ magnitudeText units places ≠ ['-', '0'] := by
      intro same
      have same : magnitudeText units places = ['-', '0'] := same
      exact minus_notMem_magnitudeText units places (same ▸ List.mem_cons_self)
    rw [if_neg other]
    rfl
  | true =>
    -- The sign stays unless it would stand before a lone zero.
    by_cases vanishes : units = 0
    · have zero := zero.mpr vanishes
      subst vanishes
      rw [zero]
      exact zero.symm
    · have other : signChars true ++ magnitudeText units places ≠ ['-', '0'] := by
        intro same
        exact vanishes (zero.mp (List.cons.inj same).2)
      have below : decide (-(units : ℤ) < 0) = true := decide_eq_true (by omega)
      rw [if_neg other, if_pos rfl, unitsText, below, Int.natAbs_neg, Int.natAbs_natCast]

/-! ## Values and forms -/

section

variable (units : ℤ) (places : ℕ)

theorem unitsText_ofNat (n : ℕ) : unitsText (.ofNat n) places = magnitudeText n places :=
  rfl

theorem unitsText_negSucc (n : ℕ) :
    unitsText (.negSucc n) places = '-' :: magnitudeText (n + 1) places := by
  rw [unitsText, decide_eq_true (Int.negSucc_lt_zero n)]
  rfl

theorem unitsText_ne_nil : unitsText units places ≠ [] := by
  have digits : decimalDigits (units.natAbs / 10 ^ places) ≠ [] := Nat.toDigits_ne_nil
  simp [unitsText, magnitudeText, pointed, digits]

/-- A canonical decimal is made of digits, a point and a minus sign. -/
theorem sign_or_digit_of_mem_unitsText {c : Char} (mem : c ∈ unitsText units places) :
    c = '-' ∨ c = '.' ∨ c.isDigit = true := by
  rcases List.mem_append.mp mem with sign | magnitude
  · left
    unfold signChars at sign
    split_ifs at sign
    · exact List.mem_singleton.mp sign
    · cases sign
  · exact .inr (eq_point_or_isDigit_of_mem_magnitudeText _ _ magnitude)

/-- The canonical decimal of a count of units denotes it. -/
theorem decimalValue_unitsText : decimalValue (unitsText units places) = units / 10 ^ places := by
  cases units with
  | ofNat n =>
    have noSign : (magnitudeText n places).head? ≠ some '-' := fun head =>
      minus_notMem_magnitudeText _ _ (List.mem_of_mem_head? head)
    rw [unitsText_ofNat, decimalValue, if_neg noSign, unsignedValue_magnitudeText,
      Int.ofNat_eq_natCast, Int.cast_natCast]
  | negSucc n =>
    rw [unitsText_negSucc, decimalValue, List.head?_cons, if_pos rfl, List.tail_cons,
      unsignedValue_magnitudeText, Int.cast_negSucc, neg_div]

theorem unitsText_ne_minus_zero : unitsText units places ≠ ['-', '0'] := by
  intro same
  cases units with
  | ofNat n =>
    rw [unitsText_ofNat] at same
    exact minus_notMem_magnitudeText n places (same ▸ List.mem_cons_self)
  | negSucc n =>
    rw [unitsText_negSucc] at same
    have zero := (magnitudeText_eq_zero_iff _ _).mp (List.cons.inj same).2
    omega

theorem decimalDigits_mem_matches (n : ℕ) : decimalDigits n ∈ wholePattern.matches' := by
  by_cases zero : n = 0
  · subst zero
    exact Or.inl rfl
  · obtain ⟨c, leading, rest, split⟩ := exists_decimalDigits (Nat.pos_of_ne_zero zero)
    have digits : ∀ d ∈ rest, d ∈ '0' :: leadingDigits := by
      intro d mem
      exact mem_of_isDigit (isDigit_of_mem_decimalDigits (split ▸ List.mem_cons_of_mem c mem))
    rw [split]
    exact Or.inr (Language.append_mem_mul (mem_oneOf.mpr ⟨c, leading, rfl⟩) (mem_star_oneOf digits))

/-- The point and the digits after it, if there are any. -/
theorem fraction_mem_matches (n : ℕ) :
    (if dropTrailing '0' (placeDigits n places) = [] then []
      else '.' :: dropTrailing '0' (placeDigits n places)) ∈ fractionPattern.matches' := by
  split_ifs with blank
  · exact Or.inl rfl
  · obtain ⟨before, last, split, nonzero, kept⟩ := exists_of_dropTrailing_ne_nil blank
    have digit : ∀ d ∈ before ++ [last], d ∈ '0' :: leadingDigits := fun d mem =>
      mem_of_isDigit (isDigit_of_mem_placeDigits (kept d mem))
    have leading : last ∈ leadingDigits :=
      (List.mem_cons.mp (digit last (List.mem_append_right _ List.mem_cons_self))).resolve_left
        nonzero
    have digits : before ∈ digitsPattern.matches' :=
      mem_star_oneOf fun d mem => digit d (List.mem_append_left _ mem)
    have point : ['.'] ∈ (RegularExpression.char '.').matches' := rfl
    rw [split]
    exact Or.inr
      (Language.append_mem_mul point (Language.append_mem_mul digits
        (mem_oneOf.mpr ⟨last, leading, rfl⟩)))

/-- A canonical decimal has the form of one. -/
theorem unitsText_mem_matches : unitsText units places ∈ decimalPattern.matches' := by
  have sign (negative : Bool) :
      signChars negative ∈ (1 + RegularExpression.char '-').matches' := by
    cases negative with
    | false => exact Or.inl rfl
    | true => exact Or.inr rfl
  exact Language.append_mem_mul (sign _)
    (Language.append_mem_mul (decimalDigits_mem_matches _) (fraction_mem_matches _ _))

theorem length_fractionPart_unitsText_le :
    (fractionPart (unitsText units places)).length ≤ places := by
  have noPoint : '.' ∉ signChars (decide (units < 0)) ++
      decimalDigits (units.natAbs / 10 ^ places) := by
    cases decide (units < 0) <;> simpa [signChars] using point_notMem_decimalDigits _
  rw [unitsText, magnitudeText, pointed, ← List.append_assoc, ← pointed,
    fractionPart_pointed noPoint]
  exact (List.rdropWhile_prefix _ _).length_le.trans (length_placeDigits _ _).le

end

/-! ## Equal texts -/

/-- A zero at the end of the fraction is not written. -/
theorem unitsText_mul_ten (units : ℤ) (places : ℕ) :
    unitsText (units * 10) (places + 1) = unitsText units places := by
  have sign : decide (units * 10 < 0) = decide (units < 0) := decide_eq_decide.mpr (by omega)
  have magnitude : (units * 10).natAbs = units.natAbs * 10 := Int.natAbs_mul units 10
  rw [unitsText, unitsText, sign, magnitude, magnitudeText, magnitudeText, placeDigits_mul_ten,
    dropTrailing_append_of_eq_nil rfl, pow_succ, Nat.mul_div_mul_right _ _ (by omega)]

theorem unitsText_mul_pow (units : ℤ) (places more : ℕ) :
    unitsText (units * 10 ^ more) (places + more) = unitsText units places := by
  induction more with
  | zero => rw [pow_zero, mul_one, Nat.add_zero]
  | succ more ih => rw [pow_succ, ← mul_assoc, ← Nat.add_assoc, unitsText_mul_ten, ih]

/-- Two and a half in thousandths. -/
example : unitsText (-2500) 3 = ['-', '2', '.', '5'] := by decide

/-- Canonical decimals of equal values are equal, however many places were counted. -/
theorem unitsText_eq_iff {units units' : ℤ} {places places' : ℕ} :
    unitsText units places = unitsText units' places' ↔
      (units : ℚ) / 10 ^ places = units' / 10 ^ places' := by
  constructor
  · intro same
    rw [← decimalValue_unitsText, same, decimalValue_unitsText]
  · intro same
    -- The units of fewer places are those of more places without zeros at the end.
    wlog fewer : places ≤ places' generalizing units units' places places'
    · exact (this same.symm (Nat.le_of_not_le fewer)).symm
    obtain ⟨more, rfl⟩ := Nat.exists_eq_add_of_le fewer
    have scaled : units * 10 ^ more = units' := by
      rw [div_eq_div_iff (by positivity) (by positivity), pow_add, ← mul_assoc,
        mul_right_comm] at same
      have nonzero : (10 : ℚ) ^ places ≠ 0 := by positivity
      exact_mod_cast mul_right_cancel₀ nonzero same
    rw [← scaled, unitsText_mul_pow]

/-- Without decimal places a canonical decimal is the text of an integer. -/
theorem unitsText_zero (n : ℤ) : unitsText n 0 = (toString n).toList := by
  have magnitude (m : ℕ) : magnitudeText m 0 = (Nat.repr m).toList := by
    rw [magnitudeText, pow_zero, Nat.div_one, Nat.repr_eq_ofList_toDigits, String.toList_ofList]
    exact List.append_nil _
  cases n with
  | ofNat m => exact magnitude m
  | negSucc m =>
    have split : toString (Int.negSucc m) = "-" ++ Nat.repr (m + 1) := rfl
    rw [unitsText_negSucc, magnitude, split, String.toList_append]
    rfl

/-! ## The text of a double -/

theorem toList_formatNumber_of_finite {v : Float} {negative : Bool} {mantissa : ℕ} {exponent : ℤ}
    (reads : Binary64.ofFloat v = .finite negative mantissa exponent) (precision : ℕ) :
    (formatNumber v precision).toList =
      unitsText (nearestInt (valueOf v * 10 ^ precision)) precision := by
  have fixed : NumberText.fixed v precision = (Binary64.ofFloat v).toFixed precision := rfl
  rw [formatNumber, fixed, valueOf, reads, Binary64.nearestInt_toRat_mul, ← trimDecimal_fixedDigits,
    Binary64.toFixed, String.toList_ofList, String.toList_ofList]

/-- The text of a finite double is the canonical decimal of its rounded value. -/
theorem formatNumber_eq_unitsText {v : Float} (finite : v.isFinite = true) (precision : ℕ) :
    (formatNumber v precision).toList =
      unitsText (nearestInt (valueOf v * 10 ^ precision)) precision := by
  obtain ⟨negative, mantissa, exponent, reads⟩ := Binary64.exists_of_isFinite finite
  exact toList_formatNumber_of_finite reads precision

theorem decimalValue_formatNumber {v : Float} (finite : v.isFinite = true) (precision : ℕ) :
    decimalValue (formatNumber v precision).toList = roundTo precision (valueOf v) := by
  rw [formatNumber_eq_unitsText finite, decimalValue_unitsText, roundTo]

/-- **Markup writes the canonical decimal of the rounded value**: no more digits behind the point
than the precision, never a negative zero, and a whole number as that integer. So two numbers have
the same text exactly if they round to the same decimal, and a number that is at most another one is
written as a decimal that is at most the other one. -/
theorem formatNumber_eq_canonicalDecimal {v : Float} (finite : v.isFinite = true) (precision : ℕ) :
    (formatNumber v precision).toList ∈ decimalPattern.matches' ∧
    (fractionPart (formatNumber v precision).toList).length ≤ precision ∧
    formatNumber v precision ≠ "-0" ∧
    decimalValue (formatNumber v precision).toList = roundTo precision (valueOf v) ∧
    (∀ n : ℤ, valueOf v = n → formatNumber v precision = toString n) ∧
    ∀ w : Float, w.isFinite = true →
      (∀ precision', formatNumber v precision = formatNumber w precision' ↔
        roundTo precision (valueOf v) = roundTo precision' (valueOf w)) ∧
      (v ≤ w → decimalValue (formatNumber v precision).toList ≤
        decimalValue (formatNumber w precision).toList) := by
  have text := formatNumber_eq_unitsText finite precision
  refine ⟨?form, ?places, ?sign, decimalValue_formatNumber finite precision, ?whole, ?pairs⟩
  case form =>
    rw [text]
    exact unitsText_mem_matches _ _
  case places =>
    rw [text]
    exact length_fractionPart_unitsText_le _ _
  case sign =>
    intro same
    rw [same] at text
    exact unitsText_ne_minus_zero _ _ text.symm
  case whole =>
    intro n value
    have unscaled := unitsText_mul_pow n 0 precision
    rw [Nat.zero_add] at unscaled
    rw [← String.toList_inj, text, value, nearestInt_intCast_mul, unscaled, unitsText_zero]
  case pairs =>
    intro w finite'
    constructor
    · intro precision'
      rw [← String.toList_inj, text, formatNumber_eq_unitsText finite', unitsText_eq_iff]
      rfl
    · intro atMost
      rw [decimalValue_formatNumber finite, decimalValue_formatNumber finite']
      exact roundTo_le_roundTo precision (valueOf_le_valueOf finite finite' atMost)

/-- A negative number that rounds to zero, and a number above it. -/
theorem formatNumber_eq_canonicalDecimal_negative :
    (-0.004 : Float).isFinite = true ∧ formatNumber (-0.004 : Float) 2 ≠ "-0" ∧
      decimalValue (formatNumber (-0.004 : Float) 2).toList = roundTo 2 (valueOf (-0.004)) ∧
      decimalValue (formatNumber (-0.004 : Float) 2).toList ≤
        decimalValue (formatNumber (2.5 : Float) 2).toList := by
  have finite : (-0.004 : Float).isFinite = true := by decide
  obtain ⟨_, _, sign, value, _, pairs⟩ := formatNumber_eq_canonicalDecimal finite 2
  exact ⟨finite, sign, value, (pairs 2.5 (by decide)).2 (by decide)⟩

end SvgLayout
