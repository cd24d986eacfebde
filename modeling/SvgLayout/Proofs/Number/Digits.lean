import Mathlib.Data.List.DropRight
import Mathlib.Tactic.IntervalCases
import Mathlib.Tactic.Positivity
import SvgLayout.Number.Text

/-!
# The digits of fixed-place decimals

A count of units of the last decimal place is written as its digits, so many of them behind a point
as there are places. Trimming drops one character from the end of a text, however often it stands
there.

## Main definitions

* `placeDigits` — the digits behind the point.

## Main statements

* `exists_decimalDigits` — a number other than zero does not start with a zero.
* `ofDigitChars_placeDigits` — the digits around the point count the units.
* `placeDigits_mul_ten` — ten times the units have one more zero behind the point.
* `dropTrailing_append_cons` — what follows another character is trimmed by itself.
* `exists_eq_dropTrailing_append_replicate` — what trimming drops.
-/

namespace SvgLayout

/-! ## Digits -/

/-- The digits that a number can start with. -/
def leadingDigits : List Char :=
  ['1', '2', '3', '4', '5', '6', '7', '8', '9']

/-- The digits are zero and those that a number can start with. -/
theorem mem_of_isDigit {c : Char} (digit : c.isDigit = true) : c ∈ '0' :: leadingDigits := by
  have bounds : 48 ≤ c.toNat ∧ c.toNat ≤ 57 := by
    simp only [Char.isDigit, Bool.and_eq_true, decide_eq_true_eq] at digit
    exact digit
  obtain ⟨low, high⟩ := bounds
  rw [← Char.ofNat_toNat c]
  interval_cases c.toNat <;> decide

theorem isDigit_of_mem_decimalDigits {n : ℕ} {c : Char} (mem : c ∈ decimalDigits n) :
    c.isDigit = true :=
  Nat.isDigit_of_mem_toDigits (by omega) (by omega) mem

theorem notMem_of_isDigit {c : Char} {text : List Char} (other : c.isDigit = false)
    (digits : ∀ d ∈ text, d.isDigit = true) : c ∉ text := by
  intro mem
  rw [digits c mem] at other
  cases other

/-- A number other than zero does not start with a zero. -/
theorem exists_decimalDigits {n : ℕ} (pos : 0 < n) :
    ∃ c ∈ leadingDigits, ∃ rest, decimalDigits n = c :: rest := by
  induction n using Nat.strong_induction_on with
  | h n ih =>
    unfold decimalDigits
    rw [Nat.toDigits_eq_if (by omega)]
    split_ifs with small
    · exact ⟨n.digitChar, by interval_cases n <;> decide, [], rfl⟩
    · obtain ⟨c, leading, rest, digits⟩ := ih (n / 10) (by omega) (by omega)
      rw [decimalDigits] at digits
      exact ⟨c, leading, rest ++ [(n % 10).digitChar], by rw [digits, List.cons_append]⟩

theorem isDigit_of_mem_paddedDigits {count n : ℕ} {c : Char} (mem : c ∈ paddedDigits count n) :
    c.isDigit = true := by
  rcases List.mem_append.mp mem with zeros | digits
  · rw [List.eq_of_mem_replicate zeros]
    rfl
  · exact isDigit_of_mem_decimalDigits digits

/-- The digits after the point that a count of units has. -/
def placeDigits (units places : ℕ) : List Char :=
  if places = 0 then [] else paddedDigits places (units % 10 ^ places)

theorem isDigit_of_mem_placeDigits {units places : ℕ} {c : Char}
    (mem : c ∈ placeDigits units places) : c.isDigit = true := by
  unfold placeDigits at mem
  split_ifs at mem
  · cases mem
  · exact isDigit_of_mem_paddedDigits mem

theorem length_placeDigits (units places : ℕ) : (placeDigits units places).length = places := by
  unfold placeDigits
  split_ifs with zero
  · exact zero.symm
  · have fits : (Nat.toDigits 10 (units % 10 ^ places)).length ≤ places :=
      (Nat.length_toDigits_le_iff (by omega) (Nat.pos_of_ne_zero zero)).mpr
        (Nat.mod_lt _ (by positivity))
    simp only [paddedDigits, decimalDigits, List.length_append, List.length_replicate]
    omega

/-- The digits before and after the point are those of the count of units. -/
theorem ofDigitChars_placeDigits (units places : ℕ) :
    Nat.ofDigitChars 10 (decimalDigits (units / 10 ^ places) ++ placeDigits units places) 0 =
      units := by
  have whole : Nat.ofDigitChars 10 (decimalDigits (units / 10 ^ places)) 0 = units / 10 ^ places :=
    Nat.ofDigitChars_ten_toDigits
  have rest : Nat.ofDigitChars 10 (placeDigits units places) 0 = units % 10 ^ places := by
    unfold placeDigits
    split_ifs with zero
    · simp [zero, Nat.mod_one]
    · simp [paddedDigits, decimalDigits, Nat.ofDigitChars_append, Nat.ofDigitChars_replicate_zero,
        Nat.ofDigitChars_ten_toDigits]
  rw [Nat.ofDigitChars_append, whole, Nat.ofDigitChars_eq_ofDigitChars_zero, rest,
    length_placeDigits, Nat.div_add_mod]

/-- Ten times a number has the same digits and a zero behind them. -/
theorem paddedDigits_mul_ten {count : ℕ} (pos : 0 < count) (n : ℕ) :
    paddedDigits (count + 1) (n * 10) = paddedDigits count n ++ ['0'] := by
  by_cases zero : n = 0
  · obtain ⟨k, rfl⟩ := Nat.exists_eq_add_of_lt pos
    subst zero
    exact congrArg (· ++ ['0']) List.replicate_succ'
  · have digits : decimalDigits (n * 10) = decimalDigits n ++ ['0'] := by
      rw [mul_comm]
      exact (Nat.toDigits_append_toDigits (d := 0) (by omega) (Nat.pos_of_ne_zero zero)
        (by omega)).symm
    rw [paddedDigits, paddedDigits, digits, List.length_append, List.length_singleton,
      Nat.add_sub_add_right, List.append_assoc]

theorem placeDigits_mul_ten (units places : ℕ) :
    placeDigits (units * 10) (places + 1) = placeDigits units places ++ ['0'] := by
  rw [placeDigits, if_neg (Nat.succ_ne_zero _), pow_succ, Nat.mul_mod_mul_right, placeDigits]
  split_ifs with zero
  · rw [zero, pow_zero, Nat.mod_one]
    rfl
  · exact paddedDigits_mul_ten (Nat.pos_of_ne_zero zero) _

theorem fixedDigits_eq (units places : ℕ) :
    fixedDigits units places = decimalDigits (units / 10 ^ places) ++
      if places = 0 then [] else '.' :: placeDigits units places := by
  unfold fixedDigits placeDigits
  split_ifs <;> rfl

/-! ## Trimming -/

section

variable {c d : Char} {a b : List Char}

theorem dropTrailing_of_notMem (absent : c ∉ a) : dropTrailing c a = a := by
  refine List.rdropWhile_eq_self_iff.mpr fun nonempty last => ?_
  rw [beq_iff_eq] at last
  exact absent (last ▸ List.getLast_mem nonempty)

/-- What is left at the end keeps what stands before it. -/
theorem dropTrailing_append (kept : dropTrailing c b ≠ []) :
    dropTrailing c (a ++ b) = a ++ dropTrailing c b := by
  have kept : (b.reverse.dropWhile (· == c)).isEmpty = false := by
    rw [List.isEmpty_eq_false_iff]
    exact fun empty => kept (by rw [dropTrailing, empty]; rfl)
  rw [dropTrailing, dropTrailing, List.reverse_append, List.dropWhile_append, kept]
  simp

theorem dropTrailing_append_of_eq_nil (dropped : dropTrailing c b = []) :
    dropTrailing c (a ++ b) = dropTrailing c a := by
  have dropped : b.reverse.dropWhile (· == c) = [] := List.reverse_eq_nil_iff.mp dropped
  rw [dropTrailing, dropTrailing, List.reverse_append, List.dropWhile_append, dropped]
  simp

/-- What follows another character is trimmed by itself. -/
theorem dropTrailing_append_cons (other : d ≠ c) :
    dropTrailing c (a ++ d :: b) = a ++ d :: dropTrailing c b := by
  have cons : dropTrailing c (d :: b) = d :: dropTrailing c b := by
    have single : dropTrailing c [d] = [d] := dropTrailing_of_notMem (by simpa using other.symm)
    by_cases dropped : dropTrailing c b = []
    · rw [← List.singleton_append, dropTrailing_append_of_eq_nil dropped, dropped, single]
    · exact dropTrailing_append (a := [d]) dropped
  rw [dropTrailing_append (by rw [cons]; exact List.cons_ne_nil _ _), cons]

theorem exists_eq_dropTrailing_append_replicate (c : Char) (a : List Char) :
    ∃ n, a = dropTrailing c a ++ List.replicate n c := by
  let trailing := a.reverse.takeWhile (· == c)
  have only : trailing.reverse = List.replicate trailing.length c := by
    refine List.eq_replicate_iff.mpr ⟨List.length_reverse, fun d mem => ?_⟩
    exact eq_of_beq (List.mem_takeWhile_imp (p := (· == c)) (List.mem_reverse.mp mem))
  refine ⟨trailing.length, ?_⟩
  rw [← only, dropTrailing, ← List.reverse_append, List.takeWhile_append_dropWhile,
    List.reverse_reverse]

/-- What is left does not end in the dropped character. -/
theorem exists_of_dropTrailing_ne_nil (kept : dropTrailing c a ≠ []) :
    ∃ b d, dropTrailing c a = b ++ [d] ∧ d ≠ c ∧ ∀ e ∈ b ++ [d], e ∈ a := by
  have last := List.rdropWhile_last_not (· == c) a kept
  have split := (List.dropLast_append_getLast kept).symm
  refine ⟨_, _, split, fun same => last (beq_iff_eq.mpr same), fun e mem => ?_⟩
  rw [← split] at mem
  exact (List.rdropWhile_prefix _ a).subset mem

end

end SvgLayout
