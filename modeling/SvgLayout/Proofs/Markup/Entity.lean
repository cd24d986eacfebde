import SvgLayout.Markup.Escape
import Mathlib.Tactic.FinCases

/-!
# Reading escaped text

Character data is read one character at a time: an ampersand opens an entity and a semicolon ends
it. Reading an escaped text gives back the text, whatever was read before it.

## Main definitions

* `Decoder` — the text read so far and the entity that is open.
* `Decoder.step` — one more character.

## Main statements

* `escapeChars_append`, `escapeChars_singleton` — a text is escaped character by character.
* `Decoder.foldlM_escapeChars` — an escaped text is read back as it was.
-/

namespace SvgLayout

/-! ## Character by character -/

/-- Some characters of a table replaced, one after the other. -/
private def replaceTable (table : List (Char × String)) (text : List Char) : List Char :=
  table.foldl (fun acc entity => replaceChar entity.1 entity.2 acc) text

private theorem replaceTable_append (table : List (Char × String)) (xs ys : List Char) :
    replaceTable table (xs ++ ys) = replaceTable table xs ++ replaceTable table ys := by
  induction table generalizing xs ys with
  | nil => rfl
  | cons entity table ih =>
    have h : replaceChar entity.1 entity.2 (xs ++ ys) =
        replaceChar entity.1 entity.2 xs ++ replaceChar entity.1 entity.2 ys :=
      List.flatMap_append
    simp only [replaceTable, List.foldl_cons, h]
    exact ih _ _

private theorem replaceTable_of_notMem {table : List (Char × String)} {c : Char}
    (h : c ∉ table.map Prod.fst) : replaceTable table [c] = [c] := by
  induction table with
  | nil => rfl
  | cons entity table ih =>
    rw [List.map_cons, List.mem_cons, not_or] at h
    have kept : replaceChar entity.1 entity.2 [c] = [c] := by simp [replaceChar, h.1]
    simp only [replaceTable, List.foldl_cons, kept]
    exact ih h.2

/-- Both parts of a text are escaped on their own. -/
theorem escapeChars_append (xs ys : List Char) :
    escapeChars (xs ++ ys) = escapeChars xs ++ escapeChars ys :=
  replaceTable_append entities xs ys

@[simp] theorem escapeChars_nil : escapeChars [] = [] := rfl

theorem escapeChars_cons (c : Char) (cs : List Char) :
    escapeChars (c :: cs) = escapeChars [c] ++ escapeChars cs :=
  escapeChars_append [c] cs

/-- A character without an entity is written as itself. -/
theorem escapeChars_of_notMem {c : Char} (h : c ∉ entities.map Prod.fst) :
    escapeChars [c] = [c] :=
  replaceTable_of_notMem h

/-- A character with an entity is written as the entity: the ampersand, which stands in all of them,
is replaced first. -/
theorem escapeChars_of_mem {entity : Char × String} (h : entity ∈ entities) :
    escapeChars [entity.1] = entity.2.toList := by
  fin_cases h <;> rfl

/-- What one character is written as. -/
theorem escapeChars_singleton (c : Char) :
    (∃ entity ∈ entities, c = entity.1 ∧ escapeChars [c] = entity.2.toList) ∨
      (c ∉ entities.map Prod.fst ∧ escapeChars [c] = [c]) := by
  by_cases h : c ∈ entities.map Prod.fst
  · obtain ⟨entity, mem, rfl⟩ := List.mem_map.mp h
    exact .inl ⟨entity, mem, rfl, escapeChars_of_mem mem⟩
  · exact .inr ⟨h, escapeChars_of_notMem h⟩

/-- The characters that end character data or an attribute value are never written as they are. -/
theorem notMem_escapeChars {c : Char} (h : c ∈ ['<', '>', '"', '\'']) (text : List Char) :
    c ∉ escapeChars text := by
  have named : c ∈ entities.map Prod.fst := by
    fin_cases h <;> decide
  have absent : ∀ entity ∈ entities, c ∉ entity.2.toList := by
    fin_cases h <;> decide
  induction text with
  | nil => simp
  | cons d text ih =>
    rw [escapeChars_cons, List.mem_append, not_or]
    refine ⟨?_, ih⟩
    rcases escapeChars_singleton d with ⟨entity, mem, -, hd⟩ | ⟨plain, hd⟩
    · rw [hd]
      exact absent entity mem
    · rw [hd, List.mem_singleton]
      rintro rfl
      exact plain named

/-! ## Decoding -/

/-- The character that an entity stands for, by the name between `&` and `;`. -/
def entityChar : List Char → Option Char
  | ['a', 'm', 'p'] => some '&'
  | ['l', 't'] => some '<'
  | ['g', 't'] => some '>'
  | ['q', 'u', 'o', 't'] => some '"'
  | ['a', 'p', 'o', 's'] => some '\''
  | _ => none

/-- Escaped text, read up to some character: what it says, and the name, as far as it was read, of
an entity that is open. -/
structure Decoder where
  decoded : List Char
  pending : Option (List Char)

namespace Decoder

/-- A text that was read as far as `chars`, with no entity open. -/
def after (chars : List Char) : Decoder :=
  ⟨chars, none⟩

/-- One more character. Only the five entities are known. -/
def step (d : Decoder) (c : Char) : Option Decoder :=
  match d.pending with
  | none => if c = '&' then some ⟨d.decoded, some []⟩ else some (after (d.decoded ++ [c]))
  | some name =>
    if c = ';' then (entityChar name).map fun e => after (d.decoded ++ [e])
    else some ⟨d.decoded, some (name ++ [c])⟩

/-- An entity is read as its character. -/
theorem foldlM_entity {entity : Char × String} (h : entity ∈ entities) (chars : List Char) :
    entity.2.toList.foldlM step (after chars) = some (after (chars ++ [entity.1])) := by
  fin_cases h <;> rfl

/-- An escaped text is read back as it was. -/
theorem foldlM_escapeChars (text chars : List Char) :
    (escapeChars text).foldlM step (after chars) = some (after (chars ++ text)) := by
  induction text generalizing chars with
  | nil => simp
  | cons c text ih =>
    have first : (escapeChars [c]).foldlM step (after chars) = some (after (chars ++ [c])) := by
      rcases escapeChars_singleton c with ⟨entity, mem, rfl, hc⟩ | ⟨plain, hc⟩
      · rw [hc]
        exact foldlM_entity mem chars
      · have amp : c ≠ '&' := by
          rintro rfl
          exact plain (by decide)
        simp [hc, step, after, amp]
    rw [escapeChars_cons, List.foldlM_append, first]
    simpa using ih (chars ++ [c])

end Decoder

end SvgLayout
