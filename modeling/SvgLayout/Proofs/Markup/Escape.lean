import SvgLayout.Proofs.Markup.Entity

/-!
# Escaping is faithful

Every replacement goes over the whole text, and over what the replacements before it have written.
The ampersand comes first and no entity contains a character that is replaced after it, so the five
of them write each character on its own, as its entity or as itself. A reader that goes through an
escaped text once therefore finds the text again, even if that looks escaped already.

## Main definitions

* `entityOrSelf` — what one character is written as.
* `unescape?` — escaped text decoded from left to right.

## Main statements

* `escapeChars_eq_flatMap` — a text is escaped character by character.
* `exists_entity_of_suffix` — an ampersand in escaped text starts an entity.
* `unescape?_escape` — decoding an escaped text gives the text.
* `escape_is_faithful` — all of this.
-/

namespace SvgLayout

/-- What a character is written as: its entity, or the character itself. -/
def entityOrSelf (c : Char) : List Char :=
  match entities.lookup c with
  | some entity => entity.toList
  | none => [c]

/-! ## One character at a time -/

theorem escapeChars_eq_entityOrSelf (c : Char) : escapeChars [c] = entityOrSelf c := by
  rcases escapeChars_singleton c with ⟨entity, mem, rfl, written⟩ | ⟨plain, written⟩
  · rw [written]
    fin_cases mem <;> rfl
  · have absent : entities.lookup c = none := by
      rw [List.lookup_eq_none_iff]
      intro entity mem
      have other : c ≠ entity.1 := by
        rintro rfl
        exact plain (List.mem_map_of_mem mem)
      simpa using other
    rw [written, entityOrSelf, absent]

/-- A text is escaped character by character. -/
theorem escapeChars_eq_flatMap (text : List Char) :
    escapeChars text = text.flatMap entityOrSelf := by
  induction text with
  | nil => rfl
  | cons c text ih =>
    rw [escapeChars_cons, escapeChars_eq_entityOrSelf, ih, List.flatMap_cons]

/-! ## Ampersands -/

/-- An entity has no ampersand but its first character. -/
theorem eq_nil_of_entity_eq {entity : Char × String} (mem : entity ∈ entities)
    {before after : List Char} (split : entity.2.toList = before ++ '&' :: after) :
    before = [] := by
  have tail : '&' ∉ entity.2.toList.tail := by
    fin_cases mem <;> decide
  cases before with
  | nil => rfl
  | cons c before =>
    rw [split] at tail
    exact absurd (by simp) tail

/-- Wherever an ampersand stands in escaped text, an entity starts. -/
theorem exists_entity_of_suffix {text after : List Char}
    (suffix : '&' :: after <:+ escapeChars text) :
    ∃ entity ∈ entities, entity.2.toList <+: '&' :: after := by
  induction text with
  | nil => simp at suffix
  | cons c text ih =>
    obtain ⟨before, split⟩ := suffix
    rw [escapeChars_cons, List.append_eq_append_iff] at split
    rcases split with ⟨inside, first, tail⟩ | ⟨more, -, rest⟩
    · cases inside with
      | nil => exact ih ⟨[], tail⟩
      | cons d inside =>
        -- The ampersand stands in what the first character is written as.
        obtain ⟨rfl, rfl⟩ := List.cons.inj tail
        rcases escapeChars_singleton c with ⟨entity, mem, -, written⟩ | ⟨plain, written⟩
        · have start := eq_nil_of_entity_eq mem (written.symm.trans first)
          rw [start, List.nil_append, written] at first
          exact ⟨entity, mem, first ▸ List.prefix_append _ _⟩
        · have amp : '&' ∈ escapeChars [c] := by
            rw [first]
            simp
          rw [written, List.mem_singleton] at amp
          exact absurd (amp ▸ by decide) plain
    · exact ih ⟨more, rest.symm⟩

/-! ## Decoding -/

/-- Escaped text decoded from left to right. There is no text if an ampersand starts none of the
five entities. -/
def unescape? (text : String) : Option String :=
  (text.toList.foldlM Decoder.step (.after [])).bind fun d =>
    if d.pending.isNone then some (String.ofList d.decoded) else none

/-- Decoding an escaped text gives the text. -/
theorem unescape?_escape (text : String) : unescape? (escape text) = some text := by
  rw [unescape?, escape, String.toList_ofList, Decoder.foldlM_escapeChars, List.nil_append]
  simp [Decoder.after]

/-- Replacing the characters one after the other in the whole text writes each of them on its own,
as its entity or as itself. So a text may be escaped in parts. Neither brackets nor quotes are left
in it, every ampersand starts an entity, and decoding gives back the text, whatever it was. -/
theorem escape_is_faithful :
    (∀ text, (escape text).toList = text.toList.flatMap entityOrSelf) ∧
      (∀ s t, escape (s ++ t) = escape s ++ escape t) ∧
      (∀ text, ∀ c ∈ ['<', '>', '"', '\''], c ∉ (escape text).toList) ∧
      (∀ text after, '&' :: after <:+ (escape text).toList →
        ∃ entity ∈ entities, entity.2.toList <+: '&' :: after) ∧
      (∀ text, unescape? (escape text) = some text) ∧
      Function.Injective escape := by
  have chars : ∀ text, (escape text).toList = escapeChars text.toList := by
    intro text
    exact String.toList_ofList
  refine ⟨?_, ?_, ?_, ?_, unescape?_escape, ?_⟩
  · intro text
    rw [chars, escapeChars_eq_flatMap]
  · intro s t
    rw [escape, String.toList_append, escapeChars_append, String.ofList_append]
    rfl
  · intro text c special
    rw [chars]
    exact notMem_escapeChars special text.toList
  · intro text after suffix
    rw [chars] at suffix
    exact exists_entity_of_suffix suffix
  · intro s t same
    have decoded := congrArg unescape? same
    rw [unescape?_escape, unescape?_escape] at decoded
    exact Option.some.inj decoded

/-- A bracket and an entity are told apart once they are escaped: the entity's own ampersand becomes
one, and both are decoded as they were. -/
theorem escape_is_faithful_bracket_entity :
    (escape "<&lt;").toList = "&lt;&amp;lt;".toList ∧ '<' ∉ (escape "<&lt;").toList ∧
      (∃ entity ∈ entities, entity.2.toList <+: "&amp;lt;".toList) ∧
      unescape? (escape "<&lt;") = some "<&lt;" := by
  obtain ⟨written, -, special, entity, decoded, -⟩ := escape_is_faithful
  have text : (escape "<&lt;").toList = "&lt;&amp;lt;".toList := (written _).trans (by decide)
  refine ⟨text, special _ '<' (by decide), entity "<&lt;" "amp;lt;".toList ?_, decoded _⟩
  rw [text]
  exact ⟨"&lt;".toList, by decide⟩

end SvgLayout
