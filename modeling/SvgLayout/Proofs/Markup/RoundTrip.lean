import SvgLayout.Markup.Basic
import SvgLayout.Proofs.Markup.Reader

/-!
# Reading what is written

Legible markup is read back as the tree it stands for: the reader returns every name, every
attribute value and all character data as they were before they were written.

## Main definitions

* `Attrs.Legible`, `Markup.Legible` — names that can be read, no key twice, nothing verbatim.
* `Content`, `Markup.addTo`, `Markup.trees` — the trees that markup stands for.

## Main statements

* `Markup.run_write` — one piece of markup is read as what it adds to the content around it.
* `Markup.readDocument_write` — a tag on a line of its own is read back.
-/

namespace SvgLayout

/-! ## Legible markup -/

/-- A name that can be read: not empty, and all characters are those of names. -/
def IsName (name : String) : Prop :=
  name.toList ≠ [] ∧ ∀ c ∈ name.toList, isNameChar c = true

/-- All keys are names and no key stands twice. -/
structure Attrs.Legible (attrs : Attrs) : Prop where
  names : ∀ entry ∈ attrs.entries, IsName entry.1
  distinct : (attrs.entries.map Prod.fst).Nodup

namespace Markup

mutual

/-- Every tag has a name and legible attributes, and nothing is written already. -/
def Legible : Markup → Prop
  | text _ => True
  | verbatim _ => False
  | empty name attrs => IsName name ∧ attrs.Legible
  | tag name attrs content => IsName name ∧ attrs.Legible ∧ LegibleAll content

def LegibleAll : List Markup → Prop
  | [] => True
  | piece :: pieces => piece.Legible ∧ LegibleAll pieces

end

theorem legibleAll_iff (pieces : List Markup) :
    LegibleAll pieces ↔ ∀ piece ∈ pieces, piece.Legible := by
  induction pieces with
  | nil => simp [LegibleAll]
  | cons piece pieces ih => simp [LegibleAll, ih]

end Markup

/-! ## The trees of markup -/

/-- The content of a tag as far as it was read: its trees, and the character data that may still go
on. -/
structure Content where
  trees : List Tree
  chars : List Char

namespace Content

def nil : Content :=
  ⟨[], []⟩

/-- The trees when the character data ends. -/
def close (c : Content) : List Tree :=
  endText c.trees c.chars

def snoc (c : Content) (tree : Tree) : Content :=
  ⟨c.close ++ [tree], []⟩

/-- The reader that has read the content of the innermost of some tags. -/
def reader (c : Content) (stack : List OpenTag) : Reader :=
  ⟨stack, c.trees, .text (.after c.chars)⟩

end Content

namespace Markup

mutual

/-- The content with a piece of markup after it. Character data joins that before it. -/
def addTo : Markup → Content → Content
  | text content, c => { c with chars := c.chars ++ content.toList }
  | verbatim _, c => c
  | empty name attrs, c => c.snoc (.tag name attrs.entries [])
  | tag name attrs content, c => c.snoc (.tag name attrs.entries (addAll content .nil).close)

def addAll : List Markup → Content → Content
  | [], c => c
  | piece :: pieces, c => addAll pieces (piece.addTo c)

end

/-- The trees that pieces of markup stand for. -/
def trees (pieces : List Markup) : List Tree :=
  (addAll pieces .nil).close

/-- The tree that a piece of markup stands for by itself. -/
def tree : Markup → Tree
  | text content => .text content
  | verbatim written => .text written
  | empty name attrs => .tag name attrs.entries []
  | tag name attrs content => .tag name attrs.entries (trees content)

/-- The piece is a tag, with or without content. -/
def IsTag : Markup → Prop
  | empty _ _ | tag _ _ _ => True
  | _ => False

/-- Character data is read as it is; there is nothing to read of the empty string. -/
theorem trees_text (content : String) :
    trees [text content] = if content = "" then [] else [.text content] := by
  simp [trees, addAll, addTo, Content.nil, Content.close, endText]

theorem isTag_element (name : String) (attrs : Attrs) (content : Option (List Markup)) :
    (element name attrs content).IsTag := by
  cases content <;> exact trivial

theorem addTo_of_isTag {m : Markup} (h : m.IsTag) (c : Content) : m.addTo c = c.snoc m.tree := by
  cases m with
  | text content => exact h.elim
  | verbatim written => exact h.elim
  | empty name attrs => rw [addTo, tree]
  | tag name attrs content => rw [addTo, tree, trees]

theorem close_snoc (c : Content) (tree : Tree) : (c.snoc tree).close = c.close ++ [tree] := rfl

/-- The end of a line after a tag. -/
theorem close_newline (c : Content) (tree : Tree) :
    (newline.addTo (c.snoc tree)).close = c.close ++ [tree, .text "\n"] := by
  rw [newline, addTo]
  simp [Content.snoc, Content.close, endText]

/-- Tags with line ends between them are read as their trees with line ends between them. -/
theorem close_lines {pieces : List Markup} (h : ∀ piece ∈ pieces, piece.IsTag) (c : Content) :
    (addAll (lines pieces) c).close = c.close ++ (pieces.map tree).intersperse (.text "\n") := by
  induction pieces generalizing c with
  | nil => simp [lines, addAll]
  | cons first pieces ih =>
    rw [List.forall_mem_cons] at h
    cases pieces with
    | nil =>
      have alone : lines [first] = [first] := rfl
      rw [alone, addAll, addAll, addTo_of_isTag h.1, close_snoc]
      rfl
    | cons second pieces =>
      have divided : lines (first :: second :: pieces) =
          first :: newline :: lines (second :: pieces) := rfl
      rw [divided, addAll, addAll, addTo_of_isTag h.1, ih h.2, close_newline, List.append_assoc]
      rfl

/-- Tags that end their lines are read as their trees with line ends after them. -/
theorem close_eachLine {pieces : List Markup} (h : ∀ piece ∈ pieces, piece.IsTag) (c : Content) :
    (addAll (pieces.flatMap fun piece => [piece, newline]) c).close =
      c.close ++ pieces.flatMap fun piece => [piece.tree, .text "\n"] := by
  induction pieces generalizing c with
  | nil => simp [addAll]
  | cons piece pieces ih =>
    rw [List.forall_mem_cons] at h
    rw [List.flatMap_cons, List.cons_append, List.singleton_append, addAll, addAll,
      addTo_of_isTag h.1, ih h.2, close_newline, List.append_assoc]
    rfl

/-- A tag around pieces on lines of their own is read as a tag around their trees, with the ends of
the lines between them. -/
theorem tree_tag_lines (name : String) (attrs : Attrs) {pieces : List Markup}
    (h : ∀ piece ∈ pieces, piece.IsTag) :
    (tag name attrs (lines pieces)).tree =
      .tag name attrs.entries ((pieces.map tree).intersperse (.text "\n")) := by
  rw [tree, trees, close_lines h]
  rfl

end Markup

/-! ## Names -/

namespace Reader

variable {stack : List OpenTag} {trees : List Tree}

private theorem ne_of_isNameChar {c d : Char} (h : isNameChar c = true)
    (hd : isNameChar d = false) : c ≠ d := by
  rintro rfl
  rw [h] at hd
  exact absurd hd (by simp)

theorem run_opening {cs : List Char} (h : ∀ c ∈ cs, isNameChar c = true) (name : List Char) :
    (Reader.mk stack trees (.opening name)).run cs =
      some ⟨stack, trees, .opening (name ++ cs)⟩ := by
  induction cs generalizing name with
  | nil => simp
  | cons c cs ih =>
    rw [List.forall_mem_cons] at h
    rw [run_cons]
    simpa [step, h.1] using ih h.2 (name ++ [c])

theorem run_closing {cs : List Char} (h : ∀ c ∈ cs, isNameChar c = true) (name : List Char) :
    (Reader.mk stack trees (.closing name)).run cs =
      some ⟨stack, trees, .closing (name ++ cs)⟩ := by
  induction cs generalizing name with
  | nil => simp
  | cons c cs ih =>
    rw [List.forall_mem_cons] at h
    have gt : c ≠ '>' := ne_of_isNameChar h.1 (by decide)
    rw [run_cons]
    simpa [step, h.1, gt] using ih h.2 (name ++ [c])

theorem run_key {cs : List Char} (h : ∀ c ∈ cs, isNameChar c = true) (head : TagHead)
    (key : List Char) :
    (Reader.mk stack trees (.key head key)).run cs =
      some ⟨stack, trees, .key head (key ++ cs)⟩ := by
  induction cs generalizing key with
  | nil => simp
  | cons c cs ih =>
    rw [List.forall_mem_cons] at h
    have eq : c ≠ '=' := ne_of_isNameChar h.1 (by decide)
    rw [run_cons]
    simpa [step, h.1, eq] using ih h.2 (key ++ [c])

/-- The name of a tag is read after `<`. -/
theorem run_name {name : String} (h : IsName name) :
    (Reader.mk stack trees .less).run name.toList = some ⟨stack, trees, .opening name.toList⟩ := by
  obtain ⟨nonempty, chars⟩ := h
  obtain ⟨c, cs, eq⟩ := List.exists_cons_of_ne_nil nonempty
  rw [eq, List.forall_mem_cons] at chars
  have slash : c ≠ '/' := ne_of_isNameChar chars.1 (by decide)
  rw [eq, run_cons]
  simpa [step, chars.1, slash] using run_opening chars.2 [c]

/-! ## Escaped text -/

/-- Between `<` and `<`, text is read by the decoder. -/
theorem run_text {cs : List Char} (h : '<' ∉ cs) (chars : Decoder) :
    (Reader.mk stack trees (.text chars)).run cs =
      (cs.foldlM Decoder.step chars).map fun chars => ⟨stack, trees, .text chars⟩ := by
  induction cs generalizing chars with
  | nil => rfl
  | cons c cs ih =>
    rw [List.mem_cons, not_or] at h
    have lt : c ≠ '<' := Ne.symm h.1
    rw [run_cons, List.foldlM_cons]
    cases hc : chars.step c with
    | none => simp [step, lt, hc]
    | some chars => simpa [step, lt, hc] using ih h.2 chars

/-- Between quotes, a value is read by the decoder. -/
theorem run_value {cs : List Char} (lt : '<' ∉ cs) (quot : '"' ∉ cs) (head : TagHead)
    (key : List Char) (chars : Decoder) :
    (Reader.mk stack trees (.value head key chars)).run cs =
      (cs.foldlM Decoder.step chars).map fun chars => ⟨stack, trees, .value head key chars⟩ := by
  induction cs generalizing chars with
  | nil => rfl
  | cons c cs ih =>
    rw [List.mem_cons, not_or] at lt quot
    have hlt : c ≠ '<' := Ne.symm lt.1
    have hquot : c ≠ '"' := Ne.symm quot.1
    rw [run_cons, List.foldlM_cons]
    cases hc : chars.step c with
    | none => simp [step, hlt, hquot, hc]
    | some chars => simpa [step, hlt, hquot, hc] using ih lt.2 quot.2 chars

theorem run_escape_text (text chars : List Char) :
    (Reader.mk stack trees (.text (.after chars))).run (escapeChars text) =
      some ⟨stack, trees, .text (.after (chars ++ text))⟩ := by
  rw [run_text (notMem_escapeChars (by simp) text), Decoder.foldlM_escapeChars]
  rfl

theorem run_escape_value (head : TagHead) (key text : List Char) :
    (Reader.mk stack trees (.value head key (.after []))).run (escapeChars text) =
      some ⟨stack, trees, .value head key (.after text)⟩ := by
  rw [run_value (notMem_escapeChars (by simp) text) (notMem_escapeChars (by simp) text),
    Decoder.foldlM_escapeChars]
  rfl

/-! ## Attributes -/

/-- In this mode a name or a value of a tag that began with `head` has just been read. -/
def Delimits (mode : Mode) (head : TagHead) : Prop :=
  ∀ stack trees c, isNameChar c = false →
    (Reader.mk stack trees mode).step c = (Reader.mk stack trees mode).delimit head c

theorem delimits_opening (name : List Char) :
    Delimits (.opening name) ⟨String.ofList name, []⟩ := by
  intro stack trees c hc
  simp [step, hc]

theorem delimits_quoted (head : TagHead) : Delimits (.quoted head) head :=
  fun _ _ _ _ => rfl

/-- One attribute is read with the value it was set to. -/
theorem run_entry {mode : Mode} {head : TagHead} (hm : Delimits mode head) {key : String}
    (hk : IsName key) (value : String) :
    (Reader.mk stack trees mode).run
        (" " ++ key ++ "=\"" ++ escape value ++ "\"").toList =
      some ⟨stack, trees, .quoted { head with attrs := head.attrs ++ [(key, value)] }⟩ := by
  obtain ⟨nonempty, chars⟩ := hk
  obtain ⟨c, cs, eq⟩ := List.exists_cons_of_ne_nil nonempty
  have name := chars
  rw [eq, List.forall_mem_cons] at name
  have blank : (Reader.mk stack trees mode).step ' ' = some ⟨stack, trees, .blank head⟩ := by
    rw [hm stack trees ' ' (by decide)]
    rfl
  have begun : (Reader.mk stack trees (.blank head)).run key.toList =
      some ⟨stack, trees, .key head key.toList⟩ := by
    rw [eq, run_cons]
    simpa [step, name.1] using run_key name.2 head [c]
  have opened : (Reader.mk stack trees (.key head key.toList)).run ['=', '"'] =
      some ⟨stack, trees, .value head key.toList (.after [])⟩ := rfl
  have closed : (Reader.mk stack trees (.value head key.toList (.after value.toList))).run ['"'] =
      some ⟨stack, trees, .quoted { head with attrs := head.attrs ++ [(key, value)] }⟩ := by
    simp [step, Decoder.after]
  have split : (" " ++ key ++ "=\"" ++ escape value ++ "\"").toList =
      ' ' :: (key.toList ++ (['=', '"'] ++ (escapeChars value.toList ++ ['"']))) := by
    simp [escape]
  rw [split, run_cons, blank, Option.bind_some, run_append, begun, Option.bind_some, run_append,
    opened, Option.bind_some, run_append, run_escape_value, Option.bind_some, closed]

variable (stack trees) in
/-- All attributes are read in order. -/
theorem run_entries {entries : List (String × String)} (h : ∀ entry ∈ entries, IsName entry.1)
    {mode : Mode} {head : TagHead} (hm : Delimits mode head) :
    ∃ mode', Delimits mode' { head with attrs := head.attrs ++ entries } ∧
      (Reader.mk stack trees mode).run (Markup.writeAttrs ⟨entries⟩).toList =
        some ⟨stack, trees, mode'⟩ := by
  induction entries generalizing mode head with
  | nil => exact ⟨mode, by simpa using hm, by simp [Markup.writeAttrs]⟩
  | cons entry entries ih =>
    rw [List.forall_mem_cons] at h
    obtain ⟨mode', hm', hrun⟩ := ih h.2
      (delimits_quoted { head with attrs := head.attrs ++ [(entry.1, entry.2)] })
    refine ⟨mode', by simpa using hm', ?_⟩
    have split : (Markup.writeAttrs ⟨entry :: entries⟩).toList =
        (" " ++ entry.1 ++ "=\"" ++ escape entry.2 ++ "\"").toList ++
          (Markup.writeAttrs ⟨entries⟩).toList := by
      simp [Markup.writeAttrs]
    rw [split, run_append, run_entry hm h.1 entry.2, Option.bind_some, hrun]

variable (stack) in
/-- The beginning of a tag is read up to its name and attributes. -/
theorem run_head {name : String} (hn : IsName name) {attrs : Attrs} (ha : attrs.Legible)
    (c : Content) :
    ∃ mode, Delimits mode ⟨name, attrs.entries⟩ ∧
      (c.reader stack).run ('<' :: (name.toList ++ (Markup.writeAttrs attrs).toList)) =
        some ⟨stack, c.close, mode⟩ := by
  obtain ⟨mode, hm, hrun⟩ :=
    run_entries stack c.close ha.names (delimits_opening name.toList)
  rw [String.ofList_toList] at hm
  refine ⟨mode, hm, ?_⟩
  have less : (c.reader stack).step '<' = some ⟨stack, c.close, .less⟩ := rfl
  rw [run_cons, less, Option.bind_some, run_append, run_name hn, Option.bind_some, hrun]

end Reader

/-! ## Markup -/

namespace Markup

open Reader

mutual

/-- A piece of markup is read as what it adds to the content before it. -/
theorem run_write : ∀ (m : Markup), m.Legible → ∀ (c : Content) (stack : List OpenTag),
    (c.reader stack).run m.write.toList = some ((m.addTo c).reader stack)
  | .text content, _, c, stack => by
    rw [write, escape, String.toList_ofList]
    exact run_escape_text _ _
  | .verbatim _, h, _, _ => by
    rw [Legible] at h
    exact h.elim
  | .empty name attrs, h, c, stack => by
    rw [Legible] at h
    obtain ⟨mode, hm, hrun⟩ := run_head stack h.1 h.2 c
    have split : (write (.empty name attrs)).toList =
        ('<' :: (name.toList ++ (writeAttrs attrs).toList)) ++ ['/', '>'] := by
      simp [write]
    have slash : (Reader.mk stack c.close mode).step '/' =
        some ⟨stack, c.close, .slash ⟨name, attrs.entries⟩⟩ := hm _ _ _ (by decide)
    rw [split, run_append, hrun, Option.bind_some, run_cons, slash]
    rfl
  | .tag name attrs content, h, c, stack => by
    rw [Legible] at h
    obtain ⟨hn, ha, hc⟩ := h
    obtain ⟨mode, hm, hrun⟩ := run_head stack hn ha c
    have split : (write (.tag name attrs content)).toList =
        ('<' :: (name.toList ++ (writeAttrs attrs).toList)) ++
          ('>' :: ((writeAll content).toList ++ ('<' :: '/' :: (name.toList ++ ['>'])))) := by
      simp [write]
    have enter : (Reader.mk stack c.close mode).step '>' =
        some (Content.nil.reader (⟨⟨name, attrs.entries⟩, c.close⟩ :: stack)) :=
      hm _ _ _ (by decide)
    have inside := run_writeAll content hc .nil (⟨⟨name, attrs.entries⟩, c.close⟩ :: stack)
    have less : ∀ (d : Content) (stack : List OpenTag),
        (d.reader stack).step '<' = some ⟨stack, d.close, .less⟩ := fun _ _ => rfl
    have slash : ∀ (stack : List OpenTag) (trees : List Tree),
        (Reader.mk stack trees .less).step '/' = some ⟨stack, trees, .closing []⟩ :=
      fun _ _ => rfl
    rw [split, run_append, hrun, Option.bind_some, run_cons, enter, Option.bind_some, run_append,
      inside, Option.bind_some, run_cons, less, Option.bind_some, run_cons, slash,
      Option.bind_some, run_append, run_closing hn.2, Option.bind_some]
    simp [step, leave, addTo, Content.snoc, Content.reader]

/-- Pieces of markup are read one after the other. -/
theorem run_writeAll : ∀ (pieces : List Markup), LegibleAll pieces →
    ∀ (c : Content) (stack : List OpenTag),
    (c.reader stack).run (writeAll pieces).toList = some ((addAll pieces c).reader stack)
  | [], _, _, _ => by simp [writeAll, addAll]
  | piece :: pieces, h, c, stack => by
    rw [LegibleAll] at h
    rw [writeAll, String.toList_append, run_append, run_write piece h.1 c stack,
      Option.bind_some, addAll]
    exact run_writeAll pieces h.2 _ stack

end

/-- A tag on a line of its own is read back with everything in it. -/
theorem readDocument_write {name : String} {attrs : Attrs} {content : List Markup}
    (h : (tag name attrs content).Legible) :
    readDocument ((tag name attrs content).write ++ "\n") =
      some (.tag name attrs.entries (trees content)) := by
  have hrun := run_write _ h .nil []
  have line : (((tag name attrs content).addTo .nil).reader []).run ['\n'] =
      some ⟨[], [.tag name attrs.entries (trees content)], .text ⟨['\n'], none⟩⟩ := by
    simp [addTo, Content.snoc, Content.nil, Content.close, endText, Content.reader, step,
      Decoder.step, Decoder.after, trees]
  have start : Reader.start = Content.nil.reader [] := rfl
  rw [readDocument, start, String.toList_append, run_append, hrun, Option.bind_some]
  have eol : "\n".toList = ['\n'] := rfl
  rw [eol, line]
  rfl

end Markup

end SvgLayout
