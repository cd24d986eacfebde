import SvgLayout.Proofs.Markup.Entity

/-!
# A reader of markup

The reference reader of the markup grammar: nested tags with double-quoted attributes, character
data, and the five predefined entities. It goes through a text once and keeps the tags that are
open on a stack, so that a tag can only be closed by its own name.

## Main definitions

* `Tree` — a piece of a document as it is read.
* `Reader`, `Reader.step` — what was read so far, and one more character.
* `readDocument` — the tree of a text that is one tag and the end of its line.
-/

namespace SvgLayout

/-- A piece of a document as it is read: a run of character data, or a tag with its content. -/
inductive Tree
  | text (content : String)
  | tag (name : String) (attrs : List (String × String)) (content : List Tree)

/-- A character of a name: no blank, and none that ends a name or a value. -/
def isNameChar (c : Char) : Bool :=
  !c.isWhitespace && !List.contains ['=', '"', '\'', '<', '>', '/'] c

/-- The beginning of a tag: its name and attributes. -/
structure TagHead where
  name : String
  attrs : List (String × String)

/-- A tag that is open, and what stands before it in its parent. -/
structure OpenTag where
  head : TagHead
  before : List Tree

/-- Where in the grammar a reader is. -/
inductive Mode
  | text (chars : Decoder)
  | less
  | opening (name : List Char)
  | closing (name : List Char)
  | blank (head : TagHead)
  | key (head : TagHead) (key : List Char)
  | equals (head : TagHead) (key : List Char)
  | value (head : TagHead) (key : List Char) (chars : Decoder)
  | quoted (head : TagHead)
  | slash (head : TagHead)

/-- What was read so far: the open tags, the innermost first, and the content of the innermost one,
without character data that goes on. -/
structure Reader where
  stack : List OpenTag
  trees : List Tree
  mode : Mode

/-- Trees followed by character data; empty character data is nothing. -/
def endText (trees : List Tree) (chars : List Char) : List Tree :=
  if chars.isEmpty then trees else trees ++ [.text (String.ofList chars)]

namespace Reader

def start : Reader :=
  ⟨[], [], .text (.after [])⟩

/-- The content of a tag begins. -/
def enter (r : Reader) (head : TagHead) : Reader :=
  ⟨⟨head, r.trees⟩ :: r.stack, [], .text (.after [])⟩

/-- A tag with its content is complete. -/
def complete (r : Reader) (head : TagHead) : Reader :=
  { r with trees := r.trees ++ [.tag head.name head.attrs []], mode := .text (.after []) }

/-- The innermost tag is closed by a name, which must be its own. -/
def leave (r : Reader) (name : String) : Option Reader :=
  match r.stack with
  | [] => none
  | tag :: stack =>
    if tag.head.name = name then
      some ⟨stack, tag.before ++ [.tag name tag.head.attrs r.trees], .text (.after [])⟩
    else none

/-- A character after a name or a value in a tag. -/
def delimit (r : Reader) (head : TagHead) (c : Char) : Option Reader :=
  if c = '>' then some (r.enter head)
  else if c = '/' then some { r with mode := .slash head }
  else if c.isWhitespace then some { r with mode := .blank head }
  else none

/-- One more character. -/
def step (r : Reader) (c : Char) : Option Reader :=
  match r.mode with
  | .text chars =>
    if c = '<' then
      if chars.pending.isNone then some ⟨r.stack, endText r.trees chars.decoded, .less⟩ else none
    else (chars.step c).map fun chars => { r with mode := .text chars }
  | .less =>
    if c = '/' then some { r with mode := .closing [] }
    else if isNameChar c then some { r with mode := .opening [c] }
    else none
  | .opening name =>
    if isNameChar c then some { r with mode := .opening (name ++ [c]) }
    else r.delimit ⟨String.ofList name, []⟩ c
  | .closing name =>
    if c = '>' then r.leave (String.ofList name)
    else if isNameChar c then some { r with mode := .closing (name ++ [c]) }
    else none
  | .blank head =>
    if isNameChar c then some { r with mode := .key head [c] } else r.delimit head c
  | .key head key =>
    if c = '=' then some { r with mode := .equals head key }
    else if isNameChar c then some { r with mode := .key head (key ++ [c]) }
    else none
  | .equals head key =>
    if c = '"' then some { r with mode := .value head key (.after []) } else none
  | .value head key chars =>
    if c = '"' then
      if chars.pending.isNone then
        let entry := (String.ofList key, String.ofList chars.decoded)
        some { r with mode := .quoted { head with attrs := head.attrs ++ [entry] } }
      else none
    else if c = '<' then none
    else (chars.step c).map fun chars => { r with mode := .value head key chars }
  | .quoted head => r.delimit head c
  | .slash head => if c = '>' then some (r.complete head) else none

def run (r : Reader) (text : List Char) : Option Reader :=
  text.foldlM step r

/-- The only tree that was read, if all tags are closed and nothing but a line end follows it. -/
def document? (r : Reader) : Option Tree :=
  match r with
  | ⟨[], [.tag name attrs content], .text ⟨['\n'], none⟩⟩ => some (.tag name attrs content)
  | _ => none

@[simp] theorem run_nil (r : Reader) : r.run [] = some r := rfl

@[simp] theorem run_cons (r : Reader) (c : Char) (text : List Char) :
    r.run (c :: text) = (r.step c).bind (·.run text) := rfl

/-- Text is read one part after the other. -/
theorem run_append (r : Reader) (xs ys : List Char) :
    r.run (xs ++ ys) = (r.run xs).bind (·.run ys) :=
  List.foldlM_append

end Reader

/-- The tree of a text that is exactly one tag, followed by the end of its line. -/
def readDocument (text : String) : Option Tree :=
  (Reader.start.run text.toList).bind Reader.document?

end SvgLayout
