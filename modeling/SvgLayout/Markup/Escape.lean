/-!
# Escaped text

The five characters that markup gives a meaning are written as entities. The ampersand is replaced
first, so that the entities of the others stay as they are.

## Main definitions

* `entities` — the characters and their entities, in the order of replacement.
* `escape` — a text with all of them replaced.
-/

namespace SvgLayout

/-- The characters that are never written as themselves, in the order in which they are replaced. -/
def entities : List (Char × String) :=
  [('&', "&amp;"), ('<', "&lt;"), ('>', "&gt;"), ('"', "&quot;"), ('\'', "&apos;")]

/-- A text with every occurrence of a character replaced by a string. -/
def replaceChar (c : Char) (replacement : String) (text : List Char) : List Char :=
  text.flatMap fun d => if d = c then replacement.toList else [d]

def escapeChars (text : List Char) : List Char :=
  entities.foldl (fun acc entity => replaceChar entity.1 entity.2 acc) text

/-- A text as it is written in markup. -/
def escape (text : String) : String :=
  String.ofList (escapeChars text.toList)

end SvgLayout
