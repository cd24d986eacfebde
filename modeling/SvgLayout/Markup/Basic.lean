import SvgLayout.Markup.Attrs
import SvgLayout.Markup.Escape

/-!
# Markup trees

What is drawn is a tree of tags with attributes and text, and becomes a string in one place. Text
and attribute values are escaped when they are written.

## Main definitions

* `Markup` — a piece of markup.
* `Markup.write`, `Markup.writeAll` — its string.
* `Markup.lines` — pieces divided by line ends.
-/

namespace SvgLayout

/-- A piece of markup: character data, markup that is written already, or a tag, which is closed
where it opens if it is `empty`. -/
inductive Markup
  | text (content : String)
  | verbatim (written : String)
  | empty (name : String) (attrs : Attrs)
  | tag (name : String) (attrs : Attrs) (content : List Markup)

namespace Markup

/-- The attributes of a tag, each after a blank. -/
def writeAttrs (attrs : Attrs) : String :=
  String.join (attrs.entries.map fun entry => " " ++ entry.1 ++ "=\"" ++ escape entry.2 ++ "\"")

mutual

def write : Markup → String
  | text content => escape content
  | verbatim written => written
  | empty name attrs => "<" ++ name ++ writeAttrs attrs ++ "/>"
  | tag name attrs content =>
    "<" ++ name ++ writeAttrs attrs ++ ">" ++ writeAll content ++ "</" ++ name ++ ">"

def writeAll : List Markup → String
  | [] => ""
  | piece :: pieces => piece.write ++ writeAll pieces

end

def newline : Markup :=
  text "\n"

/-- Pieces with a line end between each two. -/
def lines (pieces : List Markup) : List Markup :=
  pieces.intersperse newline

/-- A tag with or without content. -/
def element (name : String) (attrs : Attrs) : Option (List Markup) → Markup
  | none => empty name attrs
  | some content => tag name attrs content

end Markup

end SvgLayout
