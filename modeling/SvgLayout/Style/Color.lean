import SvgLayout.Number.Text

/-!
# Colours

A colour is written as it is named, or by its components.

## Main definitions

* `Color`, `Color.ofName`, `Color.text`.
-/

namespace SvgLayout

/-- A colour of a stroke or a fill. -/
inductive Color (α : Type)
  | none
  | named (name : String)
  | rgb (r g b : UInt8)
  | rgba (r g b : UInt8) (a : α)
  | raw (written : String)

namespace Color

variable {α : Type}

/-- The colour of a name, where `none` in any mixture of ASCII cases is no colour. -/
def ofName (name : String) : Color α :=
  if name.map Char.toLower = "none" then none else named name

def text [NumberText α] : Color α → String
  | none => "none"
  | named name => name
  | raw written => written
  | rgb r g b => "rgb(" ++ toString r ++ "," ++ toString g ++ "," ++ toString b ++ ")"
  | rgba r g b a =>
    "rgba(" ++ toString r ++ "," ++ toString g ++ "," ++ toString b ++ "," ++
      NumberText.shortest a ++ ")"

end Color

end SvgLayout
