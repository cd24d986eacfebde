import SvgLayout.Style.Defaults

/-!
# Text widths

The width of a line of text in ems, that is in multiples of its font size. Proportional text is
measured with a table of the printable ASCII characters; every other character counts as one full
character. In monospaced text all characters are equally wide.

## Main definitions

* `characterWidths`, `characterWidth` — widths in hundredths of a full character.
* `Metrics.width` — the width of a text.
-/

namespace SvgLayout

/-- Widths of the characters from the blank to the tilde, in hundredths of a full character. -/
def characterWidths : List UInt32 :=
  [45, 55, 62, 115, 90, 132, 125, 40,
   55, 55, 71, 115, 45, 48, 45, 50,
   91, 91, 91, 91, 91, 91, 91, 91,
   91, 91, 50, 50, 120, 120, 120, 78,
   142, 102, 105, 110, 115, 105, 98, 105,
   125, 58, 58, 107, 95, 145, 125, 115,
   95, 115, 107, 95, 97, 118, 102, 150,
   100, 93, 100, 58, 50, 58, 119, 72,
   72, 86, 92, 80, 92, 85, 52, 92,
   92, 47, 47, 88, 48, 135, 92, 86,
   92, 92, 69, 75, 58, 92, 80, 121,
   81, 80, 76, 91, 49, 91, 118]

/-- The width of a character in hundredths of a full one. -/
def characterWidth (c : Char) : UInt32 :=
  if c < ' ' then 100 else (characterWidths[c.toNat - ' '.toNat]?).getD 100

/-- The width of a text in hundredths of a full character, added up in 32 bits. -/
def textWidth (text : String) : UInt32 :=
  text.toList.foldl (fun total c => total + characterWidth c) 0

inductive Metrics
  | proportional
  | monospaced

def Metrics.width {α : Type} [Scalar α] (metrics : Metrics) (text : String) : α :=
  match metrics with
  | proportional => ((textWidth text).toNat : α) / 100.0 * Defaults.characterWidth
  | monospaced => (text.length : α) * Defaults.monospaceWidth

end SvgLayout
