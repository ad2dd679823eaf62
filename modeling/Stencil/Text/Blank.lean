import Stencil.Text.Ranges

/-!
# White space

The characters that may stand around the words of a tag: those with the Unicode property
`White_Space`. The zero width space, the byte order mark and the separators U+001C to U+001F are
not among them.
-/

namespace Stencil.Text

/-- The ranges of the Unicode property `White_Space`. -/
def blankRanges : Ranges :=
  [(0x09, 0x0D), (0x20, 0x20), (0x85, 0x85), (0xA0, 0xA0), (0x1680, 0x1680), (0x2000, 0x200A),
    (0x2028, 0x2029), (0x202F, 0x202F), (0x205F, 0x205F), (0x3000, 0x3000)]

def isBlank (c : Char) : Bool :=
  blankRanges.contains c

def skipBlank (text : List Char) : List Char :=
  text.dropWhile isBlank

example : blankRanges.size = 25 := by decide
example : ['\t', '\n', ' ', '\u00A0', '\u3000'].all isBlank = true := by decide
example : ['\u200B', '\uFEFF', '\u180E', '\x1C', 'a'].any isBlank = false := by decide

/-- Braces are not white space. -/
theorem isBlank_brace : isBlank '\x7b' = false ∧ isBlank '\x7d' = false := by decide

theorem skipBlank_suffix (text : List Char) : skipBlank text <:+ text :=
  List.dropWhile_suffix _

end Stencil.Text
