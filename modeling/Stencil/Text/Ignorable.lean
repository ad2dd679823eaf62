import Stencil.Text.Ranges

/-!
# Ignorable characters

The characters that are not shown at all where they have no effect of their own: joiners and
direction marks, variation selectors, and the fillers that stand for a missing part of a Hangul
syllable. They are those with the Unicode property `Default_Ignorable_Code_Point`.
-/

namespace Stencil.Text

/-- The ranges of the Unicode property `Default_Ignorable_Code_Point`. -/
def ignorableRanges : Ranges :=
  [(0xAD, 0xAD), (0x34F, 0x34F), (0x61C, 0x61C), (0x115F, 0x1160), (0x17B4, 0x17B5),
    (0x180B, 0x180F), (0x200B, 0x200F), (0x202A, 0x202E), (0x2060, 0x206F), (0x3164, 0x3164),
    (0xFE00, 0xFE0F), (0xFEFF, 0xFEFF), (0xFFA0, 0xFFA0), (0xFFF0, 0xFFF8), (0x1BCA0, 0x1BCA3),
    (0x1D173, 0x1D17A), (0xE0000, 0xE0FFF)]

/-- Whether a character is not shown by default. -/
def isIgnorable (c : Char) : Bool :=
  ignorableRanges.contains c

example : ignorableRanges.size = 4174 := by decide +kernel
example : ['\u00AD', '\u115F', '\u200B', '\uFE0F'].all isIgnorable = true := by decide +kernel

end Stencil.Text
