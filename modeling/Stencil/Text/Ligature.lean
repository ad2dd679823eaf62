import Stencil.Text.Columns
import Stencil.Text.Emoji

/-!
# Ligatures

Characters of one script that are drawn as a single character where they stand together. A text
that begins with the end of a ligature is kept as a `Ligature`, and a character in front of it
either belongs to the ligature or shows that there is none.
-/

namespace Stencil.Text

/-! ## Letters -/

/-- The ranges of the Arabic letters of the shape of an alef. -/
def alefRanges : Ranges :=
  [(0x622, 0x623), (0x625, 0x625), (0x627, 0x627), (0x671, 0x673), (0x675, 0x675), (0x773, 0x774),
    (0x870, 0x882)]

/-- The ranges of the Arabic letters of the shape of a lam. -/
def lamRanges : Ranges :=
  [(0x644, 0x644), (0x6B5, 0x6B8), (0x76A, 0x76A), (0x8A6, 0x8A6), (0x8C7, 0x8C7)]

/-- The ranges of the Khmer letters that can stand below another one. -/
def khmerSubscriptRanges : Ranges :=
  [(0x1780, 0x1782), (0x1784, 0x1787), (0x1789, 0x178C), (0x178E, 0x1793), (0x1795, 0x1798),
    (0x179B, 0x179D), (0x17A0, 0x17A0), (0x17A2, 0x17A2), (0x17A7, 0x17A7), (0x17AB, 0x17AC),
    (0x17AF, 0x17AF)]

def tifinaghRanges : Ranges :=
  [(0x2D31, 0x2D65), (0x2D6F, 0x2D6F)]

/-- The ranges of the Lisu tones that begin a pair, and of those that end one. -/
def lisuToneRanges : Ranges × Ranges :=
  ([(0xA4F8, 0xA4FB)], [(0xA4FC, 0xA4FD)])

/-! ## Marks between letters -/

/-- The ranges of the characters without a column that separate Arabic letters, which are those
that do not have the Unicode property `Joining_Type=Transparent`. -/
def separatingRanges : Ranges :=
  [(0x605, 0x605), (0x890, 0x891), (0x8E2, 0x8E2), (0x9BE, 0x9BE), (0x9D7, 0x9D7), (0xB3E, 0xB3E),
    (0xB57, 0xB57), (0xBBE, 0xBBE), (0xBD7, 0xBD7), (0xCC0, 0xCC0), (0xCC2, 0xCC2), (0xCC7, 0xCC8),
    (0xCCA, 0xCCB), (0xCD5, 0xCD6), (0xD3E, 0xD3E), (0xD4E, 0xD4E), (0xD57, 0xD57), (0xDCF, 0xDCF),
    (0xDDF, 0xDDF), (0x1160, 0x11FF), (0x180E, 0x180E), (0x1B35, 0x1B35), (0x1B3B, 0x1B3B),
    (0x1B3D, 0x1B3D), (0x1B43, 0x1B43), (0x200C, 0x200D), (0x2065, 0x2069), (0x302E, 0x302F),
    (0x3164, 0x3164), (0xA8FA, 0xA8FA), (0xD7B0, 0xD7C6), (0xD7CB, 0xD7FB), (0xFF9E, 0xFFA0),
    (0xFFF0, 0xFFF8), (0x111C2, 0x111C3), (0x1133E, 0x1133E), (0x11357, 0x11357),
    (0x114B0, 0x114B0), (0x114BD, 0x114BD), (0x115AF, 0x115AF), (0x11930, 0x11930),
    (0x1193F, 0x1193F), (0x11941, 0x11941), (0x11A3A, 0x11A3A), (0x11A84, 0x11A89),
    (0x11D46, 0x11D46), (0x11F02, 0x11F02), (0x1D165, 0x1D165), (0x1D16E, 0x1D172),
    (0xE0000, 0xE0000), (0xE0002, 0xE001F), (0xE0080, 0xE00FF), (0xE01F0, 0xE0FFF)]

/-- Whether a character leaves the Arabic letters around it joined. -/
def isTransparent (c : Char) : Bool :=
  zeroWidthRanges.contains c && !separatingRanges.contains c

/-- The ranges of the combining marks that are ignored by default. -/
def ignorableMarkRanges : Ranges :=
  [(0x34F, 0x34F), (0x17B4, 0x17B5), (0x180B, 0x180D), (0x180F, 0x180F), (0xFE00, 0xFE0F),
    (0xE0100, 0xE01EF)]

/-! ## Ends of ligatures -/

/-- The end of a ligature, where a flag tells whether a joiner is in front of it. -/
inductive Ligature where
  | alef
  | lamed (joined : Bool)
  /-- The Buginese letter ya, alone and behind a joiner with the vowel sign i. -/
  | ya (joined : Bool)
  | vowelAndYa
  /-- A Tifinagh consonant, alone and behind the consonant joiner. -/
  | consonant (joined : Bool)
  | joinedConsonant
  /-- The second of a pair of Lisu tones. -/
  | tone
  /-- The Old Turkic letter i. -/
  | orkhon (joined : Bool)
  /-- A Khmer letter that can stand below another one. -/
  | khmer
  deriving DecidableEq, Repr

namespace Ligature

/-- The ligature that a character may be the end of. -/
def ofChar? (c : Char) : Option Ligature :=
  if alefRanges.contains c then some .alef
  else if c = '\u05DC' then some (.lamed false)
  else if c = '\u1A10' then some (.ya false)
  else if tifinaghRanges.contains c then some (.consonant false)
  else if lisuToneRanges.2.contains c then some .tone
  else if c.toNat = 0x10C03 then some (.orkhon false)
  else if khmerSubscriptRanges.contains c then some .khmer
  else none

/-- The end of a ligature with a joiner in front of it. -/
def join : Ligature → Ligature
  | .lamed _ => .lamed true
  | .ya _ => .ya true
  | .consonant _ => .consonant true
  | .orkhon _ => .orkhon true
  | part => part

/-- A letter in front of the end of a ligature, if it belongs to the ligature. The result is the
columns of the text, of which there were `columns`, and what of the ligature can still go on. The
consonant joiner has a column only where it joins nothing, and a letter below another one none. -/
def letter? (c : Char) (columns : Nat) : Ligature → Option (Nat × Option Ligature)
  | .alef => if lamRanges.contains c then some (columns, none) else none
  | .lamed true => if c = '\u05D0' then some (columns, none) else none
  | .ya true => if c = '\u1A17' then some (columns, some .vowelAndYa) else none
  | .vowelAndYa => if c = '\u1A15' then some (columns, none) else none
  | .consonant joined =>
    if c = '\u2D7F' then some (columns + 1, some .joinedConsonant)
    else if joined && tifinaghRanges.contains c then some (columns, none)
    else none
  | .joinedConsonant => if tifinaghRanges.contains c then some (columns - 1, none) else none
  | .tone => if lisuToneRanges.1.contains c then some (columns, none) else none
  | .orkhon true => if c.toNat = 0x10C32 then some (columns, none) else none
  | .khmer => if c = '\u17D2' then some (columns - 1, none) else none
  | _ => none

/-- A mark in front of the end of a ligature, if the ligature can go on with it. -/
def mark? (c : Char) : Ligature → Option Ligature
  | .alef => if isTransparent c then some .alef else none
  | part =>
    if c = joiner then some part.join
    else if ignorableMarkRanges.contains c then some part
    else none

/-- Any character in front of the end of a ligature, if the ligature can go on with it. -/
def prepend? (c : Char) (columns : Nat) (part : Ligature) : Option (Nat × Option Ligature) :=
  (part.letter? c columns).or ((part.mark? c).map fun part => (columns, some part))

end Ligature

example : alefRanges.size = 29 ∧ lamRanges.size = 8 ∧ ignorableMarkRanges.size = 263 := by
  decide +kernel
example : Ligature.ofChar? '\u0627' = some .alef := by decide +kernel
example : Ligature.alef.prepend? '\u0644' 1 = some (1, none) := by decide +kernel

end Stencil.Text
