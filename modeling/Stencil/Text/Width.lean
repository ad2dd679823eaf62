import Stencil.Text.Ligature

/-!
# Display width

The number of terminal columns that a text takes: the sum of the columns of its characters, except
where characters are drawn as one. An emoji takes two columns also if it is spelled by several
characters, and the ligatures of a script take one, or none in the case of a Khmer letter below
another. A carriage return directly before a newline takes none.

A text is measured from its end, so that each character is seen together with what follows it.
-/

namespace Stencil.Text

/-- What a text begins with, as far as a character in front of it depends on it. -/
inductive Head where
  | plain
  | newline
  /-- A selector of a form, with the end of a ligature behind it or anything else. -/
  | textSelector (behind : Option Ligature)
  | emojiSelector (behind : Option Ligature)
  | ligature (part : Ligature)
  | skinTone
  | flagLetters (count : Nat)
  /-- Something that is shown as an emoji. -/
  | emoji
  /-- A joiner in front of an emoji. -/
  | joiner
  /-- The selector of the emoji form in front of such a joiner. -/
  | joinedSelector
  | joinedKeycap
  | joinedFlagLetters (count : Nat)
  /-- Tags that name a region in front of such a joiner: letters, and digits in front of those. -/
  | joinedTags (letters digits : Nat)
  deriving DecidableEq, Repr

/-- What a text begins with that begins with a character that is no part of what follows it. -/
def Head.ofChar (c : Char) : Head :=
  if c = '\n' then .newline
  else if c = Text.textSelector then .textSelector none
  else if c = Text.emojiSelector then .emojiSelector none
  else if isSkinTone c then .skinTone
  else if isFlagLetter c then .flagLetters 1
  else if isEmoji c then .emoji
  else (Ligature.ofChar? c).elim .plain .ligature

/-- The columns of a text, and what it begins with. -/
structure Measure where
  columns : Nat
  head : Head
  deriving DecidableEq, Repr

def Measure.empty : Measure := ⟨0, .plain⟩

/-- The measure of a text with a character in front of it that is no part of what follows it. -/
def Measure.prependApart (c : Char) (text : Measure) : Measure :=
  ⟨text.columns + Text.columns c, .ofChar c⟩

/-- The measure of a text with a character in front of it, where the text begins with the end of a
ligature, if with anything. Selectors leave the ligature whole. -/
def Measure.prependTo (behind : Option Ligature) (c : Char) (text : Measure) : Measure :=
  match behind with
  | none => text.prependApart c
  | some part =>
    if c = Text.textSelector then ⟨text.columns, .textSelector behind⟩
    else if c = Text.emojiSelector then ⟨text.columns, .emojiSelector behind⟩
    else
      match part.prepend? c text.columns with
      | some (columns, rest) => ⟨columns, rest.elim .plain .ligature⟩
      | none => text.prependApart c

/-- The measure of a text with one more character in front of it. Of the letters in front of a
joiner a pair is a flag and so belongs to the emoji, and a letter left over does not. -/
def Measure.prepend (c : Char) (text : Measure) : Measure :=
  let apart := text.prependApart c
  let joined (head : Head) : Measure := ⟨text.columns, head⟩
  match text.head with
  | .plain => apart
  | .newline => if c = '\r' then joined .plain else apart
  | .textSelector behind =>
    if isEmoji c && hasTwoForms c && !isEnclosedIdeograph c then ⟨text.columns + 1, .plain⟩
    else text.prependTo behind c
  | .emojiSelector behind =>
    if hasTwoForms c then ⟨text.columns + 2, .emoji⟩ else text.prependTo behind c
  | .ligature part => text.prependTo (some part) c
  | .skinTone =>
    if takesSkinTone c then joined .emoji else if c = Text.joiner then joined .joiner else apart
  | .flagLetters count =>
    if isFlagLetter c then ⟨text.columns + 1, .flagLetters (count + 1)⟩
    else if c = Text.joiner && 2 ≤ count then joined .joiner
    else apart
  | .emoji => if c = Text.joiner then joined .joiner else apart
  | .joiner =>
    if c = Text.emojiSelector then joined .joinedSelector
    else if c = keycap then joined .joinedKeycap
    else if isFlagLetter c then ⟨text.columns + 1, .joinedFlagLetters 1⟩
    else if isSkinTone c then joined .skinTone
    else if isTagEnd c then joined (.joinedTags 0 0)
    else if isEmoji c then joined .emoji
    else apart
  | .joinedSelector => if hasTwoForms c then joined .emoji else apart
  | .joinedKeycap => if c = Text.emojiSelector then joined .joinedSelector else apart
  | .joinedFlagLetters count =>
    if isFlagLetter c then
      ⟨if count % 2 = 0 then text.columns + 3 else text.columns - 1, .joinedFlagLetters (count + 1)⟩
    else if c = Text.joiner && 2 ≤ count then joined .joiner
    else apart
  | .joinedTags letters digits =>
    if isTagLetter c && digits = 0 && letters < 6 then joined (.joinedTags (letters + 1) 0)
    else if isTagDigit c && letters ≤ 4 && digits < 3 then joined (.joinedTags letters (digits + 1))
    else if isTaggedFlag c && (digits = 3 || digits = 0 && 3 ≤ letters) then joined .emoji
    else apart

def measure (text : List Char) : Measure :=
  text.foldr Measure.prepend .empty

/-- The columns of a text. -/
def width (text : List Char) : Nat :=
  (measure text).columns

example : width "a日é".toList = 4 := by decide +kernel
example : width "e\u0301\u200B\t\r\n\r".toList = 3 := by decide +kernel
/-- Lam and alef, alef and lamed, a Khmer letter below another, and two joined consonants. -/
example : (["\u0644\u0627", "\u05D0\u200D\u05DC", "\u1780\u17D2\u1780", "\u2D3E\u2D7F\u2D4F"].map
    fun text => width text.toList) = [1, 1, 1, 1] := by decide +kernel
/-- A heart in its emoji form, a coloured hand, a key, a flag and a couple. -/
example : (["❤\uFE0F", "👍🏽", "1\uFE0F\u20E3", "🇫🇷", "👩\u200D❤\uFE0F\u200D👨"].map
    fun text => width text.toList) = [2, 2, 2, 2, 2] := by decide +kernel
/-- Characters in their text forms, and an emoji that has none. -/
example : (["❤", "👍\uFE0E", "⏫\uFE0E", "🔥\uFE0E"].map fun text => width text.toList) =
    [1, 1, 1, 2] := by decide +kernel

end Stencil.Text
