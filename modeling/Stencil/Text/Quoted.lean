import Stencil.Text.Unprintable
import Stencil.Text.Combining
import Stencil.Text.Ignorable

/-!
# Quoted text

The form in which the library shows a text inside a message: between double quotes, with a
backslash before what would end or change it, and with every character that has no visible form
of its own spelled as its code point. A quoted text is one line of visible characters.
-/

namespace Stencil.Text

/-- A code point in braces, in lower case hexadecimal digits. -/
def codePoint (c : Char) : List Char :=
  "\\u\x7b".toList ++ Nat.toDigits 16 c.toNat ++ ['\x7d']

/-- The half width sound marks of kana, which are drawn behind the character that they change and so
can be read on their own. -/
def isSoundMark (c : Char) : Bool :=
  c == '\uFF9E' || c == '\uFF9F'

/-- Whether a character cannot be read where it stands: it is not shown, or it only changes how the
character before it is shown. -/
def isHidden (c : Char) : Bool :=
  isUnprintable c || isIgnorable c || isCombining c && !isSoundMark c

def quoteChar (c : Char) : List Char :=
  match c with
  | '\x00' => ['\\', '0']
  | '\t' => ['\\', 't']
  | '\n' => ['\\', 'n']
  | '\r' => ['\\', 'r']
  | '"' => ['\\', '"']
  | '\\' => ['\\', '\\']
  | c => if isHidden c then codePoint c else [c]

def quote (text : String) : String :=
  String.ofList ('"' :: text.toList.flatMap quoteChar ++ ['"'])

example : quoteChar '\n' = "\\n".toList ∧ quoteChar 'é' = ['é'] := by decide +kernel
example : quoteChar '\u00A0' = "\\u\x7ba0\x7d".toList := by decide +kernel
example : quoteChar '\u3164' = "\\u\x7b3164\x7d".toList := by decide +kernel
example : quoteChar '\uFF9E' = ['\uFF9E'] := by decide +kernel

end Stencil.Text
