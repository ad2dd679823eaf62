import Mathlib.Data.List.Basic
import Stencil.Json.Parser

/-!
# The grammar of JSON

Which texts spell a document, told without reading them. White space may stand around the document,
around every item, and around every name and every value of an object. The digits of numbers and the
escapes of strings are any that the grammar has. Names may repeat, and nothing limits how deep
arrays and objects are nested.

The reader finds the document that a text spells. What stands behind a value does not matter, as
long as it cannot continue a number.

1. `Numeral.read?_append`: a number is read.
2. `Json.Parser.string?_append`: the inside of a string is read, with its closing quote.
3. `Json.Spelled.reads`: a value is read with the text behind it.
4. `Json.ofText?_of_document`: a text holds the document that it spells.
-/

namespace Stencil

/-! ## Numbers -/

namespace Numeral

structure IsDigits (text : List Char) : Prop where
  nonempty : text ≠ []
  all : ∀ c ∈ text, c.isDigit = true

/-- The digits before the point, where a zero stands alone. -/
inductive IsWhole : List Char → Prop
  | zero : IsWhole ['0']
  | digits {text : List Char} (digits : IsDigits text) (leading : text.head? ≠ some '0') :
      IsWhole text

/-- The digits behind the point, if there is one, and how they are written. -/
inductive SpelledFraction : List Char → List Char → Prop
  | absent : SpelledFraction [] []
  | point {text : List Char} (digits : IsDigits text) : SpelledFraction text ('.' :: text)

inductive SpelledExponent : Option Exponent → List Char → Prop
  | absent : SpelledExponent none []
  | unsigned {letter : Char} {text : List Char} (power : letter = 'e' ∨ letter = 'E')
      (digits : IsDigits text) :
      SpelledExponent (some ⟨Nat.ofDigitChars 10 text 0, false⟩) (letter :: text)
  | plus {letter : Char} {text : List Char} (power : letter = 'e' ∨ letter = 'E')
      (digits : IsDigits text) :
      SpelledExponent (some ⟨Nat.ofDigitChars 10 text 0, true⟩) (letter :: '+' :: text)
  | minus {letter : Char} {text : List Char} (power : letter = 'e' ∨ letter = 'E')
      (digits : IsDigits text) :
      SpelledExponent (some ⟨-Nat.ofDigitChars 10 text 0, false⟩) (letter :: '-' :: text)

/-- A number and how it is written. -/
inductive Spelled : Numeral → List Char → Prop
  | unsigned {whole fraction point power : List Char} {exponent : Option Exponent}
      (isWhole : IsWhole whole) (behind : SpelledFraction fraction point)
      (last : SpelledExponent exponent power) :
      Spelled ⟨false, Nat.ofDigitChars 10 (whole ++ fraction) 0, fraction.length, exponent⟩
        (whole ++ (point ++ power))
  | minus {whole fraction point power : List Char} {exponent : Option Exponent}
      (isWhole : IsWhole whole) (behind : SpelledFraction fraction point)
      (last : SpelledExponent exponent power) :
      Spelled ⟨true, Nat.ofDigitChars 10 (whole ++ fraction) 0, fraction.length, exponent⟩
        ('-' :: (whole ++ (point ++ power)))

/-- No number goes on in such a text. -/
def Ends (rest : List Char) : Prop :=
  ∀ c ∈ rest.head?, c.isDigit = false ∧ c ≠ '.' ∧ c ≠ 'e' ∧ c ≠ 'E'

theorem ends_nil : Ends [] := nofun

theorem ends_cons {c : Char} {rest : List Char}
    (other : c.isDigit = false ∧ c ≠ '.' ∧ c ≠ 'e' ∧ c ≠ 'E') : Ends (c :: rest) := by
  intro d mem
  cases mem
  exact other

theorem IsDigits.exists_cons {text : List Char} (digits : IsDigits text) :
    ∃ c cs, text = c :: cs ∧ c.isDigit = true := by
  cases text with
  | nil => exact absurd rfl digits.nonempty
  | cons c cs => exact ⟨c, cs, rfl, digits.all c List.mem_cons_self⟩

theorem IsWhole.exists_cons {text : List Char} (isWhole : IsWhole text) :
    ∃ c cs, text = c :: cs ∧ c.isDigit = true := by
  cases isWhole with
  | zero => exact ⟨'0', [], rfl, rfl⟩
  | digits digits _ => exact digits.exists_cons

/-- The digits in front of a text that does not begin with a digit. -/
theorem digits?_append {found rest : List Char} (digits : IsDigits found)
    (ends : ∀ c ∈ rest.head?, c.isDigit = false) :
    digits? (found ++ rest) = some (found, rest) := by
  have stops : rest.takeWhile Char.isDigit = [] ∧ rest.dropWhile Char.isDigit = rest := by
    cases rest with
    | nil => exact ⟨rfl, rfl⟩
    | cons c rest => simp [ends c rfl]
  rw [digits?, List.takeWhile_append_of_pos digits.all, List.dropWhile_append_of_pos digits.all,
    stops.1, stops.2, List.append_nil]
  simp [digits.nonempty]

theorem whole?_append {whole rest : List Char} (isWhole : IsWhole whole)
    (ends : ∀ c ∈ rest.head?, c.isDigit = false) : whole? (whole ++ rest) = some (whole, rest) := by
  cases isWhole with
  | zero => rfl
  | digits digits leading =>
    have found := digits?_append digits ends
    obtain ⟨c, cs, rfl, _⟩ := digits.exists_cons
    unfold whole?
    split
    · next same =>
      cases same
      exact absurd rfl leading
    · exact found

theorem fraction?_append {fraction point rest : List Char} (behind : SpelledFraction fraction point)
    (ends : ∀ c ∈ rest.head?, c.isDigit = false ∧ c ≠ '.') :
    fraction? (point ++ rest) = some (fraction, rest) := by
  cases behind with
  | absent =>
    rw [List.nil_append]
    unfold fraction?
    split
    · exact absurd rfl (ends '.' rfl).2
    · rfl
  | point digits => exact digits?_append digits fun c mem => (ends c mem).1

theorem power?_append {text rest : List Char} (digits : IsDigits text)
    (ends : ∀ c ∈ rest.head?, c.isDigit = false) :
    power? (text ++ rest) = some (Nat.ofDigitChars 10 text 0, rest) := by
  rw [power?, digits?_append digits ends, Option.map_some]

theorem exponent?_append {exponent : Option Exponent} {power rest : List Char}
    (last : SpelledExponent exponent power) (ends : Ends rest) :
    exponent? (power ++ rest) = some (exponent, rest) := by
  have closed : ∀ c ∈ rest.head?, c.isDigit = false := fun c mem => (ends c mem).1
  cases last with
  | absent =>
    cases rest with
    | nil => rfl
    | cons c rest =>
      obtain ⟨_, _, lower, upper⟩ := ends c rfl
      simp [exponent?, lower, upper]
  | unsigned power digits =>
    have read := power?_append digits closed
    obtain ⟨c, cs, rfl, digit⟩ := digits.exists_cons
    rw [List.cons_append, exponent?, if_pos power, read, Option.map_some]
    all_goals
      intro behind same
      cases same
      cases digit
  | plus power digits =>
    rw [List.cons_append, List.cons_append, exponent?, if_pos power]
    simp only [power?_append digits closed, Option.map_some]
  | minus power digits =>
    rw [List.cons_append, List.cons_append, exponent?, if_pos power]
    simp only [power?_append digits closed, Option.map_some]

theorem head?_exponent {exponent : Option Exponent} {power rest : List Char}
    (last : SpelledExponent exponent power) (ends : Ends rest) :
    ∀ c ∈ (power ++ rest).head?, c.isDigit = false ∧ c ≠ '.' := by
  intro c mem
  cases last with
  | absent => exact ⟨(ends c mem).1, (ends c mem).2.1⟩
  | unsigned power _ | plus power _ | minus power _ =>
    cases mem
    rcases power with rfl | rfl <;> decide

theorem head?_fraction {fraction point rest : List Char} (behind : SpelledFraction fraction point)
    (ends : ∀ c ∈ rest.head?, c.isDigit = false) :
    ∀ c ∈ (point ++ rest).head?, c.isDigit = false := by
  intro c mem
  cases behind with
  | absent => exact ends c mem
  | point _ =>
    cases mem
    rfl

/-- A number is read with the text behind it. -/
theorem read?_append {n : Numeral} {text rest : List Char} (spelled : n.Spelled text)
    (ends : Ends rest) : read? (text ++ rest) = some (n, rest) := by
  cases spelled with
  | @unsigned whole fraction point power exponent isWhole behind last =>
    have power_ends := head?_exponent last ends
    have read := whole?_append isWhole
      (head?_fraction behind fun c mem => (power_ends c mem).1)
    obtain ⟨c, cs, rfl, digit⟩ := isWhole.exists_cons
    rw [List.append_assoc, List.append_assoc, List.cons_append] at *
    unfold read?
    split
    next negative behind sign =>
    split at sign
    · next same =>
      cases same
      cases digit
    · cases sign
      simp only [read, fraction?_append behind power_ends, exponent?_append last ends, bind,
        Option.bind]
  | minus isWhole behind last =>
    have power_ends := head?_exponent last ends
    have read := whole?_append isWhole
      (head?_fraction behind fun c mem => (power_ends c mem).1)
    rw [List.cons_append, List.append_assoc, List.append_assoc]
    simp only [read?, read, fraction?_append behind power_ends, exponent?_append last ends, bind,
      Option.bind]

end Numeral

namespace Json

/-! ## Strings -/

namespace Parser

/-- What one step through a string spells, and how it is written. -/
inductive Piece.Spelled : Piece → List Char → Prop
  | plain {c : Char} (quote : c ≠ '"') (backslash : c ≠ '\\') (visible : ¬ c.toNat < 0x20) :
      Spelled (.char c) [c]
  | letter {letter c : Char} (spells : unescape? letter = some c) :
      Spelled (.char c) ['\\', letter]
  | unit {a b c d : Char} {piece : Piece} (spells : unit? a b c d = some piece) :
      Spelled piece ['\\', 'u', a, b, c, d]

inductive SpelledPieces : List Piece → List Char → Prop
  | nil : SpelledPieces [] []
  | cons {piece : Piece} {pieces : List Piece} {text more : List Char}
      (first : piece.Spelled text) (others : SpelledPieces pieces more) :
      SpelledPieces (piece :: pieces) (text ++ more)

/-- A letter behind a backslash is read as the character that it spells. -/
theorem pieces?_letter {letter c : Char} (spells : unescape? letter = some c)
    (text : List Char) :
    pieces? ('\\' :: letter :: text) =
      (pieces? text).map fun (more, rest) => (.char c :: more, rest) := by
  rw [pieces?.eq_def]
  split
  · next same => cases same
  · next same =>
    cases same
    cases spells
  · next _ same =>
    cases same
    simp only [spells, bind, Option.bind]
    cases pieces? text <;> rfl
  · next c' rest notQuote notUnit notLetter same =>
    cases same
    exact absurd rfl (notLetter letter text rfl)
  · next same => cases same

/-- A character that needs no escape is read as it stands. -/
theorem pieces?_plain {c : Char} (quote : c ≠ '"') (backslash : c ≠ '\\')
    (visible : ¬ c.toNat < 0x20) (text : List Char) :
    pieces? (c :: text) = (pieces? text).map fun (more, rest) => (.char c :: more, rest) := by
  rw [pieces?.eq_def]
  split
  · next same =>
    cases same
    exact absurd rfl quote
  · next same =>
    cases same
    exact absurd rfl backslash
  · next _ same =>
    cases same
    exact absurd rfl backslash
  · next same =>
    cases same
    rw [if_neg visible]
  · next same => cases same

/-- One step through a string reads what it spells. -/
theorem pieces?_append {piece : Piece} {text : List Char} (spelled : piece.Spelled text)
    (more : List Char) :
    pieces? (text ++ more) = (pieces? more).map fun (pieces, rest) => (piece :: pieces, rest) := by
  cases spelled with
  | plain quote backslash visible => exact pieces?_plain quote backslash visible more
  | letter spells => exact pieces?_letter spells more
  | unit spells =>
    simp only [List.cons_append, List.nil_append, pieces?, spells, bind, Option.bind]
    cases pieces? more <;> rfl

theorem pieces?_quote {pieces : List Piece} {text : List Char} (spelled : SpelledPieces pieces text)
    (rest : List Char) : pieces? (text ++ '"' :: rest) = some (pieces, rest) := by
  induction spelled with
  | nil => rfl
  | cons first _ ih => rw [List.append_assoc, pieces?_append first, ih, Option.map_some]

end Parser

open Stencil.Json.Parser

/-- A string in quotes. It is a text if every half of a surrogate pair is half of a pair. -/
inductive SpelledString : Option String → List Char → Prop
  | quoted {pieces : List Piece} {text : List Char} (inner : SpelledPieces pieces text) :
      SpelledString ((join? pieces).map String.ofList) ('"' :: (text ++ ['"']))

/-- A string is read with the text behind it. -/
theorem Parser.string?_append {value : Option String} {text : List Char}
    (spelled : SpelledString value text) (rest : List Char) :
    ∃ inner, text ++ rest = '"' :: inner ∧ string? inner = some (value, rest) := by
  cases spelled with
  | @quoted pieces text inner =>
    refine ⟨text ++ '"' :: rest, by rw [List.cons_append, List.append_assoc]; rfl, ?_⟩
    rw [string?, pieces?_quote inner, Option.map_some]

/-! ## Documents -/

/-- A part of a document with the white space around it. -/
structure Padded where
  before : List Char
  part : List Char
  after : List Char
  before_blank : before.all isSpace = true
  after_blank : after.all isSpace = true

def Padded.chars (padded : Padded) : List Char :=
  padded.before ++ (padded.part ++ padded.after)

/-- An item of an array, or the value of a field, and how it is written. -/
structure Item where
  doc : Json
  padded : Padded

structure Field where
  name : Option String
  label : Padded
  item : Item

def Field.chars (field : Field) : List Char :=
  field.label.chars ++ ':' :: field.item.padded.chars

/-- A document and how it is written, without white space around it. -/
inductive Spelled : Json → List Char → Prop
  | null : Spelled .null "null".toList
  | true : Spelled (.bool true) "true".toList
  | false : Spelled (.bool false) "false".toList
  | number {n : Numeral} {text : List Char} (spelled : n.Spelled text) : Spelled (.number n) text
  | string {value : Option String} {text : List Char} (spelled : SpelledString value text) :
      Spelled (.string value) text
  | noItems {space : List Char} (blank : space.all isSpace = true) :
      Spelled (.array []) ('[' :: (space ++ [']']))
  | array {items : List Item} (nonempty : items ≠ [])
      (spelled : ∀ item ∈ items, Spelled item.doc item.padded.part) :
      Spelled (.array (items.map Item.doc))
        ('[' :: ([','].intercalate (items.map (·.padded.chars)) ++ [']']))
  | noFields {space : List Char} (blank : space.all isSpace = true) :
      Spelled (.object []) ('\x7b' :: (space ++ ['\x7d']))
  | object {fields : List Field} (nonempty : fields ≠ [])
      (names : ∀ field ∈ fields, SpelledString field.name field.label.part)
      (spelled : ∀ field ∈ fields, Spelled field.item.doc field.item.padded.part) :
      Spelled (.object (fields.map fun field => (field.name, field.item.doc)))
        ('\x7b' :: ([','].intercalate (fields.map Field.chars) ++ ['\x7d']))

/-- A document and the text that it is written in. -/
inductive Document (doc : Json) : String → Prop
  | intro (padded : Padded) (spelled : doc.Spelled padded.part) :
      Document doc (String.ofList padded.chars)

/-! ## Reading -/

namespace Parser

theorem skipSpace_append {space : List Char} (blank : space.all isSpace = true)
    (text : List Char) : skipSpace (space ++ text) = skipSpace text :=
  List.dropWhile_append_of_pos fun _ mem => List.all_eq_true.mp blank _ mem

theorem skipSpace_of_not_isSpace {c : Char} (cs : List Char) (h : isSpace c = false) :
    skipSpace (c :: cs) = c :: cs := by
  simp [skipSpace, h]

/-- White space in front of a value does not matter. -/
theorem value?_blank {space : List Char} (blank : space.all isSpace = true) (fuel : Nat)
    (text : List Char) : value? fuel (space ++ text) = value? fuel text := by
  cases fuel with
  | zero => rw [value?, value?]
  | succ fuel => rw [value?, value?, skipSpace_append blank]

theorem ends_of_isSpace {c : Char} (space : isSpace c = true) :
    c.isDigit = false ∧ c ≠ '.' ∧ c ≠ 'e' ∧ c ≠ 'E' := by
  simp only [isSpace, Bool.or_eq_true, beq_iff_eq] at space
  rcases space with ((rfl | rfl) | rfl) | rfl <;> decide

/-- White space ends a number. -/
theorem ends_append {space rest : List Char} (blank : space.all isSpace = true)
    (ends : Numeral.Ends rest) : Numeral.Ends (space ++ rest) := by
  cases space with
  | nil => exact ends
  | cons c space =>
    rw [List.all_cons, Bool.and_eq_true] at blank
    exact Numeral.ends_cons (ends_of_isSpace blank.1)

theorem ne_of_isDigit {c d : Char} (digit : c.isDigit = true) (other : d.isDigit = false) :
    c ≠ d := by
  rintro rfl
  rw [digit] at other
  cases other

/-- What a number begins with. -/
theorem exists_cons_of_number {n : Numeral} {text : List Char} (spelled : n.Spelled text) :
    ∃ c cs, text = c :: cs ∧ (c = '-' ∨ c.isDigit = true) := by
  cases spelled with
  | unsigned isWhole _ _ =>
    obtain ⟨c, cs, rfl, digit⟩ := isWhole.exists_cons
    exact ⟨c, _, List.cons_append .., .inr digit⟩
  | minus _ _ _ => exact ⟨'-', _, rfl, .inl rfl⟩

theorem ne_of_number {c d : Char} (begins : c = '-' ∨ c.isDigit = true)
    (other : d ≠ '-' ∧ d.isDigit = false) : c ≠ d := by
  rcases begins with rfl | digit
  · exact other.1.symm
  · exact ne_of_isDigit digit other.2

theorem isSpace_of_number {c : Char} (begins : c = '-' ∨ c.isDigit = true) : isSpace c = false := by
  have differs := fun d => ne_of_number (d := d) begins
  simp [isSpace, differs ' ' (by decide), differs '\n' (by decide), differs '\t' (by decide),
    differs '\r' (by decide)]

/-- A value begins neither with white space nor as the end of an array. -/
theorem exists_cons_of_spelled {doc : Json} {text : List Char} (spelled : doc.Spelled text) :
    ∃ c cs, text = c :: cs ∧ isSpace c = false ∧ c ≠ ']' := by
  cases spelled with
  | number spelled =>
    obtain ⟨c, cs, rfl, begins⟩ := exists_cons_of_number spelled
    exact ⟨c, cs, rfl, isSpace_of_number begins, ne_of_number begins (by decide)⟩
  | string spelled =>
    cases spelled
    exact ⟨_, _, rfl, rfl, by decide⟩
  | _ => exact ⟨_, _, rfl, rfl, by decide⟩

/-- A value is read with a text behind it that cannot continue a number. Its length is always
enough fuel. -/
def Reads (doc : Json) (text : List Char) : Prop :=
  ∀ fuel rest, text.length ≤ fuel → Numeral.Ends rest →
    value? fuel (text ++ rest) = some (doc, rest)

theorem intercalate_cons {part : List Char} {parts : List (List Char)} (more : parts ≠ [])
    (rest : List Char) : [','].intercalate (part :: parts) ++ rest =
      part ++ ',' :: ([','].intercalate parts ++ rest) := by
  rw [List.intercalate_cons_of_ne_nil more, List.append_assoc, List.append_assoc,
    List.singleton_append]

theorem length_intercalate_cons {part : List Char} {parts : List (List Char)}
    (more : parts ≠ []) : ([','].intercalate (part :: parts)).length =
      part.length + ([','].intercalate parts).length + 1 := by
  rw [List.intercalate_cons_of_ne_nil more, List.length_append, List.length_append,
    List.length_singleton]
  omega

theorem skipSpace_padded {padded : Padded} {c : Char} {cs : List Char}
    (part : padded.part = c :: cs) (visible : isSpace c = false) (rest : List Char) :
    skipSpace (padded.chars ++ rest) = c :: (cs ++ (padded.after ++ rest)) := by
  rw [Padded.chars, List.append_assoc, List.append_assoc, skipSpace_append padded.before_blank,
    part, List.cons_append, skipSpace_of_not_isSpace _ visible]

/-- Parts with commas between them begin as the first of them does. -/
theorem exists_intercalate_cons (part : List Char) (parts : List (List Char)) (rest : List Char) :
    ∃ more, [','].intercalate (part :: parts) ++ rest = part ++ more := by
  cases parts with
  | nil => exact ⟨rest, by rw [List.intercalate_singleton]⟩
  | cons next parts => exact ⟨_, intercalate_cons (List.cons_ne_nil _ _) rest⟩

/-- The items of an array begin neither with white space nor as its end. -/
theorem skipSpace_items {items : List Item} (nonempty : items ≠ [])
    (spelled : ∀ item ∈ items, item.doc.Spelled item.padded.part) (rest : List Char) :
    ∃ c cs, skipSpace ([','].intercalate (items.map (·.padded.chars)) ++ rest) = c :: cs ∧
      c ≠ ']' := by
  obtain ⟨item, items, rfl⟩ := List.exists_cons_of_ne_nil nonempty
  obtain ⟨more, first⟩ :=
    exists_intercalate_cons item.padded.chars (items.map (·.padded.chars)) rest
  obtain ⟨c, cs, part, visible, other⟩ := exists_cons_of_spelled (spelled item List.mem_cons_self)
  exact ⟨c, _, by rw [List.map_cons, first, skipSpace_padded part visible], other⟩

/-- The fields of an object begin with the quote of a name. -/
theorem skipSpace_fields {fields : List Field} (nonempty : fields ≠ [])
    (names : ∀ field ∈ fields, SpelledString field.name field.label.part) (rest : List Char) :
    ∃ cs, skipSpace ([','].intercalate (fields.map Field.chars) ++ rest) = '"' :: cs := by
  obtain ⟨field, fields, rfl⟩ := List.exists_cons_of_ne_nil nonempty
  obtain ⟨more, first⟩ := exists_intercalate_cons field.chars (fields.map Field.chars) rest
  obtain ⟨inner, quoted, _⟩ := string?_append (names field List.mem_cons_self) []
  rw [List.append_nil] at quoted
  rw [List.map_cons, first, Field.chars, List.append_assoc]
  exact ⟨_, skipSpace_padded quoted rfl _⟩

theorem value?_padded {doc : Json} {padded : Padded} (reads : Reads doc padded.part) {fuel : Nat}
    (enough : padded.part.length ≤ fuel) {rest : List Char} (ends : Numeral.Ends rest) :
    value? fuel (padded.chars ++ rest) = some (doc, padded.after ++ rest) := by
  rw [Padded.chars, List.append_assoc, List.append_assoc, value?_blank padded.before_blank]
  exact reads fuel _ enough (ends_append padded.after_blank ends)

/-- A name is read with its colon. -/
theorem name?_padded {name : Option String} {label : Padded}
    (spelled : SpelledString name label.part) (rest : List Char) :
    name? (label.chars ++ ':' :: rest) = some (name, rest) := by
  obtain ⟨inner, quoted, read⟩ := string?_append spelled (label.after ++ ':' :: rest)
  rw [name?, Padded.chars, List.append_assoc, List.append_assoc,
    skipSpace_append label.before_blank, quoted, skipSpace_of_not_isSpace _ rfl]
  simp only [read, bind, Option.bind, skipSpace_append label.after_blank,
    skipSpace_of_not_isSpace rest (c := ':') rfl]

theorem reads_number {n : Numeral} {text : List Char} (spelled : n.Spelled text) :
    Reads (.number n) text := by
  intro fuel rest enough ends
  have read := Numeral.read?_append spelled ends
  obtain ⟨c, cs, rfl, begins⟩ := exists_cons_of_number spelled
  cases fuel with
  | zero => cases enough
  | succ fuel =>
    rw [List.cons_append] at read ⊢
    rw [value?, skipSpace_of_not_isSpace _ (isSpace_of_number begins)]
    split
    case h_7 => rw [read, Option.map_some]
    all_goals
      next same => exact absurd (List.head_eq_of_cons_eq same) (ne_of_number begins (by decide))

theorem reads_string {value : Option String} {text : List Char}
    (spelled : SpelledString value text) : Reads (.string value) text := by
  intro fuel rest enough _
  obtain ⟨inner, quoted, read⟩ := string?_append spelled rest
  cases fuel with
  | zero => cases spelled; cases enough
  | succ fuel =>
    rw [quoted, value?, skipSpace_of_not_isSpace _ rfl]
    simp only [read, Option.map_some]

/-- The items of an array are read, with the end of the array. -/
theorem items?_intercalate {items : List Item} (nonempty : items ≠ [])
    (reads : ∀ item ∈ items, Reads item.doc item.padded.part) (fuel : Nat) (rest : List Char)
    (enough : ([','].intercalate (items.map (·.padded.chars))).length < fuel) :
    items? fuel ([','].intercalate (items.map (·.padded.chars)) ++ ']' :: rest) =
      some (items.map Item.doc, rest) := by
  induction items generalizing fuel with
  | nil => exact absurd rfl nonempty
  | cons item items ih =>
    cases fuel with
    | zero => cases enough
    | succ fuel =>
      have first := reads item List.mem_cons_self
      cases items with
      | nil =>
        rw [List.map_singleton, List.intercalate_singleton] at enough ⊢
        simp only [Padded.chars, List.length_append] at enough
        rw [items?, value?_padded first (by omega) (Numeral.ends_cons (by decide))]
        simp only [bind, Option.bind, skipSpace_append item.padded.after_blank,
          skipSpace_of_not_isSpace rest (c := ']') rfl]
        rfl
      | cons next items =>
        rw [List.map_cons, length_intercalate_cons (by simp)] at enough
        have length : item.padded.part.length ≤ item.padded.chars.length := by
          simp only [Padded.chars, List.length_append]
          omega
        have read := ih (List.cons_ne_nil _ _) (fun item mem => reads item (.tail _ mem)) fuel
          (by omega)
        rw [List.map_cons, intercalate_cons (by simp), items?,
          value?_padded first (by omega) (Numeral.ends_cons (by decide))]
        simp only [bind, Option.bind, skipSpace_append item.padded.after_blank,
          skipSpace_of_not_isSpace _ (show isSpace ',' = false from rfl)]
        rw [read, Option.map_some]
        rfl

/-- The fields of an object are read, with the end of the object. -/
theorem fields?_intercalate {fields : List Field} (nonempty : fields ≠ [])
    (names : ∀ field ∈ fields, SpelledString field.name field.label.part)
    (reads : ∀ field ∈ fields, Reads field.item.doc field.item.padded.part) (fuel : Nat)
    (rest : List Char) (enough : ([','].intercalate (fields.map Field.chars)).length < fuel) :
    fields? fuel ([','].intercalate (fields.map Field.chars) ++ '\x7d' :: rest) =
      some (fields.map fun field => (field.name, field.item.doc), rest) := by
  induction fields generalizing fuel with
  | nil => exact absurd rfl nonempty
  | cons field fields ih =>
    cases fuel with
    | zero => cases enough
    | succ fuel =>
      have name := names field List.mem_cons_self
      have first := reads field List.mem_cons_self
      cases fields with
      | nil =>
        rw [List.map_singleton, List.intercalate_singleton] at enough ⊢
        simp only [Field.chars, Padded.chars, List.length_append, List.length_cons] at enough
        rw [fields?, Field.chars, List.append_assoc, List.cons_append, name?_padded name]
        simp only [bind, Option.bind]
        rw [value?_padded first (by omega) (Numeral.ends_cons (by decide))]
        simp only [skipSpace_append field.item.padded.after_blank,
          skipSpace_of_not_isSpace rest (c := '\x7d') rfl]
        rfl
      | cons next fields =>
        rw [List.map_cons, length_intercalate_cons (by simp)] at enough
        have length : field.item.padded.part.length ≤ field.chars.length := by
          simp only [Field.chars, Padded.chars, List.length_append, List.length_cons]
          omega
        have read := ih (List.cons_ne_nil _ _) (fun field mem => names field (.tail _ mem))
          (fun field mem => reads field (.tail _ mem)) fuel (by omega)
        rw [List.map_cons, intercalate_cons (by simp), fields?, Field.chars, List.append_assoc,
          List.cons_append, name?_padded name]
        simp only [bind, Option.bind]
        rw [value?_padded first (by omega) (Numeral.ends_cons (by decide))]
        simp only [skipSpace_append field.item.padded.after_blank,
          skipSpace_of_not_isSpace _ (show isSpace ',' = false from rfl)]
        rw [read, Option.map_some]
        rfl

end Parser

/-- A value is read with the text behind it. -/
theorem Spelled.reads {doc : Json} {text : List Char} (spelled : doc.Spelled text) :
    Reads doc text := by
  induction spelled with
  | null | true | false =>
    intro fuel rest enough _
    cases fuel with
    | zero => cases enough
    | succ fuel => rfl
  | number spelled => exact reads_number spelled
  | string spelled => exact reads_string spelled
  | noItems blank | noFields blank =>
    intro fuel rest enough _
    cases fuel with
    | zero => cases enough
    | succ fuel =>
      rw [List.cons_append, List.append_assoc, value?, skipSpace_of_not_isSpace _ rfl]
      simp only [skipSpace_append blank, List.singleton_append]
      rfl
  | @array items nonempty spelled ih =>
    intro fuel rest enough _
    cases fuel with
    | zero => cases enough
    | succ fuel =>
      simp only [List.length_cons, List.length_append, List.length_nil] at enough
      have read := items?_intercalate nonempty ih fuel rest (by omega)
      obtain ⟨c, cs, skipped, other⟩ := skipSpace_items nonempty spelled (']' :: rest)
      rw [List.cons_append, List.append_assoc, List.singleton_append, value?,
        skipSpace_of_not_isSpace _ rfl]
      simp only [skipped]
      split
      · next same => exact absurd (List.head_eq_of_cons_eq same) other
      · rw [read, Option.map_some]
  | @object fields nonempty names spelled ih =>
    intro fuel rest enough _
    cases fuel with
    | zero => cases enough
    | succ fuel =>
      simp only [List.length_cons, List.length_append, List.length_nil] at enough
      have read := fields?_intercalate nonempty names ih fuel rest (by omega)
      obtain ⟨cs, skipped⟩ := skipSpace_fields nonempty names ('\x7d' :: rest)
      rw [List.cons_append, List.append_assoc, List.singleton_append, value?,
        skipSpace_of_not_isSpace _ rfl]
      simp only [skipped]
      rw [read, Option.map_some]
      rfl

/-- A text holds the document that it spells. -/
theorem ofText?_of_document {doc : Json} {text : String} (document : Document doc text) :
    ofText? text = some doc := by
  obtain ⟨padded, spelled⟩ := document
  have enough : padded.part.length ≤ padded.chars.length + 1 := by
    simp only [Padded.chars, List.length_append]
    omega
  have read := value?_padded spelled.reads enough Numeral.ends_nil
  have blank : skipSpace padded.after = [] := by
    rw [← List.append_nil padded.after, skipSpace_append padded.after_blank]
    rfl
  rw [List.append_nil, List.append_nil] at read
  rw [ofText?, String.toList_ofList, read]
  simp [blank]

end Json

end Stencil
