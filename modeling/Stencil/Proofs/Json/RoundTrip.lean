import Stencil.Json.Printer
import Stencil.Proofs.Json.Grammar

/-!
# Reading what was written

The reader of JSON undoes the writer, for what is written spells the document that it was written
from. Saved templates hold no numbers but whole ones, and the statement is about documents of that
kind (`Json.whole`).

1. `Numeral.spelled_ofNat`: a whole number is written as JSON has it.
2. `Json.spelledString_print`: so is a string, whatever characters it holds.
3. `Json.spelled_print`: so is a document.
4. `Json.ofText?_toText`: the text of a document holds that document.
-/

namespace Stencil

/-! ## Numbers -/

theorem eq_zero_of_digitChar : ∀ n < 10, n.digitChar = '0' → n = 0 := by decide

/-- The digits of a whole number begin with a zero only if the number is zero. -/
theorem digits_eq_cons (n : Nat) :
    ∃ c cs, digits n = c :: cs ∧ (c = '0' → n = 0) := by
  induction n using Nat.strongRecOn with
  | ind n ih =>
    rcases Nat.lt_or_ge n 10 with small | large
    · exact ⟨n.digitChar, [], Nat.toDigits_of_lt_base small, eq_zero_of_digitChar n small⟩
    · obtain ⟨c, cs, split, leading⟩ := ih (n / 10) (by omega)
      have whole : digits n = digits (n / 10) ++ [(n % 10).digitChar] :=
        Nat.toDigits_of_base_le (by decide) large
      refine ⟨c, cs ++ [(n % 10).digitChar], by rw [whole, split, List.cons_append], ?_⟩
      intro zero
      have := leading zero
      omega

namespace Numeral

theorem isDigits_digits (n : Nat) : IsDigits (digits n) where
  nonempty := Nat.toDigits_ne_nil
  all _ mem := Nat.isDigit_of_mem_toDigits (by decide) (by decide) mem

theorem isWhole_digits (n : Nat) : IsWhole (digits n) := by
  obtain ⟨c, cs, split, leading⟩ := digits_eq_cons n
  by_cases zero : n = 0
  · subst zero
    exact .zero
  · refine .digits (isDigits_digits n) ?_
    rw [split, List.head?_cons, Ne, Option.some.injEq]
    exact fun h => zero (leading h)

/-- A whole number is written as its digits, as JSON has it. -/
theorem spelled_ofNat (n : Nat) : (ofNat n).Spelled (ofNat n).print := by
  have spelled := Spelled.unsigned (isWhole_digits n) .absent .absent
  have value : Nat.ofDigitChars 10 (digits n) 0 = n := Nat.ofDigitChars_ten_toDigits
  rwa [List.append_nil, List.append_nil, List.append_nil, value, ← print_ofNat] at spelled

end Numeral

namespace Json

mutual

/-- Whether all numbers in a document are whole ones, written as their digits. -/
def whole : Json → Bool
  | .number n => n == .ofNat n.mantissa
  | .array items => wholeItems items
  | .object fields => wholeFields fields
  | _ => true

def wholeItems : List Json → Bool
  | [] => true
  | item :: items => item.whole && wholeItems items

def wholeFields : List (Option String × Json) → Bool
  | [] => true
  | (_, value) :: fields => value.whole && wholeFields fields

end

/-! ## Strings -/

namespace Parser

theorem hexValue?_digitChar : ∀ n < 16, hexValue? n.digitChar = some n := by decide

/-- The digits that a control character is escaped with spell it. -/
theorem unit?_control {c : Char} (control : c.toNat < 0x20) :
    unit? '0' '0' (Nat.digitChar (c.toNat / 16)) (Nat.digitChar (c.toNat % 16)) =
      some (.char c) := by
  have zero : hexValue? '0' = some 0 := rfl
  have value : c.toNat / 16 * 16 + c.toNat % 16 = c.toNat := by omega
  simp only [unit?, zero, hexValue?_digitChar _ (show c.toNat / 16 < 16 by omega),
    hexValue?_digitChar _ (show c.toNat % 16 < 16 by omega), bind, Option.bind]
  rw [if_neg (by omega)]
  simp [value]

/-- An escaped character spells that character. -/
theorem spelled_escapeChar (c : Char) : (Piece.char c).Spelled (escapeChar c) := by
  unfold escapeChar
  split
  case h_8 quote backslash _ _ _ _ _ =>
    split
    · next control => exact .unit (unit?_control control)
    · next visible => exact .plain quote backslash visible
  all_goals exact .letter rfl

theorem spelledPieces_flatMap_escapeChar (text : List Char) :
    SpelledPieces (text.map Piece.char) (text.flatMap escapeChar) := by
  induction text with
  | nil => exact .nil
  | cons c text ih => exact .cons (spelled_escapeChar c) ih

theorem join?_map_char (text : List Char) : join? (text.map Piece.char) = some text := by
  induction text with
  | nil => rfl
  | cons c text ih => rw [List.map_cons, join?, ih, Option.map_some]

end Parser

open Stencil.Json.Parser

/-- A string is written as JSON has it, whether or not it is a text. -/
theorem spelledString_print (value : Option String) : SpelledString value (printString value) := by
  cases value with
  | none =>
    have half : unit? 'd' '8' '0' '0' = some (.half 0xD800) := by
      have high : hexValue? 'd' = some 13 ∧ hexValue? '8' = some 8 ∧ hexValue? '0' = some 0 := by
        decide
      simp [unit?, high]
    have printed : printString none = '"' :: (['\\', 'u', 'd', '8', '0', '0'] ++ [] ++ ['"']) := by
      decide +kernel
    rw [printed]
    exact .quoted (.cons (.unit half) .nil)
  | some text =>
    have spelled := SpelledString.quoted (spelledPieces_flatMap_escapeChar text.toList)
    rwa [join?_map_char, Option.map_some, String.ofList_toList] at spelled

/-! ## Documents -/

/-- A part of a document without white space around it. -/
def Padded.bare (part : List Char) : Padded := ⟨[], part, [], rfl, rfl⟩

theorem Padded.chars_bare (part : List Char) : (bare part).chars = part := by
  rw [bare, chars, List.nil_append, List.append_nil]

def Item.printed (doc : Json) : Item := ⟨doc, .bare doc.print⟩

def Field.printed (field : Option String × Json) : Field :=
  ⟨field.1, .bare (printString field.1), .printed field.2⟩

theorem print_items (item : Json) (items : List Json) : item.print ++ printItems items =
    [','].intercalate (((item :: items).map Item.printed).map (·.padded.chars)) ++ [']'] := by
  induction items generalizing item with
  | nil => simp [printItems, Item.printed, Padded.chars_bare]
  | cons next items ih =>
    rw [printItems, List.map_cons, List.map_cons, intercalate_cons (by simp), ← ih next,
      Item.printed, Padded.chars_bare]

theorem chars_printed (name : Option String) (value : Json) (rest : List Char) :
    (Field.printed (name, value)).chars ++ rest =
      printString name ++ ':' :: (value.print ++ rest) := by
  simp [Field.chars, Field.printed, Item.printed, Padded.chars_bare]

theorem print_fields (name : Option String) (value : Json) (fields : List (Option String × Json)) :
    printString name ++ ':' :: (value.print ++ printFields fields) =
      [','].intercalate ((((name, value) :: fields).map Field.printed).map Field.chars) ++
        ['\x7d'] := by
  induction fields generalizing name value with
  | nil => simp [printFields, ← chars_printed]
  | cons next fields ih =>
    obtain ⟨name', value'⟩ := next
    rw [printFields, List.map_cons, List.map_cons, intercalate_cons (by simp), ← ih name' value',
      chars_printed]

mutual

/-- A document is written as JSON has it. -/
theorem spelled_print : (doc : Json) → doc.whole = true → doc.Spelled doc.print
  | .null, _ => .null
  | .bool true, _ => .true
  | .bool false, _ => .false
  | .number n, whole => by
    rw [Json.whole, beq_iff_eq] at whole
    rw [print, whole]
    exact .number (Numeral.spelled_ofNat n.mantissa)
  | .string value, _ => .string (spelledString_print value)
  | .array [], _ => @Spelled.noItems [] rfl
  | .array (item :: items), whole => by
    have spelled := spelled_printItems (item :: items) whole
    have array := @Spelled.array ((item :: items).map Item.printed) (by simp)
      (List.forall_mem_map.mpr spelled)
    rw [print, print_items]
    simpa [Item.printed, Function.comp_def] using array
  | .object [], _ => @Spelled.noFields [] rfl
  | .object ((name, value) :: fields), whole => by
    have spelled := spelled_printFields ((name, value) :: fields) whole
    have object := @Spelled.object (((name, value) :: fields).map Field.printed) (by simp)
      (List.forall_mem_map.mpr fun field _ => spelledString_print field.1)
      (List.forall_mem_map.mpr spelled)
    rw [print, print_fields]
    simpa [Field.printed, Item.printed, Function.comp_def] using object

/-- Each of some documents is written as JSON has it. -/
theorem spelled_printItems : (items : List Json) → wholeItems items = true →
    ∀ item ∈ items, item.Spelled item.print
  | [], _ => nofun
  | item :: items, whole => by
    rw [wholeItems, Bool.and_eq_true] at whole
    rw [List.forall_mem_cons]
    exact ⟨spelled_print item whole.1, spelled_printItems items whole.2⟩

/-- The value of each of some fields is written as JSON has it. -/
theorem spelled_printFields : (fields : List (Option String × Json)) →
    wholeFields fields = true → ∀ field ∈ fields, field.2.Spelled field.2.print
  | [], _ => nofun
  | (name, value) :: fields, whole => by
    rw [wholeFields, Bool.and_eq_true] at whole
    rw [List.forall_mem_cons]
    exact ⟨spelled_print value whole.1, spelled_printFields fields whole.2⟩

end

/-- The text of a document holds that document. -/
theorem ofText?_toText (doc : Json) (whole : doc.whole = true) : ofText? doc.toText = some doc := by
  have document := Document.intro (.bare doc.print) (spelled_print doc whole)
  rw [Padded.chars_bare] at document
  exact ofText?_of_document document

end Json

end Stencil
