import Mathlib.Data.List.Lattice
import Stencil.Proofs.Text.Entity
import Stencil.Proofs.Text.Escape

/-!
# Escaping undone

An escaped text tells what it was escaped from: its entities are put back in one pass from the
front. A text without anything to escape is its own escaped form, and need not be copied.

1. `unescaped_escaped`: putting the entities back undoes escaping, even where the text looks like
   an entity itself.
2. `escapeUnlessPlain?_eq`: read byte by byte, a text is given back untouched exactly if it holds
   nothing to escape.
3. `escapeHtml_laws`: what escaping does to every text.
-/

namespace Stencil.Text

/-! ## Entities put back -/

/-- A text with its entities put back, in one pass from the front. An `&` that begins no entity
stays. -/
def unescaped : List Char → List Char
  | '&' :: 'a' :: 'm' :: 'p' :: ';' :: rest => '&' :: unescaped rest
  | '&' :: 'l' :: 't' :: ';' :: rest => '<' :: unescaped rest
  | '&' :: 'g' :: 't' :: ';' :: rest => '>' :: unescaped rest
  | '&' :: 'q' :: 'u' :: 'o' :: 't' :: ';' :: rest => '"' :: unescaped rest
  | c :: rest => c :: unescaped rest
  | [] => []

def unescapeHtml (text : String) : String :=
  String.ofList (unescaped text.toList)

theorem unescaped_cons_of_ne {c : Char} (plain : c ≠ '&') (rest : List Char) :
    unescaped (c :: rest) = c :: unescaped rest := by
  rw [unescaped.eq_def]
  split
  case h_5 same =>
    obtain ⟨rfl, rfl⟩ := List.cons_eq_cons.mp same
    rfl
  case h_6 same => cases same
  all_goals
    next same => exact absurd (List.head_eq_of_cons_eq same) plain

/-- What stands for a character is put back as the character. -/
theorem unescaped_escapeChar (c : Char) (rest : List Char) :
    unescaped (escapeChar c ++ rest) = c :: unescaped rest := by
  unfold escapeChar entity?
  split
  case h_5 not_amp _ _ _ => exact unescaped_cons_of_ne not_amp rest
  all_goals rfl

theorem unescaped_escaped (text : List Char) : unescaped (escaped text) = text := by
  induction text with
  | nil => rfl
  | cons c text ih => rw [escaped_cons, unescaped_escapeChar, ih]

theorem toList_escapeHtml_eq_escaped (text : String) :
    (escapeHtml text).toList = escaped text.toList :=
  toList_escapeHtml text

theorem unescapeHtml_escapeHtml (text : String) : unescapeHtml (escapeHtml text) = text := by
  rw [unescapeHtml, toList_escapeHtml_eq_escaped, unescaped_escaped, String.ofList_toList]

/-- Two texts with one escaped form are the same. -/
theorem escapeHtml_injective : Function.Injective escapeHtml :=
  Function.LeftInverse.injective unescapeHtml_escapeHtml

theorem escapeHtml_append (front back : String) :
    escapeHtml (front ++ back) = escapeHtml front ++ escapeHtml back := by
  rw [← String.toList_inj, String.toList_append]
  simp only [toList_escapeHtml_eq_escaped, String.toList_append, escaped_append]

/-! ## Nothing to escape -/

/-- Escapes a text byte by byte as `escapeFrom?` does, and gives nothing inside if nothing has been
copied, so that the text itself is the escaped one. -/
def escapeUnlessPlain? (text : List Char) (position copied : Nat) (out : List Char) :
    List UInt8 → Option (Option (List Char))
  | [] => if copied = 0 then some none else (dropBytes text copied).map (some <| out ++ ·)
  | byte :: bytes =>
    match entityOfByte? byte with
    | none => escapeUnlessPlain? text (position + 1) copied out bytes
    | some entity => do
      let stretch ← Span.select? ⟨copied, position⟩ text
      escapeUnlessPlain? text (position + 1) (position + 1) (out ++ (stretch ++ entity)) bytes

section Bytes

variable {text : List Char} {position copied : Nat} {out : List Char} {bytes : List UInt8}

/-- The text that is given back untouched stands for itself. -/
theorem map_getD_escapeUnlessPlain? :
    (escapeUnlessPlain? text position copied out bytes).map (Option.getD · text) =
      escapeFrom? text position copied out bytes := by
  fun_induction escapeFrom? text position copied out bytes with
  | case1 position => rfl
  | case2 position copied out untouched =>
    rw [escapeUnlessPlain?, if_neg untouched, Option.map_map]
    rfl
  | case3 position copied out byte bytes passed ih =>
    rw [escapeUnlessPlain?, passed]
    exact ih
  | case4 position copied out byte bytes entity found ih =>
    rw [escapeUnlessPlain?, found]
    cases Span.select? ⟨copied, position⟩ text with
    | none => rfl
    | some stretch => exact ih stretch

/-- What has been copied stays copied, so no byte has an entity where nothing is copied in the
end. -/
theorem escapeUnlessPlain?_eq_some_none_iff :
    escapeUnlessPlain? text position copied out bytes = some none ↔
      copied = 0 ∧ ∀ byte ∈ bytes, entityOfByte? byte = none := by
  induction bytes generalizing position copied out with
  | nil => by_cases untouched : copied = 0 <;> simp [escapeUnlessPlain?, untouched]
  | cons byte bytes ih =>
    rw [escapeUnlessPlain?, List.forall_mem_cons]
    cases found : entityOfByte? byte with
    | none => simp [ih]
    | some entity => simp [ih, Option.bind_eq_some_iff]

end Bytes

theorem entity?_eq_none_iff (c : Char) : entity? c = none ↔ c ∉ specials := by
  unfold entity?
  split
  case h_5 => simp_all [specials]
  all_goals exact iff_of_false (Option.some_ne_none _) (not_not_intro (by decide))

theorem escape?_eq_none_iff_disjoint (text : List Char) :
    escape? text = none ↔ text.Disjoint specials := by
  rw [escape?_eq_none_iff]
  simp only [isPlain, Option.isNone_iff_eq_none, entity?_eq_none_iff]
  rfl

/-- The bytes of a character have no entity if the character has none, and the other way round. -/
theorem forall_entityOfByte?_iff (c : Char) :
    (∀ byte ∈ String.utf8EncodeChar c, entityOfByte? byte = none) ↔ c ∉ specials := by
  rw [← entity?_eq_none_iff]
  rcases Nat.lt_or_ge c.toNat 128 with narrow | wide
  · obtain ⟨byte, single, same⟩ := utf8EncodeChar_of_narrow narrow
    rw [single, List.forall_mem_singleton, same]
  · exact iff_of_true (entityOfByte?_of_wide wide) (entity?_eq_none_of_wide wide)

theorem forall_mem_bytesOf_iff (text : List Char) :
    (∀ byte ∈ bytesOf text, entityOfByte? byte = none) ↔ text.Disjoint specials := by
  simp only [bytesOf, List.forall_mem_flatMap, forall_entityOfByte?_iff]
  rfl

/-- Read byte by byte, a text is escaped without a stretch out of range, and it is given back
untouched exactly where it is otherwise. -/
theorem escapeUnlessPlain?_eq (text : List Char) :
    escapeUnlessPlain? text 0 0 [] (bytesOf text) = some (escape? text) := by
  have escaped := @escapeFrom?_eq text [] [] text rfl (List.forall_mem_nil _)
  rw [List.append_nil, byteLength_nil, List.flatMap_nil, ← map_getD_escapeUnlessPlain?,
    Option.map_eq_some_iff] at escaped
  obtain ⟨result, read, given⟩ := escaped
  rw [read]
  cases result with
  | none =>
    have passed := (escapeUnlessPlain?_eq_some_none_iff.mp read).2
    rw [(escape?_eq_none_iff_disjoint text).mpr ((forall_mem_bytesOf_iff text).mp passed)]
  | some result =>
    have special : ¬ text.all isPlain = true := by
      intro plain
      have untouched : escape? text = none := if_pos plain
      have passed := (forall_mem_bytesOf_iff text).mpr
        ((escape?_eq_none_iff_disjoint text).mp untouched)
      have same := read.symm.trans (escapeUnlessPlain?_eq_some_none_iff.mpr ⟨rfl, passed⟩)
      cases same
    rw [escape?, if_neg special, escapeFrom_eq_flatMap, ← given, Option.getD_some]

/-! ## The laws together -/

/-- A text is escaped character by character, and no angle bracket and no quote is left. So texts
may be put together before or afterwards, and a text can be told from its escaped form. Read byte
by byte no stretch is out of range, and the text itself is given back exactly if there is nothing to
escape in it. -/
theorem escapeHtml_laws (text more : String) :
    (escapeHtml text).toList = text.toList.flatMap escapeChar ∧
      escapeHtml (text ++ more) = escapeHtml text ++ escapeHtml more ∧
      (escapeHtml text).toList.Disjoint ['<', '>', '"'] ∧
      unescapeHtml (escapeHtml text) = text ∧ Function.Injective escapeHtml ∧
      escapeUnlessPlain? text.toList 0 0 [] (bytesOf text.toList) = some (escape? text.toList) ∧
      (escape? text.toList = none ↔ text.toList.Disjoint ['&', '<', '>', '"']) := by
  refine ⟨toList_escapeHtml text, escapeHtml_append text more, ?_, unescapeHtml_escapeHtml text,
    escapeHtml_injective, escapeUnlessPlain?_eq text.toList,
    escape?_eq_none_iff_disjoint text.toList⟩
  rw [toList_escapeHtml_eq_escaped]
  intro c mem markup
  obtain ⟨not_less, not_greater, not_quote⟩ := (harmless_escaped text.toList).free c mem
  simp [not_less, not_greater, not_quote] at markup

end Stencil.Text
