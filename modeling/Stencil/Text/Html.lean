/-!
# Escaping for HTML

The four characters that HTML gives a meaning, `&`, `<`, `>` and the double quote, are written as
entities. The stretches of text between them are copied whole, and a text without any of them is
left alone.

1. `escapeFrom_eq_flatMap`: copying stretches comes to the same as escaping each character.
2. `escape?_eq_none_iff`: exactly the texts without those characters are left alone.
-/

namespace Stencil.Text

/-- The entity that stands for a character in HTML, if it needs one. -/
def entity? : Char → Option (List Char)
  | '&' => some "&amp;".toList
  | '<' => some "&lt;".toList
  | '>' => some "&gt;".toList
  | '"' => some "&quot;".toList
  | _ => none

def isPlain (c : Char) : Bool :=
  (entity? c).isNone

def escapeChar (c : Char) : List Char :=
  (entity? c).getD [c]

/-- The escaped form of a text, one plain stretch and one entity at a time. -/
def escapeFrom (text : List Char) : List Char :=
  match _rest : text.dropWhile isPlain with
  | [] => text
  | c :: after => text.takeWhile isPlain ++ (escapeChar c ++ escapeFrom after)
termination_by text.length
decreasing_by
  have := (List.dropWhile_suffix isPlain (l := text)).length_le
  rw [_rest, List.length_cons] at this
  omega

/-- The escaped form of a text, if it differs from the text. -/
def escape? (text : List Char) : Option (List Char) :=
  if text.all isPlain then none else some (escapeFrom text)

/-- A text for use in HTML. -/
def escapeHtml (text : String) : String :=
  match escape? text.toList with
  | none => text
  | some escaped => String.ofList escaped

/-! ## Laws -/

theorem escapeChar_of_isPlain {c : Char} (plain : isPlain c = true) : escapeChar c = [c] := by
  rw [isPlain, Option.isNone_iff_eq_none] at plain
  rw [escapeChar, plain, Option.getD_none]

theorem flatMap_escapeChar_of_all_isPlain {text : List Char}
    (plain : ∀ c ∈ text, isPlain c = true) : text.flatMap escapeChar = text := by
  induction text with
  | nil => rfl
  | cons c cs ih =>
    rw [List.flatMap_cons, escapeChar_of_isPlain (plain c List.mem_cons_self),
      ih fun d mem => plain d (List.mem_cons_of_mem c mem), List.singleton_append]

theorem escapeFrom_eq_flatMap (text : List Char) :
    escapeFrom text = text.flatMap escapeChar := by
  fun_induction escapeFrom text with
  | case1 text rest =>
    have whole := List.takeWhile_append_dropWhile (p := isPlain) (l := text)
    rw [rest, List.append_nil] at whole
    conv => rhs; rw [← whole]
    rw [flatMap_escapeChar_of_all_isPlain (List.all_eq_true.mp List.all_takeWhile), whole]
  | case2 text c after rest ih =>
    have whole := List.takeWhile_append_dropWhile (p := isPlain) (l := text)
    rw [rest] at whole
    conv => rhs; rw [← whole]
    rw [List.flatMap_append, List.flatMap_cons, ih,
      flatMap_escapeChar_of_all_isPlain (List.all_eq_true.mp List.all_takeWhile)]

theorem escape?_eq_none_iff (text : List Char) :
    escape? text = none ↔ ∀ c ∈ text, isPlain c = true := by
  unfold escape?
  split
  · next plain => exact ⟨fun _ => List.all_eq_true.mp plain, fun _ => rfl⟩
  · next special => exact ⟨(nomatch ·), fun h => absurd (List.all_eq_true.mpr h) special⟩

/-- Escaping a text is escaping its characters. -/
theorem toList_escapeHtml (text : String) :
    (escapeHtml text).toList = text.toList.flatMap escapeChar := by
  unfold escapeHtml
  split
  · next clean =>
    rw [flatMap_escapeChar_of_all_isPlain ((escape?_eq_none_iff _).mp clean)]
  · next escaped found =>
    unfold escape? at found
    split at found
    · cases found
    · cases found
      rw [String.toList_ofList, escapeFrom_eq_flatMap]

end Stencil.Text
