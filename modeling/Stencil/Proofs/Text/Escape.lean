import Stencil.Span
import Stencil.Text.Html

/-!
# Escaping byte by byte

The four characters with an entity are single bytes, which are no part of the other characters. So a
text may be escaped while only its bytes are looked at: the stretches between those bytes begin and
end at characters, and can be cut out of the text.

1. `entityOfByte?_eq_none`: no byte of another character has an entity.
2. `escapeBytes?_eq`: no stretch is out of range, and the text is the escaped one.
-/

namespace Stencil.Text

/-- The entity for a byte, read as the character with that code. -/
def entityOfByte? (byte : UInt8) : Option (List Char) :=
  entity? (Char.ofUInt8 byte)

def bytesOf (text : List Char) : List UInt8 :=
  text.flatMap String.utf8EncodeChar

/-- Escapes a text byte by byte from a position on. The text before `copied` is in `out` already,
and no byte since then has an entity. If nothing was copied in the end, there is no entity at all.
Nothing if a stretch of text is not there. -/
def escapeFrom? (text : List Char) (position copied : Nat) (out : List Char) :
    List UInt8 → Option (List Char)
  | [] =>
    if copied = 0 then some text else (dropBytes text copied).map (out ++ ·)
  | byte :: bytes =>
    match entityOfByte? byte with
    | none => escapeFrom? text (position + 1) copied out bytes
    | some entity => do
      let stretch ← Span.select? ⟨copied, position⟩ text
      escapeFrom? text (position + 1) (position + 1) (out ++ (stretch ++ entity)) bytes

def escapeBytes? (text : String) : Option String :=
  (escapeFrom? text.toList 0 0 [] (bytesOf text.toList)).map String.ofList

/-! ## Bytes of characters -/

theorem entityOfByte?_eq_none : ∀ code < 256, 128 ≤ code →
    entityOfByte? (UInt8.ofNat code) = none := by decide +kernel

theorem entityOfByte?_eq_entity? : ∀ code < 128,
    entityOfByte? (UInt8.ofNat code) = entity? (Char.ofNat code) := by decide +kernel

/-- Only characters of one byte have an entity. -/
theorem entity?_eq_none_of_wide {c : Char} (wide : 128 ≤ c.toNat) : entity? c = none := by
  unfold entity?
  split
  all_goals first
    | rfl
    | exact absurd wide (by decide)

/-- A character of one byte has the entity of its byte. -/
theorem utf8EncodeChar_of_narrow {c : Char} (narrow : c.toNat < 128) :
    ∃ byte, String.utf8EncodeChar c = [byte] ∧ entityOfByte? byte = entity? c := by
  refine ⟨UInt8.ofNat c.toNat, ?_, ?_⟩
  · unfold String.utf8EncodeChar
    exact if_pos (Nat.le_of_lt_succ narrow)
  · rw [entityOfByte?_eq_entity? _ narrow, Char.ofNat_toNat]

/-- No byte of another character has an entity, for each of them has its highest bit set. -/
theorem entityOfByte?_of_wide {c : Char} (wide : 128 ≤ c.toNat) :
    ∀ byte ∈ String.utf8EncodeChar c, entityOfByte? byte = none := by
  have marked : ∀ (code base size : Nat), 128 ≤ base ∧ base + size ≤ 256 ∧ 0 < size →
      entityOfByte? (UInt8.ofNat (code % size + base)) = none := by
    rintro code base size ⟨least, most, positive⟩
    have := Nat.mod_lt code positive
    exact entityOfByte?_eq_none _ (by omega) (by omega)
  unfold String.utf8EncodeChar
  dsimp only
  rw [if_neg (show ¬ c.val.toNat ≤ 127 from Nat.not_le_of_lt wide)]
  have done := List.forall_mem_nil fun byte => entityOfByte? byte = none
  split
  · simp only [List.forall_mem_cons]
    exact ⟨marked _ _ _ (by decide), marked _ _ _ (by decide), done⟩
  · split
    · simp only [List.forall_mem_cons]
      exact ⟨marked _ _ _ (by decide), marked _ _ _ (by decide), marked _ _ _ (by decide), done⟩
    · simp only [List.forall_mem_cons]
      exact ⟨marked _ _ _ (by decide), marked _ _ _ (by decide), marked _ _ _ (by decide),
        marked _ _ _ (by decide), done⟩

/-! ## Stretches -/

/-- Bytes without an entity are passed over. -/
theorem escapeFrom?_append {text : List Char} {position copied : Nat} {out : List Char}
    {front : List UInt8} (passed : ∀ byte ∈ front, entityOfByte? byte = none)
    (bytes : List UInt8) :
    escapeFrom? text position copied out (front ++ bytes) =
      escapeFrom? text (position + front.length) copied out bytes := by
  induction front generalizing position with
  | nil => rfl
  | cons byte front ih =>
    rw [List.cons_append, escapeFrom?, passed byte List.mem_cons_self]
    dsimp only
    rw [ih fun other mem => passed other (List.mem_cons_of_mem _ mem), List.length_cons,
      Nat.add_right_comm, Nat.add_assoc]

/-- From any position between two characters on, where `plain` has been read since the last
entity. -/
theorem escapeFrom?_eq {text copied plain rest : List Char} (whole : text = copied ++ plain ++ rest)
    (clean : ∀ c ∈ plain, isPlain c = true) :
    escapeFrom? text (byteLength (copied ++ plain)) (byteLength copied)
      (copied.flatMap escapeChar) (bytesOf rest) = some (text.flatMap escapeChar) := by
  induction rest generalizing copied plain with
  | nil =>
    rw [List.append_nil] at whole
    show (if byteLength copied = 0 then _ else _) = _
    split
    · next nothing =>
      rw [byteLength_eq_zero_iff.mp nothing, List.nil_append] at whole
      rw [whole, flatMap_escapeChar_of_all_isPlain clean]
    · rw [dropBytes_eq_some_iff.mpr ⟨copied, whole, rfl⟩, Option.map_some, whole,
        List.flatMap_append, flatMap_escapeChar_of_all_isPlain clean]
  | cons c rest ih =>
    have bytes : bytesOf (c :: rest) = String.utf8EncodeChar c ++ bytesOf rest := rfl
    have size : byteLength (copied ++ (plain ++ [c])) = byteLength (copied ++ plain) +
        (String.utf8EncodeChar c).length := by
      rw [String.length_utf8EncodeChar, ← List.append_assoc, byteLength_append, byteLength_cons]
      rfl
    have regrouped : text = copied ++ (plain ++ [c]) ++ rest := by
      rw [whole]
      simp
    cases found : entity? c with
    | none =>
      have passed : ∀ byte ∈ String.utf8EncodeChar c, entityOfByte? byte = none := by
        rcases Nat.lt_or_ge c.toNat 128 with narrow | wide
        · obtain ⟨byte, single, same⟩ := utf8EncodeChar_of_narrow narrow
          rw [single]
          intro other mem
          rw [List.mem_singleton.mp mem, same, found]
        · exact entityOfByte?_of_wide wide
      rw [bytes, escapeFrom?_append passed, ← size]
      refine ih regrouped fun d mem => ?_
      rcases List.mem_append.mp mem with mem | mem
      · exact clean d mem
      · rw [List.mem_singleton.mp mem, isPlain, found]
        rfl
    | some entity =>
      have narrow : c.toNat < 128 := by
        rcases Nat.lt_or_ge c.toNat 128 with narrow | wide
        · exact narrow
        · rw [entity?_eq_none_of_wide wide] at found
          cases found
      obtain ⟨byte, single, same⟩ := utf8EncodeChar_of_narrow narrow
      have stretch : Span.select? ⟨byteLength copied, byteLength (copied ++ plain)⟩ text =
          some plain := Span.select?_eq_some_iff.mpr ⟨copied, c :: rest, whole, rfl, rfl⟩
      have escaped : (copied ++ (plain ++ [c])).flatMap escapeChar =
          copied.flatMap escapeChar ++ (plain ++ entity) := by
        rw [List.flatMap_append, List.flatMap_append, flatMap_escapeChar_of_all_isPlain clean,
          List.flatMap_singleton, escapeChar, found, Option.getD_some]
      rw [bytes, single, List.singleton_append, escapeFrom?, same, found]
      dsimp only
      rw [stretch, Option.bind_eq_bind, Option.bind_some, ← escaped]
      rw [single] at size
      have rest_eq := @ih (copied ++ (plain ++ [c])) [] (by rw [regrouped, List.append_nil])
        (List.forall_mem_nil _)
      rw [List.append_nil, size] at rest_eq
      exact rest_eq

/-- Escaping byte by byte finds all stretches, and gives the escaped text. -/
theorem escapeBytes?_eq (text : String) : escapeBytes? text = some (escapeHtml text) := by
  have escaped := @escapeFrom?_eq text.toList [] [] text.toList rfl (List.forall_mem_nil _)
  rw [← toList_escapeHtml] at escaped
  exact (congrArg (Option.map String.ofList) escaped).trans (congrArg some String.ofList_toList)

end Stencil.Text
