/-!
# Text measured in bytes

Positions in a template count the bytes of its UTF-8 encoding, while the library works on
characters. This module cuts a text at a byte position, which is possible exactly at the
boundaries between characters:

1. `byteLength_append`: lengths add up;
2. `dropBytes_eq_some_iff`, `takeBytes_eq_some_iff`: a cut succeeds exactly when some characters
   at the front fill that many bytes, and it gives the rest, or those characters.
-/

namespace Stencil

/-- The number of bytes that UTF-8 takes for a text. -/
def byteLength : List Char → Nat
  | [] => 0
  | c :: cs => c.utf8Size + byteLength cs

/-- What is left after the first `n` bytes; nothing if `n` lies past the end or inside a
character. -/
def dropBytes : List Char → Nat → Option (List Char)
  | cs, 0 => some cs
  | [], _ + 1 => none
  | c :: cs, n + 1 =>
    if c.utf8Size ≤ n + 1 then dropBytes cs (n + 1 - c.utf8Size) else none

/-- The first `n` bytes; nothing if `n` lies past the end or inside a character. -/
def takeBytes : List Char → Nat → Option (List Char)
  | _, 0 => some []
  | [], _ + 1 => none
  | c :: cs, n + 1 =>
    if c.utf8Size ≤ n + 1 then (takeBytes cs (n + 1 - c.utf8Size)).map (c :: ·) else none

/-! ## Lengths -/

@[simp] theorem byteLength_nil : byteLength [] = 0 := rfl

@[simp] theorem byteLength_cons (c : Char) (cs : List Char) :
    byteLength (c :: cs) = c.utf8Size + byteLength cs := rfl

@[simp] theorem byteLength_append (xs ys : List Char) :
    byteLength (xs ++ ys) = byteLength xs + byteLength ys := by
  induction xs with
  | nil => simp
  | cons c cs ih => simp [ih, Nat.add_assoc]

theorem byteLength_eq_zero_iff {cs : List Char} : byteLength cs = 0 ↔ cs = [] := by
  cases cs with
  | nil => simp
  | cons c cs =>
    have := c.utf8Size_pos
    simp
    omega

/-- The length of a string is the length of its characters. -/
theorem byteLength_toList (s : String) : byteLength s.toList = s.utf8ByteSize := by
  suffices h : ∀ cs : List Char, byteLength cs = (String.ofList cs).utf8ByteSize by
    rw [h, String.ofList_toList]
  intro cs
  induction cs with
  | nil => rfl
  | cons c cs ih =>
    have split : String.ofList (c :: cs) = String.ofList [c] ++ String.ofList cs := by
      rw [← String.ofList_append, List.singleton_append]
    rw [split, String.utf8ByteSize_append, byteLength_cons, ih, ← String.singleton_eq_ofList,
      String.utf8ByteSize_singleton]

/-! ## Cuts -/

theorem dropBytes_zero (cs : List Char) : dropBytes cs 0 = some cs := by
  cases cs <;> rfl

theorem takeBytes_zero (cs : List Char) : takeBytes cs 0 = some [] := by
  cases cs <;> rfl

/-- The two halves of a cut exist together, and put together give the text. -/
theorem dropBytes_eq_some_iff {cs rest : List Char} {n : Nat} :
    dropBytes cs n = some rest ↔ ∃ front, cs = front ++ rest ∧ byteLength front = n := by
  induction cs generalizing n with
  | nil =>
    cases n with
    | zero =>
      constructor
      · intro h
        cases h
        exact ⟨[], rfl, rfl⟩
      · rintro ⟨front, whole, _⟩
        obtain ⟨rfl, rfl⟩ := List.append_eq_nil_iff.mp whole.symm
        rfl
    | succ n =>
      constructor
      · intro h
        cases h
      · rintro ⟨front, whole, size⟩
        obtain ⟨rfl, rfl⟩ := List.append_eq_nil_iff.mp whole.symm
        cases size
  | cons c cs ih =>
    have positive := c.utf8Size_pos
    cases n with
    | zero =>
      rw [dropBytes_zero]
      constructor
      · intro h
        cases h
        exact ⟨[], rfl, rfl⟩
      · rintro ⟨front, whole, size⟩
        rw [byteLength_eq_zero_iff.mp size] at whole
        rw [whole, List.nil_append]
    | succ n =>
      rw [dropBytes]
      split
      · next fits =>
        rw [ih]
        constructor
        · rintro ⟨front, rfl, size⟩
          exact ⟨c :: front, rfl, by rw [byteLength_cons]; omega⟩
        · rintro ⟨front, whole, size⟩
          cases front with
          | nil => cases size
          | cons d front =>
            injection whole with head tail
            subst head
            exact ⟨front, tail, by rw [byteLength_cons] at size; omega⟩
      · next short =>
        constructor
        · intro h
          cases h
        · rintro ⟨front, whole, size⟩
          cases front with
          | nil => cases size
          | cons d front =>
            injection whole with head tail
            subst head
            rw [byteLength_cons] at size
            omega

theorem takeBytes_eq_some_iff {cs front : List Char} {n : Nat} :
    takeBytes cs n = some front ↔ ∃ rest, cs = front ++ rest ∧ byteLength front = n := by
  induction cs generalizing n front with
  | nil =>
    cases n with
    | zero =>
      constructor
      · intro h
        cases h
        exact ⟨[], rfl, rfl⟩
      · rintro ⟨rest, whole, _⟩
        obtain ⟨rfl, rfl⟩ := List.append_eq_nil_iff.mp whole.symm
        rfl
    | succ n =>
      constructor
      · intro h
        cases h
      · rintro ⟨rest, whole, size⟩
        obtain ⟨rfl, rfl⟩ := List.append_eq_nil_iff.mp whole.symm
        cases size
  | cons c cs ih =>
    have positive := c.utf8Size_pos
    cases n with
    | zero =>
      rw [takeBytes_zero]
      constructor
      · intro h
        cases h
        exact ⟨c :: cs, rfl, rfl⟩
      · rintro ⟨rest, _, size⟩
        rw [byteLength_eq_zero_iff.mp size]
    | succ n =>
      rw [takeBytes]
      split
      · next fits =>
        rw [Option.map_eq_some_iff]
        constructor
        · rintro ⟨tail, found, rfl⟩
          obtain ⟨rest, rfl, size⟩ := ih.mp found
          exact ⟨rest, rfl, by rw [byteLength_cons]; omega⟩
        · rintro ⟨rest, whole, size⟩
          cases front with
          | nil => cases size
          | cons d tail =>
            injection whole with head rest_eq
            subst head
            exact ⟨tail, ih.mpr ⟨rest, rest_eq, by rw [byteLength_cons] at size; omega⟩, rfl⟩
      · next short =>
        constructor
        · intro h
          cases h
        · rintro ⟨rest, whole, size⟩
          cases front with
          | nil => cases size
          | cons d tail =>
            injection whole with head _
            subst head
            rw [byteLength_cons] at size
            omega

end Stencil
