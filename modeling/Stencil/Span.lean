import Stencil.Text.Bytes

/-!
# Spans

A span is a half open range of byte positions in a text. It selects a region of a text when both
ends lie on character boundaries within it, in the right order (`select?_eq_some_iff`).
-/

namespace Stencil

/-- The bytes from `start` up to, but not including, `stop`. -/
structure Span where
  start : Nat
  stop : Nat
  deriving DecidableEq, Repr, Inhabited

namespace Span

/-- The region of a text that a span covers, if it covers one. -/
def select? (span : Span) (text : List Char) : Option (List Char) :=
  if span.start ≤ span.stop then
    (dropBytes text span.start).bind (takeBytes · (span.stop - span.start))
  else none

def fits (span : Span) (source : String) : Bool :=
  (span.select? source.toList).isSome

/-- A span selects exactly the characters that stand between its two ends. -/
theorem select?_eq_some_iff {span : Span} {text region : List Char} :
    span.select? text = some region ↔
      ∃ before after, text = before ++ region ++ after ∧
        byteLength before = span.start ∧ byteLength (before ++ region) = span.stop := by
  unfold select?
  split
  · next ordered =>
    rw [Option.bind_eq_some_iff]
    constructor
    · rintro ⟨rest, dropped, taken⟩
      obtain ⟨before, rfl, start_eq⟩ := dropBytes_eq_some_iff.mp dropped
      obtain ⟨after, rfl, size⟩ := takeBytes_eq_some_iff.mp taken
      refine ⟨before, after, (List.append_assoc ..).symm, start_eq, ?_⟩
      rw [byteLength_append]
      omega
    · rintro ⟨before, after, rfl, start_eq, stop_eq⟩
      rw [byteLength_append] at stop_eq
      refine ⟨region ++ after, dropBytes_eq_some_iff.mpr ⟨before, ?_, start_eq⟩,
        takeBytes_eq_some_iff.mpr ⟨after, rfl, by omega⟩⟩
      rw [List.append_assoc]
  · next disordered =>
    constructor
    · intro h
      cases h
    · rintro ⟨before, after, _, start_eq, stop_eq⟩
      rw [byteLength_append] at stop_eq
      omega

theorem select?_region (front region rest : List Char) :
    select? ⟨byteLength front, byteLength (front ++ region)⟩ (front ++ region ++ rest) =
      some region :=
  select?_eq_some_iff.mpr ⟨front, rest, rfl, rfl, rfl⟩

end Span

end Stencil
