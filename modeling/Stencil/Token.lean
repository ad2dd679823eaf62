import Stencil.Span
import Stencil.Text.Blank

/-!
# Tokens

A template is cut into raw text and tags. A tag is two or three opening braces, at most three
words with white space around them, and as many closing braces. Where the numbers of braces
differ, the tag is rejected: it stays part of the raw text, which remembers it.

1. `Candidate.find?_spec`: a candidate that is found splits the text into what stands before it,
   the tag and the rest.
2. `Token.scan` repeats the search behind each candidate, so the tokens cover the text in order.
-/

namespace Stencil

open Text

/-! ## Words -/

/-- A word ends at white space and at a closing brace. -/
def isWordChar (c : Char) : Bool :=
  !(c == '\x7d' || isBlank c)

/-- The next word of a text, possibly empty, and the text after it. -/
def cutWord (text : List Char) : List Char × List Char :=
  ((skipBlank text).takeWhile isWordChar, (skipBlank text).dropWhile isWordChar)

/-- The part of a text in front of one of its ends. -/
def frontOf (text rest : List Char) : List Char :=
  text.take (text.length - rest.length)

theorem cutWord_suffix (text : List Char) : (cutWord text).2 <:+ text :=
  (List.dropWhile_suffix _).trans (skipBlank_suffix text)

theorem frontOf_append {text rest : List Char} (h : rest <:+ text) :
    frontOf text rest ++ rest = text := by
  obtain ⟨front, rfl⟩ := h
  simp [frontOf]

/-! ## Candidates -/

/-- A text that reads as a tag, whether or not its braces match. -/
structure Candidate where
  /-- The number of opening braces, two or three. -/
  opening : Nat
  /-- The number of closing braces, two or three. -/
  closing : Nat
  first : List Char
  second : List Char
  third : List Char
  /-- The whole tag with its braces. -/
  text : List Char
  /-- The text after the tag. -/
  rest : List Char

namespace Candidate

/-- Reads the words and the closing braces of a tag behind `opening` braces. A fourth closing brace
is not part of the tag. -/
def read? (opening : Nat) (body : List Char) : Option Candidate :=
  let (first, afterFirst) := cutWord body
  let (second, afterSecond) := cutWord afterFirst
  let (third, afterThird) := cutWord afterSecond
  let close := skipBlank afterThird
  let closing := ((close.take 3).takeWhile (· == '\x7d')).length
  let rest := close.drop closing
  if closing < 2 then none
  else some {
    opening, closing, first, second, third, rest
    text := List.replicate opening '\x7b' ++ frontOf body rest }

/-- The tag that starts right here. Three opening braces go before two. -/
def at? : List Char → Option Candidate
  | '\x7b' :: '\x7b' :: '\x7b' :: body => read? 3 body <|> read? 2 ('\x7b' :: body)
  | '\x7b' :: '\x7b' :: body => read? 2 body
  | _ => none

def find? : List Char → Option (List Char × Candidate)
  | [] => none
  | c :: cs =>
    match at? (c :: cs) with
    | some candidate => some ([], candidate)
    | none => (find? cs).map fun (before, candidate) => (c :: before, candidate)

theorem read?_spec {opening : Nat} {body : List Char} {candidate : Candidate}
    (h : read? opening body = some candidate) :
    candidate.text ++ candidate.rest = List.replicate opening '\x7b' ++ body ∧
      candidate.opening = opening ∧ opening ≤ candidate.text.length := by
  simp only [read?] at h
  split at h
  · cases h
  · cases h
    refine ⟨?_, rfl, by simp⟩
    rw [List.append_assoc, frontOf_append]
    exact (List.drop_suffix _ _).trans ((skipBlank_suffix _).trans ((cutWord_suffix _).trans
      ((cutWord_suffix _).trans (cutWord_suffix _))))

/-- A candidate is a piece at the front of the text, of at least its opening braces. -/
theorem at?_spec {text : List Char} {candidate : Candidate} (h : at? text = some candidate) :
    candidate.text ++ candidate.rest = text ∧ 2 ≤ candidate.opening ∧ candidate.opening ≤ 3 ∧
      2 ≤ candidate.text.length := by
  suffices ∃ opening body, read? opening body = some candidate ∧ 2 ≤ opening ∧ opening ≤ 3 ∧
      List.replicate opening '\x7b' ++ body = text by
    obtain ⟨opening, body, read, least, most, whole⟩ := this
    obtain ⟨split, count, size⟩ := read?_spec read
    exact ⟨split.trans whole, by omega, by omega, by omega⟩
  unfold at? at h
  split at h
  · next body =>
    cases three : read? 3 body with
    | some other =>
      rw [three] at h
      exact ⟨3, body, three.trans h, by decide, by decide, rfl⟩
    | none =>
      rw [three] at h
      exact ⟨2, _, h, by decide, by decide, rfl⟩
  · exact ⟨2, _, h, by decide, by decide, rfl⟩
  · cases h

/-- A candidate that is found splits the text into what stands before it, the tag and the rest. -/
theorem find?_spec {text before : List Char} {candidate : Candidate}
    (h : find? text = some (before, candidate)) :
    text = before ++ (candidate.text ++ candidate.rest) ∧ 2 ≤ candidate.text.length := by
  induction text generalizing before with
  | nil => cases h
  | cons c cs ih =>
    rw [find?] at h
    split at h
    · next found =>
      cases h
      obtain ⟨split, _, _, size⟩ := at?_spec found
      exact ⟨split.symm, size⟩
    · next missing =>
      obtain ⟨⟨before', candidate'⟩, found, eq⟩ := Option.map_eq_some_iff.mp h
      cases eq
      obtain ⟨split, size⟩ := ih found
      exact ⟨by rw [split, List.cons_append], size⟩

theorem length_rest_lt {text before : List Char} {candidate : Candidate}
    (h : find? text = some (before, candidate)) : candidate.rest.length < text.length := by
  obtain ⟨split, size⟩ := find?_spec h
  rw [split, List.length_append, List.length_append]
  omega

end Candidate

/-! ## Tokens -/

/-- A tag with as many closing braces as opening ones. -/
structure Tag where
  /-- The number of braces on either side, two or three. -/
  braces : Nat
  first : String
  second : String
  third : String
  /-- The whole tag with its braces. -/
  text : String
  span : Span
  deriving DecidableEq, Repr

inductive Token where
  /-- Text outside the tags, with the unbalanced tags in it. -/
  | raw (text : String) (span : Span) (rejected : List String)
  | tag (tag : Tag)
  deriving DecidableEq, Repr

namespace Token

/-- Raw text is a token only where there is some. -/
def ofRaw (start : Nat) (text : List Char) (rejected : List String) : List Token :=
  if text.isEmpty then []
  else [.raw (String.ofList text) ⟨start, start + byteLength text⟩ rejected]

def ofCandidate (start : Nat) (candidate : Candidate) : Token :=
  .tag {
    braces := candidate.opening
    first := String.ofList candidate.first
    second := String.ofList candidate.second
    third := String.ofList candidate.third
    text := String.ofList candidate.text
    span := ⟨start, start + byteLength candidate.text⟩ }

/-- The tokens of a template from the position `start` on, where `raw` is the text since then that
no token holds yet, `rejected` the unbalanced tags in it, and `source` the text still to be
searched. An unbalanced tag joins the raw text, and the search goes on behind it. -/
def scan (start : Nat) (raw : List Char) (rejected : List String) (source : List Char) :
    List Token :=
  match _found : Candidate.find? source with
  | none => ofRaw start (raw ++ source) rejected
  | some (before, candidate) =>
    if candidate.opening = candidate.closing then
      let tagStart := start + byteLength (raw ++ before)
      ofRaw start (raw ++ before) rejected ++ ofCandidate tagStart candidate ::
        scan (tagStart + byteLength candidate.text) [] [] candidate.rest
    else
      scan start (raw ++ before ++ candidate.text)
        (rejected ++ [String.ofList candidate.text]) candidate.rest
termination_by source.length
decreasing_by all_goals exact Candidate.length_rest_lt _found

def ofSource (source : String) : List Token :=
  scan 0 [] [] source.toList

end Token

end Stencil
