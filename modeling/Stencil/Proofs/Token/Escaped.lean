import Stencil.Proofs.Text.Entity
import Stencil.Proofs.Token.Written

/-!
# Tokens of escaped texts

A text may be escaped before it is cut into tokens, or afterwards: entities neither hold nor end a
word, and no brace is in one.

1. `cutWord_escaped`, `drop_escaped`: words and runs of braces are cut off an escaped text as they
   are off the text.
2. `Candidate.find?_escaped`: the first tag of an escaped text is that of the text, escaped.
3. `Token.ofSource_escapeHtml`: so are all tokens, at the escaped positions.
-/

namespace Stencil

open Text

/-! ## Positions -/

/-- Where a position in a text is in the escaped text. -/
def escapedPosition (text : List Char) (position : Nat) : Nat :=
  byteLength (escaped ((takeBytes text position).getD []))

def Span.escaped (source : List Char) (span : Span) : Span :=
  ⟨escapedPosition source span.start, escapedPosition source span.stop⟩

theorem escapedPosition_append (front rest : List Char) :
    escapedPosition (front ++ rest) (byteLength front) = byteLength (escaped front) := by
  rw [escapedPosition, takeBytes_eq_some_iff.mpr ⟨rest, rfl, rfl⟩, Option.getD_some]

/-- A span stands between what is in front of its region and what is behind it, and where the text
is escaped, it stands between the same. -/
theorem Span.exists_of_fits {span : Span} {source : String} (fits : span.fits source = true) :
    ∃ before region after, source.toList = before ++ region ++ after ∧
      span = ⟨byteLength before, byteLength (before ++ region)⟩ ∧
      span.escaped source.toList =
        ⟨byteLength (Text.escaped before), byteLength (Text.escaped (before ++ region))⟩ := by
  obtain ⟨region, selected⟩ := Option.isSome_iff_exists.mp fits
  obtain ⟨before, after, split, start_eq, stop_eq⟩ := Span.select?_eq_some_iff.mp selected
  refine ⟨before, region, after, split, ?_, ?_⟩
  · rw [start_eq, stop_eq]
  · rw [Span.escaped, ← start_eq, ← stop_eq, split, escapedPosition_append, List.append_assoc,
      escapedPosition_append]

/-! ## Words and braces -/

theorem respects_isBlank : Respects isBlank := respects_of_entities false (by decide) (by decide)

theorem respects_isWordChar : Respects isWordChar :=
  respects_of_entities true (by decide) (by decide)

theorem cutWord_escaped (text : List Char) :
    cutWord (escaped text) = (escaped (cutWord text).1, escaped (cutWord text).2) := by
  simp only [cutWord, skipBlank, respects_isBlank.dropWhile_escaped,
    respects_isWordChar.takeWhile_escaped, respects_isWordChar.dropWhile_escaped]

theorem frontOf_escaped {text rest : List Char} (suffix : rest <:+ text) :
    frontOf (escaped text) (escaped rest) = escaped (frontOf text rest) := by
  obtain ⟨front, rfl⟩ := suffix
  rw [escaped_append, frontOf_append_right, frontOf_append_right]

section Braces

variable {brace : Char} (either : brace = '\x7b' ∨ brace = '\x7d')
include either

theorem respects_brace : Respects (· == brace) := by
  rcases either with rfl | rfl
  · exact respects_of_entities false (by decide) (by decide)
  · exact respects_of_entities false (by decide) (by decide)

theorem escaped_replicate (count : Nat) :
    escaped (List.replicate count brace) = List.replicate count brace := by
  have plain : brace ∉ specials := by
    rcases either with rfl | rfl <;> decide
  induction count with
  | zero => rfl
  | succ count ih =>
    rw [List.replicate_succ, escaped_cons, escapeChar_of_not_special plain, ih,
      List.singleton_append]

theorem runLength_escaped (text : List Char) :
    runLength brace (escaped text) = runLength brace text := by
  have run : text.takeWhile (· == brace) = List.replicate (runLength brace text) brace :=
    List.eq_replicate_iff.mpr ⟨rfl, fun c mem => by
      simpa using List.all_eq_true.mp List.all_takeWhile c mem⟩
  rw [runLength, (respects_brace either).takeWhile_escaped, run, escaped_replicate either,
    List.length_replicate]

/-- Braces may be dropped before a text is escaped, or afterwards. -/
theorem drop_escaped {text : List Char} {count : Nat} (enough : count ≤ runLength brace text) :
    (escaped text).drop count = escaped (text.drop count) := by
  conv => lhs; rw [← replicate_append_drop enough]
  rw [escaped_append, escaped_replicate either]
  exact List.drop_left' List.length_replicate

end Braces

/-! ## Candidates -/

namespace Candidate

def escaped (candidate : Candidate) : Candidate where
  opening := candidate.opening
  closing := candidate.closing
  first := Text.escaped candidate.first
  second := Text.escaped candidate.second
  third := Text.escaped candidate.third
  text := Text.escaped candidate.text
  rest := Text.escaped candidate.rest

theorem read?_escaped (opening : Nat) (body : List Char) :
    read? opening (Text.escaped body) = (read? opening body).map escaped := by
  have close : skipBlank (cutWord (cutWord (cutWord (Text.escaped body)).2).2).2 =
      Text.escaped (skipBlank (cutWord (cutWord (cutWord body).2).2).2) := by
    rw [cutWord_escaped, cutWord_escaped, cutWord_escaped, skipBlank, skipBlank,
      respects_isBlank.dropWhile_escaped]
  have suffix : skipBlank (cutWord (cutWord (cutWord body).2).2).2 <:+ body :=
    (skipBlank_suffix _).trans ((cutWord_suffix _).trans
      ((cutWord_suffix _).trans (cutWord_suffix _)))
  simp only [read?, close, length_takeWhile_take, runLength_escaped (.inr rfl),
    drop_escaped (.inr rfl) (Nat.min_le_left _ _)]
  split
  · rfl
  · rw [frontOf_escaped ((List.drop_suffix _ _).trans suffix), Option.map_some]
    simp only [escaped, cutWord_escaped, escaped_append, escaped_replicate (.inl rfl)]

theorem at?_escaped (text : List Char) : at? (Text.escaped text) = (at? text).map escaped := by
  rw [at?_eq, at?_eq, runLength_escaped (.inl rfl)]
  split
  · rw [drop_escaped (.inl rfl) (Nat.min_le_left _ _), read?_escaped]
  · rfl

/-- The first tag of an escaped text is that of the text. No tag begins at a character that is
escaped, or in an entity. -/
theorem find?_escaped (text : List Char) : find? (Text.escaped text) =
    (find? text).map (Prod.map Text.escaped escaped) := by
  induction text with
  | nil => rfl
  | cons c text ih =>
    rcases escapeChar_cases c with ⟨_, same⟩ | ⟨special, entity, mem, same⟩
    · have whole : Text.escaped (c :: text) = c :: Text.escaped text := by
        rw [escaped_cons, same, List.singleton_append]
      rw [whole, find?, ← whole, at?_escaped, find?, ih]
      cases at? (c :: text) with
      | some candidate => rfl
      | none =>
        simp only [Option.map_none, Option.map_map]
        refine congrArg (Option.map · (find? text)) (funext fun found => ?_)
        simp [same]
    · have other : c ≠ '\x7b' := by
        rintro rfl
        exact absurd special (by decide)
      have all : ∀ entity ∈ entities, entity.toList.all (!isBrace ·) = true := by decide
      have free : ∀ d ∈ entity.toList, isBrace d = false := by simpa using all entity mem
      rw [escaped_cons, same, find?_append free, ih, find?, at?_of_ne other]
      simp only [Option.map_map]
      refine congrArg (Option.map · (find? text)) (funext fun found => ?_)
      simp [same]

theorem find?_escaped_of_some {text before : List Char} {candidate : Candidate}
    (found : find? text = some (before, candidate)) :
    find? (Text.escaped text) = some (Text.escaped before, candidate.escaped) := by
  rw [find?_escaped, found]
  rfl

end Candidate

/-! ## Tokens -/

def Tag.escaped (source : List Char) (tag : Tag) : Tag where
  braces := tag.braces
  first := escapeHtml tag.first
  second := escapeHtml tag.second
  third := escapeHtml tag.third
  text := escapeHtml tag.text
  span := tag.span.escaped source

namespace Token

def escaped (source : List Char) : Token → Token
  | .raw text span rejected =>
    .raw (escapeHtml text) (span.escaped source) (rejected.map escapeHtml)
  | .tag read => .tag (read.escaped source)

theorem ofRaw_escaped (front text rest : List Char) (rejected : List String) :
    ofRaw (byteLength (Text.escaped front)) (Text.escaped text) (rejected.map escapeHtml) =
      (ofRaw (byteLength front) text rejected).map (escaped (front ++ text ++ rest)) := by
  cases text with
  | nil => rfl
  | cons c text =>
    have nonempty : Text.escaped (c :: text) ≠ [] := by
      rw [Ne, escaped_eq_nil_iff]
      exact List.cons_ne_nil c text
    have stop := escapedPosition_append (front ++ c :: text) rest
    rw [byteLength_append, escaped_append, byteLength_append] at stop
    rw [ofRaw, if_neg (by simpa using nonempty), ofRaw, if_neg (by simp), List.map_singleton,
      escaped, escapeHtml_ofList, Span.escaped, stop, List.append_assoc, escapedPosition_append]

theorem ofCandidate_escaped (front : List Char) (candidate : Candidate) :
    ofCandidate (byteLength (Text.escaped front)) candidate.escaped =
      escaped (front ++ candidate.text ++ candidate.rest)
        (ofCandidate (byteLength front) candidate) := by
  have start := escapedPosition_append front (candidate.text ++ candidate.rest)
  have stop := escapedPosition_append (front ++ candidate.text) candidate.rest
  rw [← List.append_assoc] at start
  rw [byteLength_append, escaped_append, byteLength_append] at stop
  simp only [ofCandidate, escaped, Tag.escaped, Span.escaped, escapeHtml_ofList, start, stop]
  rfl

/-- Scanning an escaped text, from any state of the scan on. -/
theorem scan_escaped {source : List Char} (start : Nat) (raw : List Char) (rejected : List String)
    (text : List Char) : ∀ front, source = front ++ raw ++ text → start = byteLength front →
      scan (byteLength (Text.escaped front)) (Text.escaped raw) (rejected.map escapeHtml)
          (Text.escaped text) =
        (scan start raw rejected text).map (escaped source) := by
  induction start, raw, rejected, text using scan.induct with
  | case1 start raw rejected text missing =>
    rintro front rfl rfl
    have none_escaped : Candidate.find? (Text.escaped text) = none := by
      rw [Candidate.find?_escaped, missing]
      rfl
    rw [scan_of_none none_escaped, scan_of_none missing, ← escaped_append,
      ofRaw_escaped front (raw ++ text) [], List.append_nil, List.append_assoc]
  | case2 start raw rejected text before candidate found balanced tagStart ih =>
    rintro front split rfl
    have found_escaped := Candidate.find?_escaped_of_some found
    have balanced_escaped : candidate.escaped.opening = candidate.escaped.closing := balanced
    have whole : source = front ++ (raw ++ before) ++ candidate.text ++ candidate.rest := by
      rw [split, (Candidate.find?_spec found).1]
      simp only [List.append_assoc]
    have placed : tagStart = byteLength (front ++ (raw ++ before)) := (byteLength_append ..).symm
    have placed_escaped : byteLength (Text.escaped (front ++ (raw ++ before))) =
        byteLength (Text.escaped front) + byteLength (Text.escaped (raw ++ before)) := by
      rw [escaped_append, byteLength_append]
    have raw_eq := ofRaw_escaped front (raw ++ before) (candidate.text ++ candidate.rest) rejected
    rw [← List.append_assoc, ← whole] at raw_eq
    have tag_eq := ofCandidate_escaped (front ++ (raw ++ before)) candidate
    rw [← whole, placed_escaped, ← placed] at tag_eq
    have later := ih (front ++ (raw ++ before) ++ candidate.text)
      (by rw [List.append_nil, whole]) (by rw [byteLength_append, ← placed])
    rw [escaped_append, byteLength_append, placed_escaped] at later
    rw [scan_of_balanced found_escaped balanced_escaped, scan_of_balanced found balanced,
      List.map_append, List.map_cons, ← escaped_append, raw_eq, tag_eq]
    exact congrArg (_ ++ _ :: ·) later
  | case3 start raw rejected text before candidate found unbalanced ih =>
    rintro front split rfl
    have found_escaped := Candidate.find?_escaped_of_some found
    have unbalanced_escaped : ¬ candidate.escaped.opening = candidate.escaped.closing := unbalanced
    have whole : source = front ++ (raw ++ before ++ candidate.text) ++ candidate.rest := by
      rw [split, (Candidate.find?_spec found).1]
      simp only [List.append_assoc]
    rw [scan_of_unbalanced found_escaped unbalanced_escaped, scan_of_unbalanced found unbalanced,
      ← ih front whole rfl, escaped_append, escaped_append, List.map_append, List.map_singleton,
      escapeHtml_ofList]
    rfl

/-- A text may be escaped before it is cut into tokens, or afterwards. -/
theorem ofSource_escapeHtml (text : String) :
    ofSource (escapeHtml text) = (ofSource text).map (escaped text.toList) := by
  have all := scan_escaped 0 [] [] text.toList [] rfl rfl
  rwa [ofSource, toList_escapeHtml]

end Token

end Stencil
