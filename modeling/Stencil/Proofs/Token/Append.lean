import Stencil.Proofs.Token.Single
import Stencil.Proofs.Token.Written

/-!
# Tokens of texts put together

Where a text is cut stays where it is when more text comes behind it, unless that begins with a
closing brace.

1. `Candidate.at?_append`, `Candidate.find?_append_of_some`: a tag that is read stays as it is.
2. `Token.exists_scan_append`: a scan does the same up to the last tag of the text, and goes on with
   what is left there and with the text behind.
3. `Token.scan_shift`: a scan from a later position on gives the same tokens, moved.
4. `Token.ofSource_append`, `Token.ofSource_append_writeAll`: behind a tag any text is cut as if it
   stood alone, and behind raw text without braces so is text that begins with a tag.
-/

namespace Stencil

open Text

/-! ## Candidates -/

namespace Candidate

variable {text more before : List Char} {candidate : Candidate}

def followedBy (candidate : Candidate) (more : List Char) : Candidate :=
  { candidate with rest := candidate.rest ++ more }

/-- Behind the first closing brace, more text matters only if it goes on with closing braces. -/
theorem at?_append (closed : '\x7d' ∈ text) (apart : ∀ c ∈ more.head?, c ≠ '\x7d') :
    at? (text ++ more) = (at? text).map (followedBy · more) := by
  rw [at?_eq, at?_eq, runLength_append_of_mem (by decide) closed]
  split
  · have enough : min (runLength '\x7b' text) 3 ≤ runLength '\x7b' text := Nat.min_le_left _ _
    generalize min (runLength '\x7b' text) 3 = opening at enough
    have short : opening ≤ text.length := Nat.le_trans enough (List.takeWhile_prefix _).length_le
    have mem : '\x7d' ∈ text.drop opening := by
      rw [← replicate_append_drop enough, List.mem_append, List.mem_replicate] at closed
      exact closed.resolve_left fun opened => absurd opened.2 (by decide)
    obtain ⟨inner, close, split, unclosed, closes⟩ := exists_split_closing (text.drop opening)
    obtain ⟨c, others, rfl⟩ : ∃ c others, close = c :: others := by
      refine List.exists_cons_of_ne_nil ?_
      rintro rfl
      rw [split, List.append_nil] at mem
      exact unclosed mem
    have closes_more : ∀ d ∈ (c :: others ++ more).head?, d = '\x7d' := closes
    rw [List.drop_append_of_le_length short, split, List.append_assoc,
      read?_append _ unclosed closes, read?_append _ unclosed closes_more,
      runLength_append_of_stops apart]
    split
    · next fits =>
      have braces : min (runLength '\x7d' (c :: others)) 3 ≤ (c :: others).length :=
        Nat.le_trans (Nat.min_le_left _ _) (List.takeWhile_prefix _).length_le
      rw [List.drop_append_of_le_length braces]
      rfl
    · rfl
  · rfl

theorem closing_mem_of_at? (here : at? text = some candidate) : '\x7d' ∈ text := by
  obtain ⟨shape, leads, _⟩ := leads_of_at? here
  obtain ⟨rest, split, _⟩ := leads.closed
  refine List.drop_subset shape.opening text ?_
  rw [split]
  exact List.mem_append_right _ List.mem_cons_self

theorem closing_mem_of_find? (found : find? text = some (before, candidate)) : '\x7d' ∈ text := by
  obtain ⟨rest, rfl, here, _⟩ := find?_first found
  exact List.mem_append_right _ (closing_mem_of_at? here)

theorem opening_mem_of_find? (found : find? text = some (before, candidate)) :
    '\x7b' ∈ candidate.text := by
  obtain ⟨rest, _, here, _⟩ := find?_first found
  obtain ⟨shape, leads, _, _, rfl⟩ := leads_of_at? here
  exact (shape.prefix_text leads.two_le_opening).subset List.mem_cons_self

/-- The first tag of a text stays the first one. -/
theorem find?_append_of_some (found : find? text = some (before, candidate))
    (apart : ∀ c ∈ more.head?, c ≠ '\x7d') :
    find? (text ++ more) = some (before, candidate.followedBy more) := by
  induction text generalizing before with
  | nil => cases found
  | cons c text ih =>
    have same := at?_append (closing_mem_of_find? found) apart
    rw [find?] at found
    rw [List.cons_append, find?, ← List.cons_append, same]
    split at found
    · next here =>
      cases found
      rw [here]
      rfl
    · next absent =>
      obtain ⟨⟨before', candidate'⟩, later, same⟩ := Option.map_eq_some_iff.mp found
      cases same
      rw [absent, ih later]
      rfl

end Candidate

/-! ## Moved tokens -/

/-- A region that has moved towards the end. -/
def Span.shift (offset : Nat) (span : Span) : Span :=
  ⟨offset + span.start, offset + span.stop⟩

def Tag.shift (offset : Nat) (tag : Tag) : Tag :=
  { tag with span := tag.span.shift offset }

namespace Token

def shift (offset : Nat) : Token → Token
  | .raw text span rejected => .raw text (span.shift offset) rejected
  | .tag read => .tag (read.shift offset)

theorem ofRaw_shift (offset start : Nat) (text : List Char) (rejected : List String) :
    ofRaw (offset + start) text rejected = (ofRaw start text rejected).map (shift offset) := by
  unfold ofRaw
  split
  · rfl
  · rw [Nat.add_assoc]
    rfl

/-- A scan from a later position on gives the same tokens, moved. -/
theorem scan_shift (offset start : Nat) (raw : List Char) (rejected : List String)
    (text : List Char) : scan (offset + start) raw rejected text =
      (scan start raw rejected text).map (shift offset) := by
  induction start, raw, rejected, text using scan.induct with
  | case1 start raw rejected text missing =>
    rw [scan_of_none missing, scan_of_none missing, ofRaw_shift]
  | case2 start raw rejected text before candidate found balanced tagStart ih =>
    have placed (size : Nat) : offset + (start + size) = offset + start + size :=
      (Nat.add_assoc ..).symm
    rw [scan_of_balanced found balanced, scan_of_balanced found balanced, List.map_append,
      List.map_cons, ← ofRaw_shift, ← ih]
    simp only [tagStart, ofCandidate, shift, Tag.shift, Span.shift, Nat.add_assoc]
  | case3 start raw rejected text before candidate found unbalanced ih =>
    rw [scan_of_unbalanced found unbalanced, scan_of_unbalanced found unbalanced, ih]

end Token

/-! ## Scanning -/

namespace Token

/-- A scan with more text behind does the same up to the last tag of its own text. There `rest` is
still to be searched, in which no tag begins by itself, and `pending` is in no token yet. Each tag
that the scan of the text alone finds is found with more text behind it, too. -/
theorem exists_scan_append (start : Nat) (raw : List Char) (rejected : List String)
    (text : List Char) : ∃ tokens stop pending dropped rest,
      Candidate.find? rest = none ∧
        stop + byteLength (pending ++ rest) = start + byteLength (raw ++ text) ∧
        (('\x7b' ∉ raw → rejected = []) → '\x7b' ∉ pending → dropped = []) ∧
        ∀ more : List Char, (∀ c ∈ more.head?, c ≠ '\x7d') →
          scan start raw rejected (text ++ more) =
            tokens ++ scan stop pending dropped (rest ++ more) := by
  induction start, raw, rejected, text using scan.induct with
  | case1 start raw rejected text missing =>
    exact ⟨[], start, raw, rejected, text, missing, rfl, id, fun more apart => rfl⟩
  | case2 start raw rejected text before candidate found balanced tagStart ih =>
    obtain ⟨tokens, stop, pending, dropped, rest, missing, size, known, same⟩ := ih
    refine ⟨ofRaw start (raw ++ before) rejected ++ ofCandidate tagStart candidate :: tokens, stop,
      pending, dropped, rest, missing, ?_, fun _ => known fun _ => rfl, fun more apart => ?_⟩
    · rw [size, (Candidate.find?_spec found).1]
      simp only [tagStart, byteLength_append, List.nil_append]
      omega
    · have later := Candidate.find?_append_of_some found apart
      rw [scan_of_balanced later balanced, List.append_assoc, List.cons_append, ← same more apart]
      rfl
  | case3 start raw rejected text before candidate found unbalanced ih =>
    obtain ⟨tokens, stop, pending, dropped, rest, missing, size, known, same⟩ := ih
    have opened : '\x7b' ∈ raw ++ before ++ candidate.text :=
      List.mem_append_right _ (Candidate.opening_mem_of_find? found)
    refine ⟨tokens, stop, pending, dropped, rest, missing, ?_,
      fun _ => known fun unopened => absurd opened unopened, fun more apart => ?_⟩
    · rw [size, (Candidate.find?_spec found).1]
      simp only [List.append_assoc]
    · have later := Candidate.find?_append_of_some found apart
      rw [scan_of_unbalanced later unbalanced, ← same more apart]
      rfl

/-- The raw text behind the last tag. -/
def trailing (tokens : List Token) : String :=
  match tokens.getLast? with
  | some (.raw text _ _) => text
  | _ => ""

theorem trailing_append_ofRaw (tokens : List Token) (stop : Nat) {left : List Char}
    (nonempty : left ≠ []) (dropped : List String) :
    trailing (tokens ++ ofRaw stop left dropped) = String.ofList left := by
  rw [ofRaw, if_neg (by simpa using nonempty), trailing, List.getLast?_concat]

/-- Where the raw text behind the last tag holds no opening brace, the cuts in front of it are made
whatever comes behind, and a scan goes on from there. -/
theorem exists_ofSource_append {source : String}
    (unopened : '\x7b' ∉ (trailing (ofSource source)).toList) : ∃ tokens stop left,
      ofSource source = tokens ++ ofRaw stop left [] ∧
        stop + byteLength left = source.utf8ByteSize ∧
        ∀ more : List Char, (∀ c ∈ more.head?, c ≠ '\x7d') →
          scan 0 [] [] (source.toList ++ more) = tokens ++ scan stop left [] more := by
  obtain ⟨tokens, stop, pending, dropped, rest, missing, size, known, same⟩ :=
    exists_scan_append 0 [] [] source.toList
  have whole : ofSource source = tokens ++ ofRaw stop (pending ++ rest) dropped := by
    have alone := same [] nofun
    rwa [List.append_nil, List.append_nil, scan_of_none missing] at alone
  have unopened : '\x7b' ∉ pending ++ rest := by
    by_cases empty : pending ++ rest = []
    · rw [empty]
      exact List.not_mem_nil
    · rwa [whole, trailing_append_ofRaw tokens stop empty, String.toList_ofList] at unopened
  rw [List.mem_append, not_or] at unopened
  obtain rfl : dropped = [] := known (fun _ => rfl) unopened.1
  refine ⟨tokens, stop, pending ++ rest, whole, ?_, fun more apart => ?_⟩
  · rw [size, List.nil_append, byteLength_toList, Nat.zero_add]
  · rw [same more apart, scan_append_of_unopened unopened.2]

/-- Behind a tag a text is cut as if it stood alone, unless it begins with a closing brace. -/
theorem ofSource_append {source more : String} {last : Tag}
    (tagged : (ofSource source).getLast? = some (.tag last))
    (apart : ∀ c ∈ more.toList.head?, c ≠ '\x7d') :
    ofSource (source ++ more) =
      ofSource source ++ (ofSource more).map (shift source.utf8ByteSize) := by
  have unopened : '\x7b' ∉ (trailing (ofSource source)).toList := by
    rw [trailing, tagged]
    exact List.not_mem_nil
  obtain ⟨tokens, stop, left, whole, size, same⟩ := exists_ofSource_append unopened
  obtain rfl : left = [] := by
    by_contra nonempty
    rw [whole, ofRaw, if_neg (by simpa using nonempty), List.getLast?_concat] at tagged
    cases tagged
  rw [byteLength_nil, Nat.add_zero] at size
  have later := scan_shift stop 0 [] [] more.toList
  rw [Nat.add_zero] at later
  rw [whole, ofSource, String.toList_append, same _ apart, later, size, ofRaw]
  simp [ofSource]

/-- Behind raw text without opening braces, pieces that begin with a tag are cut where they were put
together. -/
theorem ofSource_append_writeAll {source : String} {pieces : List Piece}
    (unopened : '\x7b' ∉ (trailing (ofSource source)).toList) (separate : Piece.Apart pieces)
    (tag_first : ∀ piece ∈ pieces.head?, piece.isProse = false) :
    ofSource (source ++ String.ofList (Piece.writeAll pieces)) =
      ofSource source ++ Piece.tokens source.utf8ByteSize pieces := by
  obtain ⟨tokens, stop, left, whole, size, same⟩ := exists_ofSource_append unopened
  rw [whole, ofSource, String.toList_append, String.toList_ofList,
    same _ fun c => Piece.ne_of_mem_head?, scan_writeAll separate _ _ (.inr tag_first), size,
    List.append_assoc]

end Token

end Stencil
