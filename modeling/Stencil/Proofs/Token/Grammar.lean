import Stencil.Proofs.Token.Cover
import Stencil.Proofs.Token.Shape
import Stencil.Proofs.Outline.Notices

/-!
# The grammar of tokens

The tokens of a template are those of a scan that goes from tag to tag, by their shapes and byte
positions alone.

1. `Shape.At`: a tag of some shape stands at a position of a text.
2. `Scans`: the scan from left to right, which emits the balanced tags and the text between them
   and remembers the unbalanced ones.
3. `Token.ofSource_eq_iff_scans`: the tokens of a template are those of the scan, and no others,
   and each unbalanced tag is noted once.
-/

namespace Stencil

/-! ## Positions -/

/-- What begins behind some text is a part of the text after it. -/
theorem exists_of_dropBytes {front rest text : List Char} {position : Nat}
    (found : dropBytes (front ++ rest) position = some text)
    (behind : byteLength front ≤ position) :
    ∃ middle, rest = middle ++ text ∧ position = byteLength front + byteLength middle := by
  obtain ⟨before, split, size⟩ := dropBytes_eq_some_iff.mp found
  rcases List.append_eq_append_iff.mp split with ⟨middle, rfl, rest_eq⟩ | ⟨middle, rfl, text_eq⟩
  · exact ⟨middle, rest_eq, by rw [← size, byteLength_append]⟩
  · rw [byteLength_append] at behind
    obtain rfl := byteLength_eq_zero_iff.mp (by omega : byteLength middle = 0)
    exact ⟨[], text_eq.symm, by simpa using size.symm⟩

namespace Shape

/-- A tag of this shape stands at a position of a text. -/
def At (shape : Shape) (source : List Char) (start : Nat) : Prop :=
  ∃ text, dropBytes source start = some text ∧ shape.Leads text

def stop (shape : Shape) (start : Nat) : Nat :=
  start + shape.opening + byteLength shape.inner + shape.closing

/-- The tag at a position is the first one at or behind another position. -/
structure FirstAt (shape : Shape) (source : List Char) (position start : Nat) : Prop where
  here : shape.At source start
  behind : position ≤ start
  least : ∀ earlier, position ≤ earlier → earlier < start → ∀ other : Shape,
    ¬ other.At source earlier

def tag (shape : Shape) (start : Nat) : Tag where
  braces := shape.opening
  first := String.ofList (shape.word 0)
  second := String.ofList (shape.word 1)
  third := String.ofList (shape.word 2)
  text := String.ofList shape.text
  span := ⟨start, shape.stop start⟩

theorem byteLength_replicate {c : Char} (ascii : c.utf8Size = 1) (count : Nat) :
    byteLength (List.replicate count c) = count := by
  induction count with
  | zero => rfl
  | succ count ih => rw [List.replicate_succ, byteLength_cons, ascii, ih, Nat.add_comm]

theorem stop_eq (shape : Shape) (start : Nat) :
    shape.stop start = start + byteLength shape.text := by
  have opening : '\x7b'.utf8Size = 1 := rfl
  have closing : '\x7d'.utf8Size = 1 := rfl
  rw [stop, text, byteLength_append, byteLength_append, byteLength_replicate opening,
    byteLength_replicate closing]
  omega

/-- No text begins with tags of two shapes. -/
theorem Leads.unique {shape other : Shape} {text : List Char} (leads : shape.Leads text)
    (other_leads : other.Leads text) : shape = other := by
  obtain ⟨rest, _, found⟩ := Candidate.at?_of_leads leads
  obtain ⟨rest', _, found'⟩ := Candidate.at?_of_leads other_leads
  have same := Option.some.inj (found.symm.trans found')
  obtain ⟨opening, inner, closing⟩ := shape
  obtain ⟨opening', inner', closing'⟩ := other
  obtain rfl : opening = opening' := congrArg Candidate.opening same
  obtain rfl : closing = closing' := congrArg Candidate.closing same
  have texts := congrArg Candidate.text same
  obtain rfl : inner = inner' :=
    List.append_cancel_right (List.append_cancel_left texts)
  rfl

variable {shape other : Shape} {source : List Char} {position start start' : Nat}

theorem At.unique (here : shape.At source start) (other_here : other.At source start) :
    shape = other := by
  obtain ⟨text, found, leads⟩ := here
  obtain ⟨text', found', leads'⟩ := other_here
  obtain rfl := Option.some.inj (found.symm.trans found')
  exact leads.unique leads'

theorem FirstAt.unique (first : shape.FirstAt source position start)
    (other_first : other.FirstAt source position start') : start = start' ∧ shape = other := by
  obtain rfl : start = start' := by
    rcases Nat.lt_trichotomy start start' with before | same | behind
    · exact absurd first.here (other_first.least start first.behind before shape)
    · exact same
    · exact absurd other_first.here (first.least start' other_first.behind behind other)
  exact ⟨rfl, first.here.unique other_first.here⟩

end Shape

/-! ## Scanning -/

/-- The tokens of a region without balanced tags: none where it is empty, and else one with its
text, its positions and the unbalanced tags in it. -/
inductive RawBetween (source : List Char) (start stop : Nat) (rejected : List String) :
    List Token → Prop where
  | nothing (empty : start = stop) : RawBetween source start stop rejected []
  | text {text : String} (nonempty : start < stop)
      (region : Span.select? ⟨start, stop⟩ source = some text.toList) :
      RawBetween source start stop rejected [.raw text ⟨start, stop⟩ rejected]

/-- The tokens of the rest of a text, where all up to `emitted` is in tokens already, the search
goes on from `position`, and `rejected` are the unbalanced tags in between. -/
inductive Scans (source : List Char) : Nat → Nat → List String → List Token → Prop where
  /-- There are no more tags. -/
  | ends {emitted position : Nat} {rejected : List String} {tokens : List Token}
      (none : ∀ start, position ≤ start → ∀ shape : Shape, ¬ shape.At source start)
      (rest : RawBetween source emitted (byteLength source) rejected tokens) :
      Scans source emitted position rejected tokens
  /-- The first tag has as many closing braces as opening ones. -/
  | balanced {emitted position start : Nat} {rejected : List String} {shape : Shape}
      {front tokens : List Token} (first : shape.FirstAt source position start)
      (same : shape.opening = shape.closing)
      (before : RawBetween source emitted start rejected front)
      (later : Scans source (shape.stop start) (shape.stop start) [] tokens) :
      Scans source emitted position rejected (front ++ .tag (shape.tag start) :: tokens)
  /-- The first tag is unbalanced, and stays in the text. -/
  | unbalanced {emitted position start : Nat} {rejected : List String} {shape : Shape}
      {tokens : List Token} (first : shape.FirstAt source position start)
      (different : shape.opening ≠ shape.closing)
      (later : Scans source emitted (shape.stop start) (rejected ++ [String.ofList shape.text])
        tokens) :
      Scans source emitted position rejected tokens

namespace RawBetween

variable {source : List Char} {start stop : Nat} {rejected : List String} {tokens : List Token}

theorem unique (raw : RawBetween source start stop rejected tokens) {tokens' : List Token}
    (other : RawBetween source start stop rejected tokens') : tokens = tokens' := by
  cases raw with
  | nothing empty =>
    cases other with
    | nothing => rfl
    | text nonempty => omega
  | text nonempty region =>
    cases other with
    | nothing empty => omega
    | text _ region' => rw [String.toList_inj.mp (Option.some.inj (region.symm.trans region'))]

theorem tag_not_mem (raw : RawBetween source start stop rejected tokens) {tag : Tag} :
    .tag tag ∉ tokens := by
  cases raw <;> simp

theorem ofRaw (front region rest : List Char) (rejected : List String) :
    RawBetween (front ++ region ++ rest) (byteLength front) (byteLength (front ++ region)) rejected
      (Token.ofRaw (byteLength front) region rejected) := by
  rw [Token.ofRaw]
  split
  next empty =>
    rw [List.isEmpty_iff.mp empty, List.append_nil]
    exact .nothing rfl
  next nonempty =>
    have wide : byteLength region ≠ 0 := fun none =>
      nonempty (List.isEmpty_iff.mpr (byteLength_eq_zero_iff.mp none))
    rw [← byteLength_append]
    refine .text (by rw [byteLength_append]; omega) ?_
    rw [String.toList_ofList]
    exact Span.select?_region front region rest

end RawBetween

namespace Scans

variable {source : List Char} {emitted position : Nat} {rejected : List String}

/-- The scan leaves no choice. -/
theorem unique {tokens tokens' : List Token} (scans : Scans source emitted position rejected tokens)
    (other : Scans source emitted position rejected tokens') : tokens = tokens' := by
  induction scans generalizing tokens' with
  | ends none rest =>
    cases other with
    | ends _ rest' => exact rest.unique rest'
    | balanced first _ _ _ => exact absurd first.here (none _ first.behind _)
    | unbalanced first _ _ => exact absurd first.here (none _ first.behind _)
  | balanced first same before later ih =>
    cases other with
    | ends none _ => exact absurd first.here (none _ first.behind _)
    | balanced first' same' before' later' =>
      obtain ⟨rfl, rfl⟩ := first.unique first'
      rw [before.unique before', ih later']
    | unbalanced first' different _ =>
      obtain ⟨rfl, rfl⟩ := first.unique first'
      exact absurd same different
  | unbalanced first different later ih =>
    cases other with
    | ends none _ => exact absurd first.here (none _ first.behind _)
    | balanced first' same _ _ =>
      obtain ⟨rfl, rfl⟩ := first.unique first'
      exact absurd same different
    | unbalanced first' _ later' =>
      obtain ⟨rfl, rfl⟩ := first.unique first'
      exact ih later'

end Scans

namespace Candidate

/-- A candidate that is found is the first tag behind what stands in front of the text. -/
theorem firstAt_of_find? {source before : List Char} {candidate : Candidate}
    (found : find? source = some (before, candidate)) (front : List Char) :
    ∃ shape rest, source = before ++ (Shape.text shape ++ rest) ∧
      candidate = shape.candidate rest ∧
      shape.FirstAt (front ++ source) (byteLength front) (byteLength (front ++ before)) := by
  obtain ⟨behind, split, here, none_before⟩ := find?_first found
  obtain ⟨shape, leads, rest, behind_eq, same⟩ := leads_of_at? here
  refine ⟨shape, rest, by rw [split, behind_eq], same, ⟨behind, ?_, leads⟩, ?_, ?_⟩
  · exact dropBytes_eq_some_iff.mpr ⟨front ++ before, by rw [split, List.append_assoc], rfl⟩
  · rw [byteLength_append]
    exact Nat.le_add_right _ _
  · rintro earlier from_front before_tag other ⟨text, dropped, other_leads⟩
    obtain ⟨middle, source_eq, rfl⟩ := exists_of_dropBytes dropped from_front
    obtain ⟨_, _, read⟩ := at?_of_leads other_leads
    rw [byteLength_append] at before_tag
    rw [split] at source_eq
    rcases List.append_eq_append_iff.mp source_eq with ⟨late, rfl, _⟩ | ⟨back, rfl, text_eq⟩
    · rw [byteLength_append] at before_tag
      omega
    · have nonempty : back ≠ [] := by
        rintro rfl
        simp at before_tag
      rw [text_eq, none_before middle back rfl nonempty] at read
      cases read

end Candidate

namespace Token

theorem ofCandidate_candidate (shape : Shape) (rest : List Char) (start : Nat) :
    ofCandidate start (shape.candidate rest) = .tag (shape.tag start) := by
  have ends := shape.stop_eq start
  rw [Shape.tag, ends]
  rfl

/-- The tokens of a text come from a scan, whatever stands in front of the text. -/
theorem scans_scan {whole : List Char} (start : Nat) (raw : List Char) (rejected : List String)
    (source : List Char) : ∀ front, whole = front ++ raw ++ source → start = byteLength front →
      Scans whole start (byteLength (front ++ raw)) rejected (scan start raw rejected source) := by
  induction start, raw, rejected, source using scan.induct with
  | case1 start raw rejected source missing =>
    intro front split placed
    rw [scan_of_none missing]
    refine .ends ?_ ?_
    · rintro position behind shape ⟨text, dropped, leads⟩
      rw [split] at dropped
      obtain ⟨middle, source_eq, _⟩ := exists_of_dropBytes dropped behind
      obtain ⟨_, _, read⟩ := Candidate.at?_of_leads leads
      rw [Candidate.find?_eq_none missing source_eq] at read
      cases read
    · have all := RawBetween.ofRaw front (raw ++ source) [] rejected
      rwa [List.append_nil, ← List.append_assoc, ← split, ← placed] at all
  | case2 start raw rejected source before candidate found balanced tagStart ih =>
    intro front split placed
    obtain ⟨shape, rest, source_eq, rfl, first⟩ := Candidate.firstAt_of_find? found (front ++ raw)
    have whole_eq : whole = front ++ (raw ++ before) ++ (shape.text ++ rest) := by
      rw [split, source_eq]
      simp only [List.append_assoc]
    have tag_start : tagStart = byteLength (front ++ (raw ++ before)) := by
      rw [byteLength_append, ← placed]
    have tag_stop : shape.stop tagStart = byteLength (front ++ (raw ++ before) ++ shape.text) := by
      rw [shape.stop_eq, byteLength_append (front ++ _), tag_start]
    rw [← split, List.append_assoc, ← tag_start] at first
    rw [scan_of_balanced found balanced, ofCandidate_candidate]
    refine .balanced first balanced ?_ ?_
    · have region := RawBetween.ofRaw front (raw ++ before) (shape.text ++ rest) rejected
      rwa [← whole_eq, ← placed, ← tag_start] at region
    · have after_tag : whole = front ++ (raw ++ before) ++ shape.text ++ [] ++ rest := by
        rw [whole_eq, List.append_nil]
        simp only [List.append_assoc]
      have later := ih _ after_tag (by rw [← tag_stop, shape.stop_eq]; rfl)
      rw [List.append_nil, ← tag_stop] at later
      rw [shape.stop_eq] at later ⊢
      exact later
  | case3 start raw rejected source before candidate found unbalanced ih =>
    intro front split placed
    obtain ⟨shape, rest, source_eq, rfl, first⟩ := Candidate.firstAt_of_find? found (front ++ raw)
    have tag_stop : shape.stop (byteLength (front ++ raw ++ before)) =
        byteLength (front ++ (raw ++ before ++ shape.text)) := by
      rw [shape.stop_eq]
      simp only [byteLength_append, Nat.add_assoc]
    rw [← split] at first
    rw [scan_of_unbalanced found unbalanced]
    refine .unbalanced first unbalanced ?_
    rw [tag_stop]
    refine ih front ?_ placed
    rw [split, source_eq]
    simp only [Shape.candidate, List.append_assoc]

/-- The tokens of a template are exactly those of the scan, and compiling the template notes each
tag that the scan finds unbalanced, once and in order. -/
theorem ofSource_eq_iff_scans (source : String) :
    (∀ tokens, ofSource source = tokens ↔ Scans source.toList 0 0 [] tokens) ∧
      (Program.compile source).notices.filterMap Notice.unbalanced? =
        (ofSource source).flatMap Token.rejected := by
  have scans : Scans source.toList 0 0 [] (ofSource source) :=
    scans_scan 0 [] [] source.toList [] rfl rfl
  refine ⟨fun tokens => ⟨?_, scans.unique⟩, Program.unbalanced_compile source⟩
  rintro rfl
  exact scans

end Token

end Stencil
