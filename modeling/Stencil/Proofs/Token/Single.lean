import Stencil.Proofs.Token.Grammar

/-!
# Tags by themselves

A tag of a template is a template of its own, with nothing in it but this tag.

1. `Shape.Leads.alone`: a tag is read in the same way without the text behind it.
2. `Token.exists_shape_of_mem`: each tag of a template has a shape with as many closing braces as
   opening ones.
3. `Token.ofSource_text`: by itself it is one token, from its first brace to its last one.
-/

namespace Stencil

theorem runLength_append_of_mem {c d : Char} (other : d ≠ c) {front : List Char} (mem : d ∈ front)
    (rest : List Char) : runLength c (front ++ rest) = runLength c front := by
  induction front with
  | nil => cases mem
  | cons first front ih =>
    rw [List.cons_append, runLength_cons, runLength_cons]
    split
    · next same =>
      have mem_front : d ∈ front := by
        rcases List.mem_cons.mp mem with rfl | mem
        · exact absurd same other
        · exact mem
      rw [ih mem_front]
    · rfl

namespace Shape

variable {shape : Shape} {text : List Char}

/-- A tag has two or three braces on either side. -/
theorem Leads.two_le_opening (leads : shape.Leads text) : 2 ≤ shape.opening := by
  rw [leads.opening]
  exact Nat.le_min.mpr ⟨leads.several, by decide⟩

theorem Leads.closing_bounds (leads : shape.Leads text) :
    2 ≤ shape.closing ∧ shape.closing ≤ 3 := by
  obtain ⟨rest, _, closers⟩ := leads.closed
  rw [closers]
  simp only [runLength_cons, if_true]
  omega

theorem prefix_text (several : 2 ≤ shape.opening) : ['\x7b', '\x7b'] <+: shape.text := by
  obtain ⟨more, same⟩ := Nat.exists_eq_add_of_le several
  rw [text, same, ← List.replicate_append_replicate, List.append_assoc]
  exact List.prefix_append _ _

theorem suffix_text (several : 2 ≤ shape.closing) : ['\x7d', '\x7d'] <:+ shape.text := by
  obtain ⟨more, same⟩ := Nat.exists_eq_add_of_le' several
  rw [text, same, ← List.replicate_append_replicate, ← List.append_assoc, ← List.append_assoc]
  exact List.suffix_append _ _

/-- A tag is read in the same way without the text behind it: a closing brace ends the opening ones,
so none of that text counts as one of them. -/
theorem Leads.alone {rest : List Char} (leads : shape.Leads (shape.text ++ rest)) :
    shape.Leads shape.text := by
  obtain ⟨least, most⟩ := leads.closing_bounds
  obtain ⟨more, closing⟩ := Nat.exists_eq_add_of_le least
  have closers : List.replicate shape.closing '\x7d' =
      '\x7d' :: '\x7d' :: List.replicate more '\x7d' := by
    rw [closing, ← List.replicate_append_replicate]
    rfl
  have mem : '\x7d' ∈ shape.text := by
    rw [text, closers]
    simp
  have same := runLength_append_of_mem (show '\x7d' ≠ '\x7b' by decide) mem rest
  refine ⟨?_, ?_, ⟨List.replicate more '\x7d', ?_, ?_⟩, leads.first, leads.few⟩
  · rw [← same]
    exact leads.several
  · rw [← same]
    exact leads.opening
  · rw [text, ← closers]
    simp
  · have nothing : ∀ c ∈ ([] : List Char).head?, c ≠ '\x7d' := by simp
    have braces := runLength_replicate '\x7d' shape.closing nothing
    rw [List.append_nil, closers] at braces
    rw [braces]
    exact (Nat.min_eq_left most).symm

end Shape

/-- The tags of a text are those that the scan finds balanced. -/
theorem Scans.exists_shape {source : List Char} {emitted position : Nat} {rejected : List String}
    {tokens : List Token} (scans : Scans source emitted position rejected tokens) {tag : Tag}
    (mem : .tag tag ∈ tokens) :
    ∃ shape : Shape, ∃ start, tag = shape.tag start ∧ shape.At source start ∧
      shape.opening = shape.closing := by
  induction scans with
  | ends none rest => exact absurd mem rest.tag_not_mem
  | balanced first same before later ih =>
    rcases List.mem_append.mp mem with mem | mem
    · exact absurd mem before.tag_not_mem
    · rcases List.mem_cons.mp mem with here | mem
      · exact ⟨_, _, Token.tag.inj here, first.here, same⟩
      · exact ih mem
  | unbalanced first different later ih => exact ih mem

namespace Token

theorem exists_shape_of_mem {source : String} {tag : Tag} (mem : .tag tag ∈ ofSource source) :
    ∃ shape : Shape, ∃ start, tag = shape.tag start ∧ shape.At source.toList start ∧
      shape.opening = shape.closing :=
  (scans_scan 0 [] [] source.toList [] rfl rfl).exists_shape mem

/-- A tag by itself is one token. -/
theorem ofSource_text {shape : Shape} (leads : shape.Leads shape.text)
    (balanced : shape.opening = shape.closing) :
    ofSource (String.ofList shape.text) = [.tag (shape.tag 0)] := by
  obtain ⟨rest, split, read⟩ := Candidate.at?_of_leads leads
  obtain rfl : rest = [] := List.self_eq_append_right.mp split
  have found : Candidate.find? shape.text = some ([], shape.candidate []) := by
    cases whole : shape.text with
    | nil =>
      rw [whole] at read
      cases read
    | cons c text =>
      rw [whole] at read
      rw [Candidate.find?, read]
  have missing : Candidate.find? (shape.candidate []).rest = none := rfl
  rw [ofSource, String.toList_ofList, scan_of_balanced found balanced, scan_of_none missing,
    List.append_nil, byteLength_nil, Nat.add_zero, ofCandidate_candidate]
  rfl

/-- A tag of a template, as its text and by itself: one token from its first brace to its last
one. -/
theorem single_of_mem {source : String} {tag : Tag} (mem : .tag tag ∈ ofSource source) :
    (∃ alone, ofSource tag.text = [.tag alone]) ∧ ['\x7b', '\x7b'] <+: tag.text.toList ∧
      ['\x7d', '\x7d'] <:+ tag.text.toList := by
  obtain ⟨shape, start, rfl, ⟨text, _, leads⟩, balanced⟩ := exists_shape_of_mem mem
  obtain ⟨rest, rfl, _⟩ := Candidate.at?_of_leads leads
  have written : (shape.tag start).text = String.ofList shape.text := rfl
  rw [written, String.toList_ofList]
  exact ⟨⟨_, ofSource_text leads.alone balanced⟩, shape.prefix_text leads.two_le_opening,
    shape.suffix_text leads.closing_bounds.1⟩

end Token

end Stencil
