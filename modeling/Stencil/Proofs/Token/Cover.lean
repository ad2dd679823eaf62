import Stencil.Token

/-!
# Tokens cover the source

Every character of a template is in exactly one token.

1. `Token.covers_ofSource`: the tokens are pieces of the source, one behind the other.
2. `Token.Covers.select?_span`: the span of a token selects its text.
3. `Token.Covers.spans_ordered`: each span ends before the next one begins.
-/

namespace Stencil

namespace Token

/-- The region of the source that a token was read from. -/
def span : Token → Span
  | .raw _ span _ => span
  | .tag read => read.span

/-- The piece of the source that a token holds. -/
def text : Token → String
  | .raw text _ _ => text
  | .tag read => read.text

/-- Tokens that hold a text in nonempty pieces, where the text begins at the position `start`. -/
inductive Covers : Nat → List Char → List Token → Prop where
  | nil (start : Nat) : Covers start [] []
  | cons {start : Nat} {piece rest : List Char} {token : Token} {tokens : List Token}
      (nonempty : piece ≠ []) (held : token.text = String.ofList piece)
      (placed : token.span = ⟨start, start + byteLength piece⟩)
      (others : Covers (start + byteLength piece) rest tokens) :
      Covers start (piece ++ rest) (token :: tokens)

/-! ## Scanning -/

section Equations

variable {start : Nat} {raw source before : List Char} {rejected : List String}
  {candidate : Candidate}

theorem scan_of_none (missing : Candidate.find? source = none) :
    scan start raw rejected source = ofRaw start (raw ++ source) rejected := by
  rw [scan, missing]

theorem scan_of_balanced (found : Candidate.find? source = some (before, candidate))
    (balanced : candidate.opening = candidate.closing) :
    scan start raw rejected source = ofRaw start (raw ++ before) rejected ++
      ofCandidate (start + byteLength (raw ++ before)) candidate ::
        scan (start + byteLength (raw ++ before) + byteLength candidate.text) [] []
          candidate.rest := by
  rw [scan, found]
  exact if_pos balanced

theorem scan_of_unbalanced (found : Candidate.find? source = some (before, candidate))
    (unbalanced : ¬ candidate.opening = candidate.closing) :
    scan start raw rejected source = scan start (raw ++ before ++ candidate.text)
      (rejected ++ [String.ofList candidate.text]) candidate.rest := by
  rw [scan, found]
  exact if_neg unbalanced

end Equations

theorem covers_ofRaw {start : Nat} {raw rest : List Char} (rejected : List String)
    {tokens : List Token} (others : Covers (start + byteLength raw) rest tokens) :
    Covers start (raw ++ rest) (ofRaw start raw rejected ++ tokens) := by
  unfold ofRaw
  split
  · next empty =>
    obtain rfl := List.isEmpty_iff.mp empty
    simpa using others
  · next nonempty => exact .cons (by simpa using nonempty) rfl rfl others

theorem covers_scan (start : Nat) (raw : List Char) (rejected : List String)
    (source : List Char) : Covers start (raw ++ source) (scan start raw rejected source) := by
  induction start, raw, rejected, source using scan.induct with
  | case1 start raw rejected source found =>
    rw [scan_of_none found]
    have all := covers_ofRaw rejected (.nil (start + byteLength (raw ++ source)))
    simpa only [List.append_nil] using all
  | case2 start raw rejected source before candidate found balanced tagStart ih =>
    obtain ⟨split, size⟩ := Candidate.find?_spec found
    have nonempty : candidate.text ≠ [] := by
      rintro empty
      simp [empty] at size
    rw [scan_of_balanced found balanced, split, ← List.append_assoc raw]
    exact covers_ofRaw rejected (.cons nonempty rfl rfl ih)
  | case3 start raw rejected source before candidate found unbalanced ih =>
    obtain ⟨split, _⟩ := Candidate.find?_spec found
    rw [scan_of_unbalanced found unbalanced, split]
    simpa only [List.append_assoc] using ih

/-- The tokens of a template are pieces of it, one behind the other. -/
theorem covers_ofSource (source : String) : Covers 0 source.toList (ofSource source) :=
  covers_scan 0 [] [] source.toList

/-! ## Spans -/

namespace Covers

variable {start : Nat} {text : List Char} {tokens : List Token}

theorem within (covers : Covers start text tokens) {token : Token} (mem : token ∈ tokens) :
    start ≤ token.span.start ∧ token.span.start < token.span.stop ∧
      token.span.stop ≤ start + byteLength text := by
  induction covers with
  | nil start => cases mem
  | @cons start piece rest first tokens nonempty held placed others ih =>
    have positive : 0 < byteLength piece := by
      rw [Nat.pos_iff_ne_zero, ne_eq, byteLength_eq_zero_iff]
      exact nonempty
    rw [byteLength_append]
    rcases List.mem_cons.mp mem with rfl | mem
    · rw [placed]
      refine ⟨?_, ?_, ?_⟩ <;> simp only <;> omega
    · obtain ⟨lower, proper, upper⟩ := ih mem
      exact ⟨by omega, proper, by omega⟩

/-- Each token ends before the next one begins. -/
theorem spans_ordered (covers : Covers start text tokens) :
    tokens.Pairwise fun first second => first.span.stop ≤ second.span.start := by
  induction covers with
  | nil start => exact .nil
  | @cons start piece rest first tokens nonempty held placed others ih =>
    refine List.pairwise_cons.mpr ⟨fun second mem => ?_, ih⟩
    have := (others.within mem).1
    rw [placed]
    exact this

/-- No region of the source is the span of two tokens. -/
theorem spans_nodup (covers : Covers start text tokens) : (tokens.map span).Nodup := by
  refine List.pairwise_map.mpr (covers.spans_ordered.imp_of_mem ?_)
  intro first second _ mem ordered same
  have := (covers.within mem).2.1
  rw [same] at ordered
  omega

/-- The span of a token selects its text. -/
theorem select?_span (covers : Covers start text tokens) {token : Token} (mem : token ∈ tokens)
    {before : List Char} (placed : byteLength before = start) :
    token.span.select? (before ++ text) = some token.text.toList := by
  induction covers generalizing before with
  | nil start => cases mem
  | @cons start piece rest first tokens nonempty held first_placed others ih =>
    rcases List.mem_cons.mp mem with rfl | mem
    · rw [held, String.toList_ofList, first_placed, Span.select?_eq_some_iff]
      refine ⟨before, rest, (List.append_assoc ..).symm, placed, ?_⟩
      rw [byteLength_append, placed]
    · rw [← List.append_assoc]
      exact ih mem (by rw [byteLength_append, placed])

end Covers

/-! ## Templates -/

theorem fits_of_mem_ofSource {source : String} {token : Token} (mem : token ∈ ofSource source) :
    token.span.fits source = true := by
  have selected := (covers_ofSource source).select?_span mem byteLength_nil
  rw [List.nil_append] at selected
  rw [Span.fits, selected]
  rfl

theorem stop_le_of_mem_ofSource {source : String} {token : Token}
    (mem : token ∈ ofSource source) : token.span.stop ≤ source.utf8ByteSize := by
  have := ((covers_ofSource source).within mem).2.2
  rwa [byteLength_toList, Nat.zero_add] at this

end Token

end Stencil
