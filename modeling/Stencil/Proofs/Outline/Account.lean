import Mathlib.Data.List.Chain
import Stencil.Proofs.Directive
import Stencil.Proofs.Outline.Compiled

/-!
# What becomes of each piece of a source

Compiling loses, repeats and reorders nothing.

1. `Token.tiles_ofSource`: the tokens of a template are pieces of it, one behind the other, from its
   start to its end.
2. `Outline.mem_heads_ofTokens`: each block of a compiled tree comes from one token.
3. `Program.account_compile`: the blocks stand in the order of the source, each with its text or
   its tag, and what is in no block is a tag that was taken or that has no name.
-/

namespace Stencil

/-! ## Tokens side by side -/

namespace Span

def Holds (span : Span) (byte : Nat) : Prop := span.start ≤ byte ∧ byte < span.stop

/-- Spans side by side, from a position to another one. -/
def Joined : Nat → List Span → Nat → Prop
  | start, [], stop => start = stop
  | start, span :: spans, stop => span.start = start ∧ Joined span.stop spans stop

/-- Each byte between the two positions is in one of the spans. -/
theorem Joined.exists_holds {spans : List Span} {start stop byte : Nat}
    (joined : Joined start spans stop) (lower : start ≤ byte) (upper : byte < stop) :
    ∃ span ∈ spans, span.Holds byte := by
  induction spans generalizing start with
  | nil =>
    obtain rfl : start = stop := joined
    omega
  | cons span spans ih =>
    obtain ⟨rfl, later⟩ := joined
    rcases Nat.lt_or_ge byte span.stop with inside | behind
    · exact ⟨span, List.mem_cons_self, lower, inside⟩
    · obtain ⟨other, mem, holds⟩ := ih later behind
      exact ⟨other, List.mem_cons_of_mem _ mem, holds⟩

end Span

namespace Token

def isRaw : Token → Bool
  | .raw .. => true
  | .tag _ => false

/-- No raw text directly behind other raw text. -/
def Separate (tokens : List Token) : Prop :=
  tokens.IsChain fun first second => first.isRaw = true → second.isRaw = false

/-- Tokens that are all of a source. -/
structure Tiles (source : String) (tokens : List Token) : Prop where
  nonempty : ∀ token ∈ tokens, token.span.start < token.span.stop
  fits : ∀ token ∈ tokens, token.span.fits source = true
  joined : Span.Joined 0 (tokens.map span) source.utf8ByteSize
  separate : Separate tokens

theorem Covers.joined {start : Nat} {text : List Char} {tokens : List Token}
    (covers : Covers start text tokens) :
    Span.Joined start (tokens.map span) (start + byteLength text) := by
  induction covers with
  | nil start => rfl
  | @cons start piece rest token tokens nonempty held placed others ih =>
    rw [List.map_cons, placed, byteLength_append, ← Nat.add_assoc]
    exact ⟨rfl, ih⟩

theorem separate_ofRaw (start : Nat) (raw : List Char) (rejected : List String)
    {tokens : List Token} (others : Separate tokens)
    (tag : ∀ token ∈ tokens.head?, token.isRaw = false) :
    Separate (ofRaw start raw rejected ++ tokens) := by
  unfold ofRaw
  split
  · exact others
  · exact List.isChain_cons.mpr ⟨fun second first _ => tag second first, others⟩

theorem separate_scan (start : Nat) (raw : List Char) (rejected : List String)
    (source : List Char) : Separate (scan start raw rejected source) := by
  induction start, raw, rejected, source using scan.induct with
  | case1 start raw rejected source missing =>
    rw [scan_of_none missing]
    have alone := separate_ofRaw start (raw ++ source) rejected .nil fun _ leads => by cases leads
    rwa [List.append_nil] at alone
  | case2 start raw rejected source before candidate found balanced tagStart ih =>
    rw [scan_of_balanced found balanced]
    have apart : Separate (ofCandidate tagStart candidate ::
        scan (tagStart + byteLength candidate.text) [] [] candidate.rest) :=
      List.isChain_cons.mpr ⟨fun _ _ raw => absurd raw Bool.false_ne_true, ih⟩
    refine separate_ofRaw start _ rejected apart ?_
    rintro _ ⟨⟩
    rfl
  | case3 start raw rejected source before candidate found unbalanced ih =>
    rw [scan_of_unbalanced found unbalanced]
    exact ih

/-- The tokens of a template are all of it, from its start to its end. -/
theorem tiles_ofSource (source : String) : Tiles source (ofSource source) := by
  have covers := covers_ofSource source
  refine ⟨fun token mem => (covers.within mem).2.1, fun token mem => fits_of_mem_ofSource mem, ?_,
    separate_scan 0 [] [] source.toList⟩
  have joined := covers.joined
  rwa [byteLength_toList, Nat.zero_add] at joined

end Token

/-! ## Blocks and tokens -/

/-- The block that a tag says, without the blocks that it will hold. -/
def Tag.head? (tag : Tag) : Option Block :=
  match Directive.ofTag? tag with
  | some (.opens opening) => some (opening.head tag.span)
  | some (.placeholder name recursive) =>
    some (.placeholder ⟨name, recursive, tag.braces == 2, tag.span⟩)
  | _ => none

/-- Only a condition has an `else`. -/
theorem Frame.opening_of_otherwise? (frame : Frame) (some : frame.otherwise?.isSome = true) :
    ∃ name recursive, frame.opening = .condition name recursive := by
  obtain ⟨opening, tag, span, thenBranch, blocks⟩ := frame
  cases opening with
  | condition name recursive => exact ⟨name, recursive, rfl⟩
  | iteration name => cases some

namespace Outline

/-- A tag leaves no block where these are the open directives: an `else` of the innermost
condition, an `end` of the innermost directive, or a directive without a name. -/
inductive Absorbs (outline : Outline) (tag : Tag) : Prop where
  | otherwise {frame : Frame} {frames : List Frame} {name : String} {recursive : Bool}
      (word : tag.first = "else") (inside : outline.overflow = 0)
      (opened : outline.frames = frame :: frames)
      (condition : frame.opening = .condition name recursive)
  | ends {frame : Frame} {frames : List Frame} (word : tag.first = "end")
      (inside : outline.overflow = 0) (opened : outline.frames = frame :: frames)
      (ended : frame.opening.endedBy (nonempty? tag.second) = true)
  | nameless (word : tag.first = "if" ∨ tag.first = "foreach") (missing : tag.second = "")

theorem absorbs_of_takes {outline : Outline} {tag : Tag} (inside : outline.overflow = 0)
    (taken : outline.takes tag = true) : outline.Absorbs tag := by
  unfold takes at taken
  split at taken
  · next frame frames said opened =>
    obtain ⟨name, recursive, condition⟩ := frame.opening_of_otherwise? taken
    exact .otherwise (Directive.words_of_otherwise said) inside opened condition
  · next kind frame frames said opened =>
    obtain ⟨word, rfl⟩ := Directive.words_of_ends said
    exact .ends word inside opened taken
  · cases taken

/-- A token that adds no block is a tag that the outline absorbs. -/
theorem absorbs_of_yields_eq_nil {limit : Nat} {outline : Outline} {token : Token}
    (nothing : outline.yields limit token = []) :
    ∃ tag, token = .tag tag ∧ outline.Absorbs tag := by
  cases token with
  | raw text span rejected => cases nothing
  | tag tag =>
    refine ⟨tag, rfl, ?_⟩
    rcases yields_tag_eq_nil_iff.mp nothing with said | ⟨inside, taken⟩
    · obtain ⟨word, missing⟩ := Directive.words_of_none said
      exact .nameless word missing
    · exact absorbs_of_takes inside taken

/-- What a token adds is its text, or what the tag says. -/
theorem of_mem_yields {limit : Nat} {outline : Outline} {token : Token} {head : Block}
    (mem : head ∈ outline.yields limit token) :
    head = .text token.text token.span ∨ ∃ tag, token = .tag tag ∧ tag.head? = some head := by
  cases token with
  | raw text span rejected => exact .inl (List.mem_singleton.mp mem)
  | tag tag =>
    rw [yields] at mem
    cases said : Directive.ofTag? tag with
    | none =>
      rw [said] at mem
      cases mem
    | some directive =>
      rw [said] at mem
      cases directive with
      | opens opening =>
        dsimp only at mem
        split at mem
        · refine .inr ⟨tag, rfl, ?_⟩
          rw [Tag.head?, said, List.mem_singleton.mp mem]
        · exact .inl (List.mem_singleton.mp mem)
      | otherwise | ends kind =>
        dsimp only at mem
        split at mem
        · cases mem
        · exact .inl (List.mem_singleton.mp mem)
      | placeholder name recursive =>
        refine .inr ⟨tag, rfl, ?_⟩
        rw [Tag.head?, said, List.mem_singleton.mp mem]

/-- The blocks of an outline are those that were there before, and those that each token added
where it was read. -/
theorem mem_heads_foldl_read {limit : Nat} {outline : Outline} {tokens : List Token}
    {head : Block} :
    head ∈ (tokens.foldl (read limit) outline).heads ↔ head ∈ outline.heads ∨
      ∃ before token after, tokens = before ++ token :: after ∧
        head ∈ (before.foldl (read limit) outline).yields limit token := by
  induction tokens generalizing outline with
  | nil => simp
  | cons first tokens ih =>
    rw [List.foldl_cons, ih, heads_read, List.mem_append, or_assoc]
    refine or_congr_right ⟨?_, ?_⟩
    · rintro (now | ⟨before, token, after, rfl, later⟩)
      · exact ⟨[], first, tokens, rfl, now⟩
      · exact ⟨first :: before, token, after, rfl, later⟩
    · rintro ⟨before, token, after, split, mem⟩
      cases before with
      | nil =>
        cases split
        exact .inl mem
      | cons _ before =>
        cases split
        exact .inr ⟨before, token, after, rfl, mem⟩

/-- The blocks of an outline are those that its tokens added, each where it was read. -/
theorem mem_heads_ofTokens {limit : Nat} {tokens : List Token} {head : Block} :
    head ∈ (ofTokens limit tokens).heads ↔ ∃ before token after, tokens = before ++ token :: after ∧
      head ∈ (ofTokens limit before).yields limit token := by
  rw [ofTokens, mem_heads_foldl_read]
  exact or_iff_right (List.not_mem_nil)

end Outline

/-! ## Compiling -/

namespace Block

/-- What a block without its contents has at its place: text is what the source has there, and each
other block is what a tag there says. -/
def Stands (source : String) (tokens : List Token) : Block → Prop
  | .text content span => span.select? source.toList = some content.toList
  | head => ∃ tag, .tag tag ∈ tokens ∧ tag.span = head.span ∧ tag.head? = some head

/-- Blocks that account for a source with these tokens. -/
structure Account (source : String) (tokens : List Token) (blocks : List Block) : Prop where
  /-- A directive stands in front of what is in it, and each block behind the one before. -/
  ordered : (headsList blocks).Pairwise fun first second =>
    first.span.start < second.span.start ∧ first.span.stop ≤ second.span.start
  stands : ∀ head ∈ headsList blocks, head.Stands source tokens
  /-- A byte in no block is one of a tag that was taken where it was read, or that has no name. -/
  covered : ∀ byte < source.utf8ByteSize, (∃ head ∈ headsList blocks, head.span.Holds byte) ∨
    ∃ before tag after, tokens = before ++ .tag tag :: after ∧ tag.span.Holds byte ∧
      (Outline.ofTokens maxNesting before).Absorbs tag

theorem stands_of_head? {source : String} {tokens : List Token} {tag : Tag} {head : Block}
    (mem : .tag tag ∈ tokens) (said : tag.head? = some head) : head.Stands source tokens := by
  have same : tag.span = head.span ∧ ∀ content span, head ≠ .text content span := by
    unfold Tag.head? at said
    split at said
    · next opening _ =>
      cases said
      cases opening <;> exact ⟨rfl, nofun⟩
    · cases said
      exact ⟨rfl, nofun⟩
    · cases said
  cases head with
  | text content span => exact absurd rfl (same.2 content span)
  | placeholder | condition | iteration => exact ⟨tag, mem, same.1, said⟩

end Block

namespace Program

theorem mem_headsList_compile {source : String} {head : Block} :
    head ∈ Block.headsList (compile source).value.blocks ↔
      ∃ before token after, Token.ofSource source = before ++ token :: after ∧
        head ∈ (Outline.ofTokens maxNesting before).yields maxNesting token := by
  rw [compile, Outline.headsList_closed, Outline.mem_heads_ofTokens]

theorem ordered_compile (source : String) :
    (Block.headsList (compile source).value.blocks).Pairwise fun first second =>
      first.span.start < second.span.start ∧ first.span.stop ≤ second.span.start := by
  have covers := Token.covers_ofSource source
  have tokens : ((Token.ofSource source).map Token.span).Pairwise fun first second =>
      first.start < second.start ∧ first.stop ≤ second.start := by
    refine List.pairwise_map.mpr (covers.spans_ordered.imp_of_mem fun first_mem _ behind => ?_)
    exact ⟨Nat.lt_of_lt_of_le (covers.within first_mem).2.1 behind, behind⟩
  have blocks := tokens.sublist (spans_compile_sublist source)
  rw [Block.spansList_eq_heads] at blocks
  exact List.pairwise_map.mp blocks

theorem stands_compile {source : String} {head : Block}
    (mem : head ∈ Block.headsList (compile source).value.blocks) :
    head.Stands source (Token.ofSource source) := by
  obtain ⟨before, token, after, split, added⟩ := mem_headsList_compile.mp mem
  have token_mem : token ∈ Token.ofSource source := by simp [split]
  rcases Outline.of_mem_yields added with rfl | ⟨tag, rfl, said⟩
  · exact (Token.covers_ofSource source).select?_span token_mem byteLength_nil
  · exact Block.stands_of_head? token_mem said

theorem covered_compile {source : String} {byte : Nat} (within : byte < source.utf8ByteSize) :
    (∃ head ∈ Block.headsList (compile source).value.blocks, head.span.Holds byte) ∨
      ∃ before tag after, Token.ofSource source = before ++ .tag tag :: after ∧
        tag.span.Holds byte ∧ (Outline.ofTokens maxNesting before).Absorbs tag := by
  obtain ⟨span, mem, holds⟩ :=
    (Token.tiles_ofSource source).joined.exists_holds (Nat.zero_le byte) within
  obtain ⟨token, token_mem, rfl⟩ := List.mem_map.mp mem
  obtain ⟨before, after, split⟩ := List.append_of_mem token_mem
  rcases (Outline.ofTokens maxNesting before).yields_cases maxNesting token with
    nothing | ⟨head, one, same⟩
  · obtain ⟨tag, rfl, absorbed⟩ := Outline.absorbs_of_yields_eq_nil nothing
    exact .inr ⟨before, tag, after, split, holds, absorbed⟩
  · refine .inl ⟨head, mem_headsList_compile.mpr ⟨before, token, after, split, ?_⟩, ?_⟩
    · rw [one]
      exact List.mem_singleton_self head
    · rwa [same]

/-- Compiling loses, repeats and reorders nothing: the tokens are all of the source, and the blocks
are what the tokens say, but for the tags that divide or end a directive or that have no name. -/
theorem account_compile (source : String) :
    Token.Tiles source (Token.ofSource source) ∧
      Block.Account source (Token.ofSource source) (compile source).value.blocks :=
  ⟨Token.tiles_ofSource source, ordered_compile source, fun _ => stands_compile,
    fun _ => covered_compile⟩

end Program

end Stencil
