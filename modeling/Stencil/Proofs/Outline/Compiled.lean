import Stencil.Outline
import Stencil.Proofs.Block.Tree
import Stencil.Proofs.Token.Cover

/-!
# Compiled trees

What is true of the tree of every template that is compiled. All of it is carried through the
reading of a template, token by token.

1. `Outline.heads_read`: a token adds one block to the outline, or nothing.
2. `Outline.Shallow.read`: what the open directives hold never needs more levels than are left.
3. `Program.fits_of_mem_compile`, `Program.levelsList_compile_le`: the spans of a compiled tree
   select regions of the source, and the tree is no deeper than the limit on nesting allows.
-/

namespace Stencil

/-- A directive without the blocks that it will hold. -/
def Opening.head (opening : Opening) (span : Span) : Block :=
  match opening with
  | .condition name recursive => .condition name recursive [] [] span
  | .iteration name => .iteration name [] span

namespace Frame

/-- The heads of a directive that is still open, in the order of the source. -/
def heads (frame : Frame) : List Block := frame.close.heads

def spans (frame : Frame) : List Span := frame.close.spans

/-- The levels that the directive needs if it ends here. -/
def levels (frame : Frame) : Nat := frame.close.levels

theorem heads_ofTag (opening : Opening) (tag : Tag) :
    (ofTag opening tag).heads = [opening.head tag.span] := by
  cases opening <;> rfl

theorem heads_extend (frame : Frame) (blocks : List Block) :
    (frame.extend blocks).heads = frame.heads ++ Block.headsList blocks.reverse := by
  obtain ⟨opening, tag, span, thenBranch, inner⟩ := frame
  cases opening <;> cases thenBranch <;>
    simp [heads, close, extend, Block.heads, Block.headsList, Block.headsList_append]

theorem levels_ofTag (opening : Opening) (tag : Tag) : (ofTag opening tag).levels = 3 := by
  cases opening <;> rfl

theorem levels_extend (frame : Frame) (blocks : List Block) :
    (frame.extend blocks).levels = max frame.levels (Block.levelsList blocks.reverse + 3) := by
  obtain ⟨opening, tag, span, thenBranch, inner⟩ := frame
  cases opening <;> cases thenBranch <;>
    simp [levels, close, extend, Block.levels, Block.levelsList, Block.levelsList_append]

/-- An `else` ends nothing: the block that the directive will give has the same heads and needs the
same levels. -/
theorem otherwise?_eq_some {frame divided : Frame} (h : frame.otherwise? = some divided) :
    divided.heads = frame.heads ∧ divided.levels = frame.levels := by
  obtain ⟨opening, tag, span, thenBranch, inner⟩ := frame
  cases opening <;> cases thenBranch <;> cases h <;>
    simp [heads, levels, close, Block.heads, Block.levels, Block.headsList, Block.levelsList]

end Frame

namespace Outline

/-! ## Heads -/

/-- The heads of everything read, in the order of the source. -/
def heads (outline : Outline) : List Block :=
  Block.headsList outline.top.reverse ++ outline.frames.reverse.flatMap Frame.heads

/-- Whether the innermost directive takes a tag as its `else` or `end`, past the limit or not. -/
def takes (outline : Outline) (tag : Tag) : Bool :=
  match Directive.ofTag? tag, outline.frames with
  | some .otherwise, frame :: _ => frame.otherwise?.isSome
  | some (.ends kind), frame :: _ => frame.opening.endedBy kind
  | _, _ => false

/-- What a token adds to an outline: text, what a tag says, or nothing where a tag has no name or
the innermost directive takes it. -/
def yields (limit : Nat) (outline : Outline) : Token → List Block
  | .raw text span _ => [.text text span]
  | .tag tag =>
    match Directive.ofTag? tag with
    | none => []
    | some (.opens opening) =>
      if outline.frames.length < limit then [opening.head tag.span] else [.text tag.text tag.span]
    | some .otherwise | some (.ends _) =>
      if outline.overflow = 0 ∧ outline.takes tag = true then [] else [.text tag.text tag.span]
    | some (.placeholder name recursive) =>
      [.placeholder ⟨name, recursive, tag.braces == 2, tag.span⟩]

theorem heads_note (outline : Outline) (notice : Notice) :
    (outline.note notice).heads = outline.heads := rfl

theorem heads_add (outline : Outline) (block : Block) :
    (outline.add block).heads = outline.heads ++ block.heads := by
  unfold add
  split
  · next empty => simp [heads, empty, Block.headsList, Block.headsList_append]
  · next frame frames same =>
    simp [heads, same, Frame.heads_extend, Block.headsList, List.flatMap_append]

theorem heads_keep (outline : Outline) (tag : Tag) :
    (outline.keep tag).heads = outline.heads ++ [.text tag.text tag.span] := heads_add ..

theorem heads_reject (outline : Outline) (tag : Tag) :
    (outline.reject tag).heads = outline.heads ++ [.text tag.text tag.span] := heads_keep ..

section Tags

variable {limit : Nat} {outline : Outline} {tag : Tag}

theorem heads_opens {opening : Opening} (said : Directive.ofTag? tag = some (.opens opening)) :
    (outline.opens limit opening tag).heads = outline.heads ++ outline.yields limit (.tag tag) := by
  rw [yields, said]
  unfold opens
  dsimp only
  split
  · simp [heads, List.flatMap_append, Frame.heads_ofTag]
  · rw [heads_keep]
    split <;> rfl

theorem heads_otherwise (said : Directive.ofTag? tag = some .otherwise) :
    (outline.otherwise tag).heads = outline.heads ++ outline.yields limit (.tag tag) := by
  rw [yields, takes, said]
  unfold otherwise
  split
  · next past => rw [if_neg (fun both => by omega), heads_keep]
  · next inside =>
    have none_past : outline.overflow = 0 := by omega
    cases opened : outline.frames with
    | nil => simp [heads_reject]
    | cons frame frames =>
      cases found : frame.otherwise? with
      | none => simp [found, heads_reject]
      | some divided =>
        have same := (Frame.otherwise?_eq_some found).1
        simp [found, none_past, heads, opened, same, List.flatMap_append]

theorem heads_ends {kind : Option String} (said : Directive.ofTag? tag = some (.ends kind)) :
    (outline.ends kind tag).heads = outline.heads ++ outline.yields limit (.tag tag) := by
  rw [yields, takes, said]
  unfold ends
  split
  · next past =>
    rw [if_neg (fun both => by omega), heads_keep]
    rfl
  · next inside =>
    have none_past : outline.overflow = 0 := by omega
    cases opened : outline.frames with
    | nil => simp [heads_reject]
    | cons frame frames =>
      cases ended : frame.opening.endedBy kind with
      | false => simp [ended, heads_reject]
      | true =>
        simp only [ended, none_past, and_self, if_true, List.append_nil]
        rw [heads_add]
        simp [heads, opened, Frame.heads, List.flatMap_append]

end Tags

/-- A token adds one block to the outline, or nothing. -/
theorem heads_read (limit : Nat) (outline : Outline) (token : Token) :
    (outline.read limit token).heads = outline.heads ++ outline.yields limit token := by
  cases token with
  | raw text span rejected =>
    rw [read, heads_add]
    suffices ∀ notices : List Notice, (notices.foldl note outline).heads = outline.heads by
      rw [this]
      rfl
    intro notices
    induction notices generalizing outline with
    | nil => rfl
    | cons notice notices ih => rw [List.foldl_cons, ih, heads_note]
  | tag tag =>
    rw [read, readTag]
    cases said : Directive.ofTag? tag with
    | none => simp [yields, said, heads_note]
    | some directive =>
      cases directive with
      | opens opening => exact heads_opens said
      | otherwise => exact heads_otherwise said
      | ends kind => exact heads_ends said
      | placeholder name recursive =>
        rw [yields, said]
        exact heads_add ..

/-- What a token adds is one block at most, with the span of the token. -/
theorem yields_cases (limit : Nat) (outline : Outline) (token : Token) :
    outline.yields limit token = [] ∨
      ∃ head, outline.yields limit token = [head] ∧ head.span = token.span := by
  cases token with
  | raw text span rejected => exact .inr ⟨_, rfl, rfl⟩
  | tag tag =>
    rw [yields]
    split
    · exact .inl rfl
    · next opening _ =>
      split
      · exact .inr ⟨_, rfl, by cases opening <;> rfl⟩
      · exact .inr ⟨_, rfl, rfl⟩
    · split
      · exact .inl rfl
      · exact .inr ⟨_, rfl, rfl⟩
    · split
      · exact .inl rfl
      · exact .inr ⟨_, rfl, rfl⟩
    · exact .inr ⟨_, rfl, rfl⟩

/-- A tag adds nothing if it has no name, or if the innermost directive takes it. -/
theorem yields_tag_eq_nil_iff {limit : Nat} {outline : Outline} {tag : Tag} :
    outline.yields limit (.tag tag) = [] ↔
      Directive.ofTag? tag = none ∨ outline.overflow = 0 ∧ outline.takes tag = true := by
  rw [yields]
  cases said : Directive.ofTag? tag with
  | none => simp
  | some directive =>
    cases directive with
    | opens opening =>
      have untaken : outline.takes tag = false := by rw [takes, said]
      dsimp only
      split <;> simp [untaken]
    | otherwise | ends kind => simp
    | placeholder name recursive =>
      have untaken : outline.takes tag = false := by rw [takes, said]
      simp [untaken]

theorem heads_foldl_close (frames : List Frame) (inner : List Block) :
    Block.headsList
        (frames.foldl (fun inner frame => [(frame.extend inner).close]) inner).reverse =
      frames.reverse.flatMap Frame.heads ++ Block.headsList inner.reverse := by
  induction frames generalizing inner with
  | nil => rfl
  | cons frame frames ih =>
    have extended := frame.heads_extend inner
    rw [Frame.heads] at extended
    rw [List.foldl_cons, ih]
    simp [Block.headsList, extended, List.flatMap_append]

/-- Closing the open directives neither adds nor loses a block. -/
theorem headsList_closed (outline : Outline) :
    Block.headsList outline.closed = outline.heads := by
  rw [closed, List.reverse_append, Block.headsList_append, heads_foldl_close, heads]
  simp [Block.headsList]

/-! ## Spans -/

def spans (outline : Outline) : List Span :=
  Block.spansList outline.top.reverse ++ outline.frames.reverse.flatMap Frame.spans

theorem spans_eq_heads (outline : Outline) : outline.spans = outline.heads.map Block.span := by
  have each : Frame.spans = fun frame => frame.heads.map Block.span :=
    funext fun frame => Block.spans_eq_heads frame.close
  rw [spans, heads, List.map_append, ← Block.spansList_eq_heads, List.map_flatMap, each]

theorem spans_keep (outline : Outline) (tag : Tag) :
    (outline.keep tag).spans = outline.spans ++ [tag.span] := by
  rw [spans_eq_heads, heads_keep, List.map_append, ← spans_eq_heads]
  rfl

/-- A token adds its own span to the outline, or nothing. -/
theorem spans_read (limit : Nat) (outline : Outline) (token : Token) :
    (outline.read limit token).spans = outline.spans ∨
      (outline.read limit token).spans = outline.spans ++ [token.span] := by
  rw [spans_eq_heads, heads_read, List.map_append, ← spans_eq_heads]
  rcases yields_cases limit outline token with nothing | ⟨head, one, same⟩
  · left
    rw [nothing, List.map_nil, List.append_nil]
  · right
    rw [one, List.map_singleton, same]

/-- The spans of what some tokens add are among those of the tokens, in the same order. -/
theorem spans_foldl_read (limit : Nat) (outline : Outline) (tokens : List Token) :
    ∃ added, (tokens.foldl (read limit) outline).spans = outline.spans ++ added ∧
      added.Sublist (tokens.map Token.span) := by
  induction tokens generalizing outline with
  | nil => exact ⟨[], by simp, .slnil⟩
  | cons token tokens ih =>
    obtain ⟨added, later, among⟩ := ih (outline.read limit token)
    rcases spans_read limit outline token with now | now
    · exact ⟨added, by rw [List.foldl_cons, later, now], among.cons _⟩
    · refine ⟨token.span :: added, ?_, among.cons_cons _⟩
      rw [List.foldl_cons, later, now, List.append_assoc, List.singleton_append]

/-- Closing the open directives neither adds nor loses a span. -/
theorem spansList_closed (outline : Outline) :
    Block.spansList outline.closed = outline.spans := by
  rw [Block.spansList_eq_heads, headsList_closed, spans_eq_heads]

/-! ## Levels -/

/-- Open directives in nested levels: what `outer` directives stand around needs so many levels
less, innermost first. -/
def ShallowFrames (limit : Nat) : List Frame → Prop
  | [] => True
  | frame :: frames =>
    frames.length < limit ∧ frame.levels ≤ 3 * (limit + 1 - frames.length) ∧
      ShallowFrames limit frames

/-- An outline that was read with a limit on nesting. -/
structure Shallow (limit : Nat) (outline : Outline) : Prop where
  top : Block.levelsList outline.top ≤ 3 * (limit + 1)
  frames : ShallowFrames limit outline.frames

namespace Shallow

variable {limit : Nat} {outline : Outline}

theorem empty (limit : Nat) : Shallow limit empty :=
  ⟨Nat.zero_le _, trivial⟩

theorem length_frames_le (shallow : Shallow limit outline) : outline.frames.length ≤ limit := by
  have := shallow.frames
  cases frames : outline.frames with
  | nil => exact Nat.zero_le _
  | cons frame others =>
    rw [frames] at this
    exact this.1

/-- A block may be added that leaves the levels of the open directives. -/
theorem add (shallow : Shallow limit outline) {block : Block}
    (fits : block.levels ≤ 3 * (limit + 1 - outline.frames.length)) :
    Shallow limit (outline.add block) := by
  obtain ⟨top, open_shallow⟩ := shallow
  unfold Outline.add
  split
  · next empty =>
    rw [empty] at fits
    refine ⟨?_, by simpa only [empty] using open_shallow⟩
    rw [Block.levelsList, Nat.max_le]
    exact ⟨fits, top⟩
  · next frame frames same =>
    rw [same] at fits open_shallow
    obtain ⟨few, enough, outer⟩ := open_shallow
    refine ⟨top, few, ?_, outer⟩
    rw [Frame.levels_extend, List.reverse_singleton, Block.levelsList, Block.levelsList]
    rw [List.length_cons] at fits
    omega

theorem note (shallow : Shallow limit outline) (notice : Notice) :
    Shallow limit (outline.note notice) :=
  ⟨shallow.top, shallow.frames⟩

theorem add_leaf (shallow : Shallow limit outline) {block : Block} (leaf : block.levels = 3) :
    Shallow limit (outline.add block) := by
  have := shallow.length_frames_le
  exact shallow.add (by omega)

theorem keep (shallow : Shallow limit outline) (tag : Tag) : Shallow limit (outline.keep tag) :=
  shallow.add_leaf rfl

theorem reject (shallow : Shallow limit outline) (tag : Tag) :
    Shallow limit (outline.reject tag) :=
  (shallow.note _).keep tag

theorem opens (shallow : Shallow limit outline) (opening : Opening) (tag : Tag) :
    Shallow limit (outline.opens limit opening tag) := by
  unfold Outline.opens
  split
  · next room =>
    refine ⟨shallow.top, room, ?_, shallow.frames⟩
    rw [Frame.levels_ofTag]
    omega
  · refine keep ?_ tag
    split
    · exact ⟨shallow.top, shallow.frames⟩
    · exact ⟨shallow.top, shallow.frames⟩

theorem otherwise (shallow : Shallow limit outline) (tag : Tag) :
    Shallow limit (outline.otherwise tag) := by
  unfold Outline.otherwise
  split
  · exact shallow.keep tag
  · split
    · exact shallow.reject tag
    · next frame frames same =>
      split
      · next divided found =>
        have open_shallow := shallow.frames
        rw [same] at open_shallow
        refine ⟨shallow.top, open_shallow.1, ?_, open_shallow.2.2⟩
        rw [(Frame.otherwise?_eq_some found).2]
        exact open_shallow.2.1
      · exact shallow.reject tag

theorem ends (shallow : Shallow limit outline) (kind : Option String) (tag : Tag) :
    Shallow limit (outline.ends kind tag) := by
  unfold Outline.ends
  split
  · have counted : Shallow limit { outline with overflow := outline.overflow - 1 } :=
      ⟨shallow.top, shallow.frames⟩
    exact counted.keep tag
  · split
    · exact shallow.reject tag
    · next frame frames same =>
      split
      · have open_shallow := shallow.frames
        rw [same] at open_shallow
        have outer : Shallow limit { outline with frames } := ⟨shallow.top, open_shallow.2.2⟩
        exact outer.add open_shallow.2.1
      · exact shallow.reject tag

/-- Reading a token keeps an outline within the limit. -/
theorem read (shallow : Shallow limit outline) (token : Token) :
    Shallow limit (outline.read limit token) := by
  cases token with
  | raw text span rejected =>
    rw [Outline.read]
    suffices ∀ notices : List Notice, Shallow limit (notices.foldl Outline.note outline) from
      (this _).add_leaf rfl
    intro notices
    induction notices generalizing outline with
    | nil => exact shallow
    | cons notice notices ih => exact ih (shallow.note notice)
  | tag tag =>
    rw [Outline.read, readTag]
    split
    · exact shallow.note _
    · exact shallow.opens ..
    · exact shallow.otherwise tag
    · exact shallow.ends ..
    · exact shallow.add_leaf rfl

theorem ofTokens (limit : Nat) (tokens : List Token) : Shallow limit (ofTokens limit tokens) := by
  suffices ∀ outline, Shallow limit outline →
      Shallow limit (tokens.foldl (Outline.read limit) outline) from this _ (empty limit)
  induction tokens with
  | nil => exact fun _ shallow => shallow
  | cons token tokens ih => exact fun _ shallow => ih _ (shallow.read token)

theorem levelsList_foldl_close {frames : List Frame} (shallow : ShallowFrames limit frames)
    (inner : List Block) (fits : Block.levelsList inner ≤ 3 * (limit + 1 - frames.length)) :
    Block.levelsList (frames.foldl (fun inner frame => [(frame.extend inner).close]) inner) ≤
      3 * (limit + 1) := by
  induction frames generalizing inner with
  | nil => exact fits
  | cons frame frames ih =>
    obtain ⟨few, enough, outer⟩ := shallow
    refine ih outer _ ?_
    have extended := frame.levels_extend inner
    rw [Frame.levels, Block.levelsList_reverse] at extended
    rw [Block.levelsList, Block.levelsList, extended]
    rw [List.length_cons] at fits
    omega

theorem levelsList_closed_le (shallow : Shallow limit outline) :
    Block.levelsList outline.closed ≤ 3 * (limit + 1) := by
  have inner := levelsList_foldl_close shallow.frames [] (Nat.zero_le _)
  have top := shallow.top
  rw [Block.levelsList_le_iff] at inner top ⊢
  intro block mem
  rw [closed, List.mem_reverse, List.mem_append] at mem
  exact mem.elim (inner block) (top block)

end Shallow

end Outline

/-! ## Compiling -/

namespace Program

/-- Every span of a compiled tree is that of a token of the source. -/
theorem spans_compile_sublist (source : String) :
    (Block.spansList (compile source).value.blocks).Sublist
      ((Token.ofSource source).map Token.span) := by
  obtain ⟨added, whole, among⟩ :=
    Outline.spans_foldl_read maxNesting .empty (Token.ofSource source)
  rw [compile, Outline.spansList_closed, Outline.ofTokens, whole]
  exact among

theorem exists_token_of_mem_compile {source : String} {span : Span}
    (mem : span ∈ Block.spansList (compile source).value.blocks) :
    ∃ token ∈ Token.ofSource source, token.span = span :=
  List.mem_map.mp ((spans_compile_sublist source).subset mem)

/-- Every span of a compiled tree selects a region of the source. -/
theorem fits_of_mem_compile {source : String} {span : Span}
    (mem : span ∈ Block.spansList (compile source).value.blocks) : span.fits source = true := by
  obtain ⟨token, token_mem, rfl⟩ := exists_token_of_mem_compile mem
  exact Token.fits_of_mem_ofSource token_mem

/-- A compiled tree is no deeper than the limit on nesting allows. -/
theorem levelsList_compile_le (source : String) :
    Block.levelsList (compile source).value.blocks ≤ 3 * (maxNesting + 1) :=
  (Outline.Shallow.ofTokens maxNesting (Token.ofSource source)).levelsList_closed_le

end Program

end Stencil
