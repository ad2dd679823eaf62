import Stencil.Proofs.Outline.Account
import Stencil.Proofs.Outline.MissingEnd
import Stencil.Proofs.Outline.Moves

/-!
# The place of an `else`

The first `else` of the innermost directive, if that is a condition, separates its branches. An
`else` where the innermost directive is no condition is kept as text and noted. A further `else` of
one condition is neither: nothing is left of it.

1. `Outline.Parted.read`: a condition that has been divided stays so, while it is open and in the
   tree.
2. `Program.separatedBy_compile`: so the first `else` of a condition separates its branches.
3. `Program.accountsElse_iff`: an `else` is lost exactly if its condition has been divided.
-/

namespace Stencil

/-! ## Blocks inside others -/

namespace Block

/-- A tag separates the branches of a condition at this span: all that is in the first one stands in
front of the tag, and all that is in the other one behind it. -/
def SeparatedBy (tag : Tag) (span : Span) (blocks : List Block) : Prop :=
  ∃ name recursive yes no, Within (.condition name recursive yes no span) blocks ∧
    (∀ head ∈ headsList yes, head.span.stop ≤ tag.span.start) ∧
    ∀ head ∈ headsList no, tag.span.stop ≤ head.span.start

theorem mem_headsList_reverse {head : Block} {blocks : List Block} :
    head ∈ headsList blocks.reverse ↔ head ∈ headsList blocks := by
  simp only [mem_headsList, List.mem_reverse]

end Block

namespace Frame

/-- The blocks directly inside an open directive. -/
def held (frame : Frame) : List Block := frame.close.children

theorem held_extend (frame : Frame) (blocks : List Block) :
    (frame.extend blocks).held = frame.held ++ blocks.reverse := by
  obtain ⟨opening, tag, span, thenBranch, inner⟩ := frame
  cases opening <;> cases thenBranch <;> simp [held, close, extend, Block.children]

theorem held_otherwise? {frame half : Frame} (divided : frame.otherwise? = some half) :
    half.held = frame.held := by
  obtain ⟨opening, tag, span, thenBranch, inner⟩ := frame
  cases opening <;> cases thenBranch <;> cases divided <;> simp [held, close, Block.children]

end Frame

namespace Outline

variable {limit : Nat} {outline : Outline}

/-- The blocks that are read and the blocks directly inside the open directives. -/
def blocks (outline : Outline) : List Block :=
  outline.top ++ outline.frames.flatMap Frame.held

theorem Alike.blocks {later other : Outline} (same : later.Alike other) :
    later.blocks = other.blocks := by
  rw [Outline.blocks, Outline.blocks, same.top, same.frames]

theorem mem_blocks_add {block other : Block} :
    other ∈ (outline.add block).blocks ↔ other = block ∨ other ∈ outline.blocks := by
  obtain ⟨top, frames, overflow, notices⟩ := outline
  cases frames with
  | nil => simp [add, blocks]
  | cons frame frames =>
    simp only [add, blocks, List.flatMap_cons, Frame.held_extend, List.mem_append,
      List.reverse_singleton, List.mem_singleton]
    tauto

/-! ## Divided conditions -/

/-- A condition that has been divided is still open, or it is in the tree. The blocks `yes` are in
front of its `else`, last first, and what is behind it begins at a position or later. -/
inductive Parted (name : String) (recursive : Bool) (span : Span) (yes : List Block) (start : Nat)
    (outline : Outline) : Prop
  | opened (inner : List Frame) {outer : List Frame} {frame : Frame}
      (frames : outline.frames = inner ++ frame :: outer)
      (condition : frame.opening = .condition name recursive) (placed : frame.span = span)
      (front : frame.thenBranch = some yes)
      (behind : ∀ head ∈ Block.headsList frame.blocks, start ≤ head.span.start)
      (inside : ∀ other ∈ inner, ∀ head ∈ other.heads, start ≤ head.span.start)
  | closed {no : List Block}
      (within : Block.Within (.condition name recursive yes.reverse no span) outline.blocks)
      (behind : ∀ head ∈ Block.headsList no, start ≤ head.span.start)

namespace Parted

variable {name : String} {recursive : Bool} {span : Span} {yes : List Block} {start : Nat}

theorem alike {later : Outline} (parted : Parted name recursive span yes start outline)
    (same : later.Alike outline) : Parted name recursive span yes start later := by
  cases parted with
  | opened inner frames condition placed front behind inside =>
    exact .opened inner (same.frames.trans frames) condition placed front behind inside
  | closed within behind => exact .closed (same.blocks ▸ within) behind

theorem add (parted : Parted name recursive span yes start outline) {block : Block}
    (later : ∀ head ∈ block.heads, start ≤ head.span.start) :
    Parted name recursive span yes start (outline.add block) := by
  cases parted with
  | @opened inner outer frame frames condition placed front behind inside =>
    obtain ⟨top, _, overflow, notices⟩ := outline
    cases frames
    cases inner with
    | nil =>
      refine .opened [] rfl condition placed front ?_ (List.forall_mem_nil _)
      intro head mem
      rw [Frame.extend, Block.headsList_append, Block.headsList_singleton] at mem
      exact (List.mem_append.mp mem).elim (later head) (behind head)
    | cons first inner =>
      refine .opened (first.extend [block] :: inner) rfl condition placed front behind ?_
      rw [List.forall_mem_cons] at inside ⊢
      refine ⟨?_, inside.2⟩
      intro head mem
      rw [Frame.heads_extend, List.reverse_singleton, Block.headsList_singleton] at mem
      exact (List.mem_append.mp mem).elim (inside.1 head) (later head)
  | closed within behind =>
    exact .closed (within.mono fun _ mem => mem_blocks_add.mpr (.inr mem)) behind

theorem opens (parted : Parted name recursive span yes start outline) {frame : Frame}
    (later : ∀ head ∈ frame.heads, start ≤ head.span.start) :
    Parted name recursive span yes start { outline with frames := frame :: outline.frames } := by
  cases parted with
  | @opened inner outer other frames condition placed front behind inside =>
    exact .opened (frame :: inner) (congrArg (frame :: ·) frames) condition placed front behind
      (List.forall_mem_cons.mpr ⟨later, inside⟩)
  | closed within behind =>
    refine .closed (within.mono fun block mem => ?_) behind
    rw [blocks, List.mem_append] at mem ⊢
    rw [List.flatMap_cons]
    exact mem.imp_right (List.mem_append_right _)

theorem divides (parted : Parted name recursive span yes start outline) {frame half : Frame}
    {outer : List Frame} (opened : outline.frames = frame :: outer)
    (divided : frame.otherwise? = some half) :
    Parted name recursive span yes start { outline with frames := half :: outer } := by
  cases parted with
  | @opened inner outer' other frames condition placed front behind inside =>
    rw [opened] at frames
    cases inner with
    | nil =>
      cases frames
      rw [Frame.otherwise?, condition, front] at divided
      cases divided
      exact .opened [] rfl condition placed front behind (List.forall_mem_nil _)
    | cons first inner =>
      cases frames
      refine .opened (half :: inner) rfl condition placed front behind ?_
      rw [List.forall_mem_cons] at inside ⊢
      rw [(Frame.otherwise?_eq_some divided).1]
      exact inside
  | closed within behind =>
    refine .closed ?_ behind
    rw [blocks, opened, List.flatMap_cons, ← Frame.held_otherwise? divided] at within
    exact within

/-- A directive ends, the divided condition or another one. -/
theorem ends (parted : Parted name recursive span yes start outline) {frame : Frame}
    {outer : List Frame} (opened : outline.frames = frame :: outer) :
    Parted name recursive span yes start ({ outline with frames := outer }.add frame.close) := by
  cases parted with
  | @opened inner outer' other frames condition placed front behind inside =>
    rw [opened] at frames
    cases inner with
    | nil =>
      cases frames
      have close : frame.close =
          .condition name recursive yes.reverse frame.blocks.reverse span := by
        rw [Frame.close, condition, front, placed]
      refine .closed (.here (mem_blocks_add.mpr (.inl close.symm))) fun head mem => ?_
      exact behind head (Block.mem_headsList_reverse.mp mem)
    | cons first inner =>
      cases frames
      rw [List.forall_mem_cons] at inside
      have still : Parted name recursive span yes start
          { outline with frames := inner ++ other :: outer' } :=
        .opened inner rfl condition placed front behind inside.2
      exact still.add inside.1
  | closed within behind =>
    refine .closed ?_ behind
    rw [blocks, opened, List.flatMap_cons] at within
    refine within.lift fun block mem => ?_
    have kept : block ∈ outline.top ++ outer.flatMap Frame.held →
        block ∈ ({ outline with frames := outer }.add frame.close).blocks :=
      fun mem => mem_blocks_add.mpr (.inr mem)
    rw [List.mem_append, List.mem_append] at mem
    rcases mem with mem | mem | mem
    · exact .inl (kept (List.mem_append_left _ mem))
    · exact .inr ⟨frame.close, mem_blocks_add.mpr (.inl rfl), mem⟩
    · exact .inl (kept (List.mem_append_right _ mem))

theorem read (parted : Parted name recursive span yes start outline) {token : Token}
    (later : start ≤ token.span.start) :
    Parted name recursive span yes start (outline.read limit token) := by
  have yielded : ∀ head ∈ outline.yields limit token, start ≤ head.span.start := by
    intro head mem
    rcases outline.yields_cases limit token with nothing | ⟨other, one, same⟩
    · rw [nothing] at mem
      cases mem
    · rw [one, List.mem_singleton] at mem
      rwa [mem, same]
  cases moves_read limit outline token with
  | passes same _ => exact parted.alike same
  | adds same said _ => exact (parted.add (said ▸ yielded)).alike same
  | opens same _ _ said _ => exact (parted.opens (said ▸ yielded)).alike same
  | divides opened divided same _ => exact (parted.divides opened divided).alike same
  | ends opened same _ => exact (parted.ends opened).alike same

theorem foldl_read (parted : Parted name recursive span yes start outline) {tokens : List Token}
    (later : ∀ token ∈ tokens, start ≤ token.span.start) :
    Parted name recursive span yes start (tokens.foldl (Outline.read limit) outline) := by
  induction tokens generalizing outline with
  | nil => exact parted
  | cons token tokens ih =>
    rw [List.forall_mem_cons] at later
    exact ih (parted.read later.1) later.2

/-- A divided condition is in the tree once all directives are closed. -/
theorem within_closed (parted : Parted name recursive span yes start outline) :
    ∃ no, Block.Within (.condition name recursive yes.reverse no span) outline.closed ∧
      ∀ head ∈ Block.headsList no, start ≤ head.span.start := by
  induction count : outline.frames.length generalizing outline with
  | zero =>
    rw [List.length_eq_zero_iff] at count
    cases parted with
    | opened inner frames => simp [count] at frames
    | @closed no within behind =>
      refine ⟨no, within.mono fun block mem => ?_, behind⟩
      simpa [blocks, Outline.closed, count] using mem
  | succ open_count ih =>
    obtain ⟨frame, outer, opened⟩ := List.exists_cons_of_length_eq_add_one count
    rw [closed_eq opened]
    refine ih (parted.ends opened) ?_
    rw [length_frames_add]
    rw [opened] at count
    exact Nat.succ.inj count

end Parted

/-! ## Reading an `else` -/

section Else

variable {tag : Tag} {span : Span}

theorem read_otherwise (word : tag.first = "else") :
    outline.read limit (.tag tag) = outline.otherwise tag := by
  rw [read, readTag, Directive.ofTag?_otherwise word]

theorem inCondition_unique {other : Span} (inside : outline.InCondition span)
    (inside' : outline.InCondition other) : span = other := by
  obtain ⟨_, _, _, _, _, opened, _, rfl⟩ := inside
  obtain ⟨_, _, _, _, _, opened', _, rfl⟩ := inside'
  cases opened.symm.trans opened'
  rfl

/-- The first `else` of a condition divides it, and nothing has been read behind the `else`. -/
theorem parted_of_first {tokens : List Token} (distinct : (tokens.map Token.span).Nodup)
    (word : tag.first = "else") (inside : (ofTokens limit tokens).InCondition span)
    (first : ¬ Divided limit tokens span) (start : Nat) :
    ∃ name recursive frame, frame ∈ (ofTokens limit tokens).frames ∧
      frame.close = .condition name recursive frame.blocks.reverse [] span ∧
      Parted name recursive span frame.blocks start
        ((ofTokens limit tokens).read limit (.tag tag)) := by
  have none_over := inside.1
  obtain ⟨frame, outer, name, recursive, opened, condition, placed, divided⟩ :=
    exists_frame_of_inCondition distinct inside
  have whole : frame.thenBranch = none := by
    simpa using divided.not.mpr first
  have half : frame.otherwise? =
      some { frame with thenBranch := some frame.blocks, blocks := [] } := by
    rw [Frame.otherwise?, condition, whole]
  refine ⟨name, recursive, frame, by rw [opened]; exact List.mem_cons_self, ?_, ?_⟩
  · rw [Frame.close, condition, whole, placed]
  · rw [read_otherwise word, otherwise, if_neg (by omega), opened]
    simp only [half]
    exact .opened [] rfl condition placed rfl (List.forall_mem_nil _) (List.forall_mem_nil _)

/-- A further `else` of a condition changes nothing. -/
theorem read_of_divided {tokens : List Token} (distinct : (tokens.map Token.span).Nodup)
    (word : tag.first = "else") (inside : (ofTokens limit tokens).InCondition span)
    (divided : Divided limit tokens span) :
    (ofTokens limit tokens).read limit (.tag tag) = ofTokens limit tokens := by
  have none_over := inside.1
  obtain ⟨frame, outer, name, recursive, opened, condition, _, divided_iff⟩ :=
    exists_frame_of_inCondition distinct inside
  obtain ⟨yes, front⟩ := Option.isSome_iff_exists.mp (divided_iff.mpr divided)
  have half : frame.otherwise? = some frame := by
    rw [Frame.otherwise?, condition, front]
  rw [read_otherwise word, otherwise, if_neg (by omega), opened]
  simp only [half]
  rw [← opened]

/-- An `else` where no condition is the innermost directive is noted. -/
theorem notices_read_otherwise (word : tag.first = "else") (inside : outline.overflow = 0)
    (displaced : ¬ ∃ span, outline.InCondition span) :
    (outline.read limit (.tag tag)).notices = .unexpected tag.text :: outline.notices := by
  have rejected : (outline.reject tag).notices = .unexpected tag.text :: outline.notices := by
    rw [reject, keep, notices_add]
    rfl
  rw [exists_inCondition_iff word, takes, Directive.ofTag?_otherwise word] at displaced
  rw [read_otherwise word, otherwise, if_neg (by omega)]
  cases opened : outline.frames with
  | nil => exact rejected
  | cons frame outer =>
    cases half : frame.otherwise? with
    | none => simpa only [half] using rejected
    | some half' => simp [opened, half, inside] at displaced

end Else

end Outline

/-! ## Compiling -/

namespace Program

/-- An `else` behind these tokens is accounted for. It is the first one of the innermost directive,
a condition, and separates its branches. Or it is out of place, and then it is in the tree as text,
with its text and its span, and a warning that names it is the next one behind the warnings about
the tokens in front of it. -/
inductive AccountsElse (source : String) (before : List Token) (tag : Tag) : Prop
  | separates {span : Span} (inside : (Outline.ofTokens maxNesting before).InCondition span)
      (first : ¬ Outline.Divided maxNesting before span)
      (separated : Block.SeparatedBy tag span (compile source).value.blocks)
  | keeps
      (displaced : ∀ span, (Outline.ofTokens maxNesting before).InCondition span →
        Outline.Divided maxNesting before span)
      (exact : tag.span.select? source.toList = some tag.text.toList)
      (kept : .text tag.text tag.span ∈ Block.headsList (compile source).value.blocks)
      (noted : (Outline.ofTokens maxNesting before).notices.reverse ++ [.unexpected tag.text] <+:
        (compile source).notices)

section Else

variable {source : String} {before after : List Token} {tag : Tag}

theorem blocks_compile_of_tokens (tokens : Token.ofSource source = before ++ .tag tag :: after) :
    (compile source).value.blocks = (after.foldl (Outline.read maxNesting)
      ((Outline.ofTokens maxNesting before).read maxNesting (.tag tag))).closed := by
  rw [compile, tokens, Outline.ofTokens_append_cons]

theorem notices_compile_of_tokens (tokens : Token.ofSource source = before ++ .tag tag :: after) :
    ((Outline.ofTokens maxNesting before).read maxNesting (.tag tag)).notices.reverse <+:
      (compile source).notices := by
  have later := Outline.notices_suffix_foldl_read maxNesting
    ((Outline.ofTokens maxNesting before).read maxNesting (.tag tag)) after
  rw [compile, tokens, Outline.ofTokens_append_cons, Outline.allNotices_eq]
  exact (List.reverse_prefix.mpr later).trans (List.prefix_append ..)

/-- The first `else` of a condition separates its branches. -/
theorem separatedBy_compile (tokens : Token.ofSource source = before ++ .tag tag :: after)
    (word : tag.first = "else") {span : Span}
    (inside : (Outline.ofTokens maxNesting before).InCondition span)
    (first : ¬ Outline.Divided maxNesting before span) :
    Block.SeparatedBy tag span (compile source).value.blocks := by
  have covers := Token.covers_ofSource source
  have distinct := covers.spans_nodup
  have ordered := covers.spans_ordered
  rw [tokens] at distinct ordered
  obtain ⟨_, behind, in_front⟩ := List.pairwise_append.mp ordered
  rw [List.map_append] at distinct
  obtain ⟨name, recursive, frame, opened, close, parted⟩ :=
    Outline.parted_of_first (List.nodup_append.mp distinct).1 word inside first tag.span.stop
  obtain ⟨no, within, no_behind⟩ :=
    (parted.foldl_read (List.pairwise_cons.mp behind).1).within_closed
  refine ⟨name, recursive, frame.blocks.reverse, no, ?_, fun head mem => ?_, no_behind⟩
  · rwa [blocks_compile_of_tokens tokens]
  · have read : head ∈ (Outline.ofTokens maxNesting before).heads := by
      refine List.mem_append_right _ (List.mem_flatMap.mpr ⟨frame, List.mem_reverse.mpr opened, ?_⟩)
      rw [Frame.heads, close, Block.heads]
      exact List.mem_cons_of_mem _ (List.mem_append_left _ mem)
    obtain ⟨added, spans, among⟩ := Outline.spans_foldl_read maxNesting .empty before
    have span_mem : head.span ∈ (Outline.ofTokens maxNesting before).spans := by
      rw [Outline.spans_eq_heads]
      exact List.mem_map_of_mem read
    rw [Outline.ofTokens, spans] at span_mem
    obtain ⟨token, token_mem, same⟩ := List.mem_map.mp (among.subset span_mem)
    rw [← same]
    exact in_front token token_mem _ List.mem_cons_self

/-- An `else` that finds no condition is kept as text and noted. -/
theorem accountsElse_of_displaced (tokens : Token.ofSource source = before ++ .tag tag :: after)
    (word : tag.first = "else") (inside : (Outline.ofTokens maxNesting before).overflow = 0)
    (displaced : ¬ ∃ span, (Outline.ofTokens maxNesting before).InCondition span) :
    AccountsElse source before tag := by
  refine .keeps (fun span found => absurd ⟨span, found⟩ displaced) ?_ ?_ ?_
  · have mem : .tag tag ∈ Token.ofSource source := by simp [tokens]
    exact (Token.covers_ofSource source).select?_span mem byteLength_nil
  · refine mem_headsList_compile.mpr ⟨before, .tag tag, after, tokens, ?_⟩
    rw [Outline.exists_inCondition_iff word] at displaced
    rw [Outline.yields, Directive.ofTag?_otherwise word]
    simp only [if_neg displaced]
    exact List.mem_singleton_self _
  · have noted := notices_compile_of_tokens tokens
    rwa [Outline.notices_read_otherwise word inside displaced, List.reverse_cons] at noted

/-- Of a further `else` of a condition nothing is left: neither a block nor a warning. -/
theorem lost_of_divided (tokens : Token.ofSource source = before ++ .tag tag :: after)
    (word : tag.first = "else") {span : Span}
    (inside : (Outline.ofTokens maxNesting before).InCondition span)
    (divided : Outline.Divided maxNesting before span) :
    Outline.ofTokens maxNesting (before ++ .tag tag :: after) =
        Outline.ofTokens maxNesting (before ++ after) ∧
      tag.span ∉ Block.spansList (compile source).value.blocks := by
  have distinct := (Token.covers_ofSource source).spans_nodup
  rw [tokens] at distinct
  have early := distinct
  rw [List.map_append] at early
  have same := Outline.read_of_divided (List.nodup_append.mp early).1 word inside divided
  obtain ⟨none_over, taken⟩ := (Outline.exists_inCondition_iff word).mp ⟨span, inside⟩
  refine ⟨?_, ?_⟩
  · rw [Outline.ofTokens_append_cons, same, Outline.ofTokens, Outline.ofTokens,
      List.foldl_append]
  · rw [compile, tokens]
    exact Outline.not_mem_of_takes distinct none_over taken

/-- Which `else` tags are accounted for. Among the tokens of a source, with no directive open past
the limit, an `else` separates the branches of its condition or is kept and noted, as it should be,
exactly if it is not a further `else` of the innermost condition. Such an `else` is lost: the
template compiles to the same blocks and the same warnings without it. -/
theorem accountsElse_iff (tokens : Token.ofSource source = before ++ .tag tag :: after)
    (word : tag.first = "else") (inside : (Outline.ofTokens maxNesting before).overflow = 0) :
    let outline := Outline.ofTokens maxNesting before
    (AccountsElse source before tag ↔
        ¬ ∃ span, outline.InCondition span ∧ Outline.Divided maxNesting before span) ∧
      ((∃ span, outline.InCondition span ∧ Outline.Divided maxNesting before span) →
        Outline.ofTokens maxNesting (before ++ .tag tag :: after) =
            Outline.ofTokens maxNesting (before ++ after) ∧
          tag.span ∉ Block.spansList (compile source).value.blocks) := by
  intro outline
  refine ⟨⟨?_, fun single => ?_⟩, fun ⟨span, found, divided⟩ =>
    lost_of_divided tokens word found divided⟩
  · rintro accounted ⟨span, found, divided⟩
    cases accounted with
    | separates found' first =>
      rw [Outline.inCondition_unique found' found] at first
      exact first divided
    | keeps _ _ kept =>
      refine (lost_of_divided tokens word found divided).2 ?_
      rw [Block.spansList_eq_heads]
      exact List.mem_map.mpr ⟨_, kept, rfl⟩
  · by_cases found : ∃ span, outline.InCondition span
    · obtain ⟨span, found⟩ := found
      have first : ¬ Outline.Divided maxNesting before span := fun divided =>
        single ⟨span, found, divided⟩
      exact .separates found first (separatedBy_compile tokens word found first)
    · exact accountsElse_of_displaced tokens word inside found

/-- The first `else` is in an iteration. The other one is the first of the condition around it. -/
theorem accountsElse_iff_nested :
    let source := "\x7b\x7bif a\x7d\x7d\x7b\x7bforeach b\x7d\x7d\x7b\x7belse\x7d\x7d" ++
      "\x7b\x7bend\x7d\x7d\x7b\x7belse\x7d\x7dy\x7b\x7bend\x7d\x7d"
    let before : List Token := [.tag ⟨2, "if", "a", "", "\x7b\x7bif a\x7d\x7d", ⟨0, 8⟩⟩,
      .tag ⟨2, "foreach", "b", "", "\x7b\x7bforeach b\x7d\x7d", ⟨8, 21⟩⟩,
      .tag ⟨2, "else", "", "", "\x7b\x7belse\x7d\x7d", ⟨21, 29⟩⟩,
      .tag ⟨2, "end", "", "", "\x7b\x7bend\x7d\x7d", ⟨29, 36⟩⟩]
    let tag : Tag := ⟨2, "else", "", "", "\x7b\x7belse\x7d\x7d", ⟨36, 44⟩⟩
    (Token.ofSource source = before ++ .tag tag :: [.raw "y" ⟨44, 45⟩ [],
        .tag ⟨2, "end", "", "", "\x7b\x7bend\x7d\x7d", ⟨45, 52⟩⟩] ∧
      tag.first = "else" ∧ (Outline.ofTokens maxNesting before).overflow = 0) ∧
      AccountsElse source before tag := by
  intro source before tag
  have tokens : Token.ofSource source = before ++ .tag tag :: [.raw "y" ⟨44, 45⟩ [],
      .tag ⟨2, "end", "", "", "\x7b\x7bend\x7d\x7d", ⟨45, 52⟩⟩] := by decide +kernel
  have none_over : (Outline.ofTokens maxNesting before).overflow = 0 := by decide +kernel
  refine ⟨⟨tokens, rfl, none_over⟩, (accountsElse_iff tokens rfl none_over).1.mpr ?_⟩
  rintro ⟨span, found, divided⟩
  have stages : (Outline.ofTokens maxNesting before).stages =
      [(.condition "a" false, ⟨0, 8⟩, false)] := by decide +kernel
  obtain ⟨_, _, _, _, _, opened⟩ := Outline.inCondition_iff.mp found
  rw [stages] at opened
  cases opened
  have distinct : (before.map Token.span).Nodup := by decide +kernel
  have undivided := (Outline.divided_iff distinct (stages ▸ List.mem_cons_self)).mpr divided
  cases undivided

/-- The second `else` of one condition is not accounted for: it is in no block, and nothing is
noted. -/
theorem not_accountsElse_second :
    let source := "\x7b\x7bif a\x7d\x7dx\x7b\x7belse\x7d\x7dy" ++
      "\x7b\x7belse\x7d\x7dz\x7b\x7bend\x7d\x7d"
    let first : Tag := ⟨2, "else", "", "", "\x7b\x7belse\x7d\x7d", ⟨9, 17⟩⟩
    let before : List Token := [.tag ⟨2, "if", "a", "", "\x7b\x7bif a\x7d\x7d", ⟨0, 8⟩⟩,
      .raw "x" ⟨8, 9⟩ [], .tag first, .raw "y" ⟨17, 18⟩ []]
    let tag : Tag := ⟨2, "else", "", "", "\x7b\x7belse\x7d\x7d", ⟨18, 26⟩⟩
    (Token.ofSource source = before ++ .tag tag :: [.raw "z" ⟨26, 27⟩ [],
        .tag ⟨2, "end", "", "", "\x7b\x7bend\x7d\x7d", ⟨27, 34⟩⟩] ∧
      tag.first = "else" ∧ (Outline.ofTokens maxNesting before).overflow = 0) ∧
      (compile source).notices = [] ∧ ¬ AccountsElse source before tag := by
  intro source first before tag
  refine ⟨⟨by decide +kernel, rfl, by decide +kernel⟩, by decide +kernel, ?_⟩
  intro accounted
  cases accounted with
  | separates found undivided =>
    have stages : (Outline.ofTokens maxNesting before).stages =
        [(.condition "a" false, ⟨0, 8⟩, true)] := by decide +kernel
    obtain ⟨_, _, _, _, _, opened⟩ := Outline.inCondition_iff.mp found
    rw [stages] at opened
    cases opened
    have distinct : (before.map Token.span).Nodup := by decide +kernel
    exact undivided ((Outline.divided_iff distinct (stages ▸ List.mem_cons_self)).mp rfl)
  | keeps _ _ kept =>
    have lost : .text tag.text tag.span ∉ Block.headsList (compile source).value.blocks := by
      decide +kernel
    exact lost kept

end Else

end Program

end Stencil
