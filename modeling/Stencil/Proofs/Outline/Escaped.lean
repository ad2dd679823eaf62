import Stencil.Proofs.Block.Tree
import Stencil.Proofs.Directive
import Stencil.Proofs.Token.Escaped

/-!
# Templates of escaped texts

A text may be escaped before it is compiled, or its template may be escaped afterwards.

1. `Directive.ofTag?_escaped`: an escaped tag says what the tag says, about the escaped name.
2. `Outline.read_escaped`: reading an escaped token gives the escaped outline.
3. `Program.compile_eq_escaped`: so the templates are the same, and so are the mistakes in them.
-/

namespace Stencil

open Text

/-! ## Escaped templates -/

namespace Block

mutual

/-- A block of a source, where the source is escaped: so are its texts and names, and its spans have
moved. -/
def escaped (source : List Char) : Block → Block
  | .text content span => .text (escapeHtml content) (span.escaped source)
  | .placeholder p =>
    .placeholder { p with name := escapeHtml p.name, span := p.span.escaped source }
  | .condition name recursive yes no span =>
    .condition (escapeHtml name) recursive (escapedList source yes) (escapedList source no)
      (span.escaped source)
  | .iteration name body span =>
    .iteration (escapeHtml name) (escapedList source body) (span.escaped source)

def escapedList (source : List Char) : List Block → List Block
  | [] => []
  | block :: blocks => escaped source block :: escapedList source blocks

end

theorem escapedList_eq_map (source : List Char) (blocks : List Block) :
    escapedList source blocks = blocks.map (escaped source) := by
  induction blocks with
  | nil => rfl
  | cons block blocks ih => rw [escapedList, ih, List.map_cons]

end Block

def Program.escaped (program : Program) : Program :=
  ⟨escapeHtml program.source, Block.escapedList program.source.toList program.blocks⟩

def Notice.escaped : Notice → Notice
  | .unbalanced tag => .unbalanced (escapeHtml tag)
  | .nestedTooDeep limit tag => .nestedTooDeep limit (escapeHtml tag)
  | .unexpected tag => .unexpected (escapeHtml tag)
  | .nameless tag => .nameless (escapeHtml tag)
  | .missingEnd tags => .missingEnd (tags.map escapeHtml)
  | other => other

/-! ## What a tag says -/

def Opening.escaped : Opening → Opening
  | .condition name recursive => .condition (escapeHtml name) recursive
  | .iteration name => .iteration (escapeHtml name)

def Directive.escaped : Directive → Directive
  | .opens opening => .opens opening.escaped
  | .otherwise => .otherwise
  | .ends kind => .ends (kind.map escapeHtml)
  | .placeholder name recursive => .placeholder (escapeHtml name) recursive

theorem escapeHtml_beq {word : String} (plain : word.toList.all isPlain = true) (text : String) :
    (escapeHtml text == word) = (text == word) := by
  rw [Bool.eq_iff_iff, beq_iff_eq, beq_iff_eq, escapeHtml_eq_iff plain]

theorem nonempty?_escapeHtml (word : String) :
    nonempty? (escapeHtml word) = (nonempty? word).map escapeHtml := by
  have missing : escapeHtml word = "" ↔ word = "" := escapeHtml_eq_iff (by decide)
  by_cases empty : word = ""
  · rw [nonempty?, nonempty?, if_pos empty, if_pos (missing.mpr empty), Option.map_none]
  · rw [nonempty?, nonempty?, if_neg empty, if_neg (missing.not.mpr empty), Option.map_some]

theorem Opening.endedBy_escaped (opening : Opening) (kind : Option String) :
    opening.escaped.endedBy (kind.map escapeHtml) = opening.endedBy kind := by
  cases kind with
  | none => rfl
  | some kind =>
    cases opening with
    | condition name recursive => exact escapeHtml_beq (by decide) kind
    | iteration name => exact escapeHtml_beq (by decide) kind

/-- An escaped tag says what the tag says, about the escaped name. -/
theorem Directive.ofTag?_escaped (source : List Char) (tag : Tag) :
    ofTag? (tag.escaped source) = (ofTag? tag).map escaped := by
  have flag (word : String) : (escapeHtml word == recursionFlag) = (word == recursionFlag) :=
    escapeHtml_beq (by decide) word
  have kept : ∀ word ∈ keywords, escapeHtml word = word := by decide
  by_cases keyword : tag.first ∈ keywords
  · have same : (tag.escaped source).first = tag.first := kept _ keyword
    simp only [keywords, List.mem_cons, List.not_mem_nil, or_false] at keyword
    rw [ofTag?, ofTag?, same]
    rcases keyword with word | word | word | word
    all_goals
      simp only [word, Tag.escaped, nonempty?_escapeHtml, flag, Option.map_map]
      rfl
  · have free : (tag.escaped source).first ∉ keywords := by
      intro mem
      have plain : ∀ word ∈ keywords, word.toList.all isPlain = true := by decide
      rw [← (escapeHtml_eq_iff (plain _ mem)).mp rfl] at mem
      exact keyword mem
    rw [ofTag?_placeholder free, ofTag?_placeholder keyword, Option.map_some, escaped]
    simp only [Tag.escaped, flag]

/-! ## Reading -/

namespace Frame

def escaped (source : List Char) (frame : Frame) : Frame where
  opening := frame.opening.escaped
  tag := escapeHtml frame.tag
  span := frame.span.escaped source
  thenBranch := frame.thenBranch.map (·.map (Block.escaped source))
  blocks := frame.blocks.map (Block.escaped source)

variable (source : List Char)

theorem extend_escaped (frame : Frame) (blocks : List Block) :
    (frame.escaped source).extend (blocks.map (Block.escaped source)) =
      (frame.extend blocks).escaped source := by
  simp only [extend, escaped, List.map_append]

theorem close_escaped (frame : Frame) :
    (frame.escaped source).close = frame.close.escaped source := by
  obtain ⟨opening, tag, span, thenBranch, blocks⟩ := frame
  cases opening <;> cases thenBranch <;>
    simp [close, escaped, Opening.escaped, Block.escaped, Block.escapedList_eq_map]

theorem otherwise?_escaped (frame : Frame) :
    (frame.escaped source).otherwise? = frame.otherwise?.map (escaped source) := by
  obtain ⟨opening, tag, span, thenBranch, blocks⟩ := frame
  cases opening <;> cases thenBranch <;> rfl

end Frame

namespace Outline

def escaped (source : List Char) (outline : Outline) : Outline where
  top := outline.top.map (Block.escaped source)
  frames := outline.frames.map (Frame.escaped source)
  overflow := outline.overflow
  notices := outline.notices.map Notice.escaped

variable (source : List Char) (limit : Nat) (outline : Outline) (tag : Tag)

theorem add_escaped (block : Block) :
    (outline.escaped source).add (block.escaped source) =
      (outline.add block).escaped source := by
  obtain ⟨top, frames, overflow, notices⟩ := outline
  cases frames with
  | nil => rfl
  | cons frame frames =>
    simp only [add, escaped, List.map_cons, ← Frame.extend_escaped, List.map_nil]

theorem keep_escaped :
    (outline.escaped source).keep (tag.escaped source) = (outline.keep tag).escaped source := by
  rw [keep, keep, ← add_escaped]
  rfl

theorem reject_escaped :
    (outline.escaped source).reject (tag.escaped source) =
      (outline.reject tag).escaped source := by
  rw [reject, reject, ← keep_escaped]
  rfl

theorem opens_escaped (opening : Opening) :
    (outline.escaped source).opens limit opening.escaped (tag.escaped source) =
      (outline.opens limit opening tag).escaped source := by
  have same : (outline.escaped source).frames.length = outline.frames.length := List.length_map _
  unfold opens
  rw [same]
  split
  · rfl
  · dsimp only
    rw [← keep_escaped]
    refine congrArg (keep · (tag.escaped source)) ?_
    have counted : (outline.escaped source).overflow = outline.overflow := rfl
    rw [counted]
    split <;> rfl

theorem otherwise_escaped :
    (outline.escaped source).otherwise (tag.escaped source) =
      (outline.otherwise tag).escaped source := by
  unfold otherwise
  show (if 0 < outline.overflow then _ else _) = _
  split
  · exact keep_escaped source outline tag
  · obtain ⟨top, frames, overflow, notices⟩ := outline
    cases frames with
    | nil => exact reject_escaped ..
    | cons frame frames =>
      have divides := frame.otherwise?_escaped source
      cases divided : frame.otherwise? with
      | some half =>
        rw [divided] at divides
        simp [escaped, divides, divided]
      | none =>
        rw [divided] at divides
        simp only [escaped, List.map_cons, divides, divided, Option.map_none]
        exact reject_escaped source ⟨top, frame :: frames, overflow, notices⟩ tag

theorem ends_escaped (kind : Option String) :
    (outline.escaped source).ends (kind.map escapeHtml) (tag.escaped source) =
      (outline.ends kind tag).escaped source := by
  unfold ends
  show (if 0 < outline.overflow then _ else _) = _
  split
  · exact keep_escaped source { outline with overflow := outline.overflow - 1 } tag
  · obtain ⟨top, frames, overflow, notices⟩ := outline
    cases frames with
    | nil => exact reject_escaped ..
    | cons frame frames =>
      have same : (frame.escaped source).opening.endedBy (kind.map escapeHtml) =
        frame.opening.endedBy kind := frame.opening.endedBy_escaped kind
      simp only [escaped, List.map_cons, same, Frame.close_escaped]
      split
      · exact add_escaped source ⟨top, frames, overflow, notices⟩ frame.close
      · exact reject_escaped source ⟨top, frame :: frames, overflow, notices⟩ tag

/-- Reading an escaped token gives the escaped outline. -/
theorem read_escaped (token : Token) :
    (outline.escaped source).read limit (token.escaped source) =
      (outline.read limit token).escaped source := by
  cases token with
  | raw text span rejected =>
    have noted : ∀ outline : Outline,
        ((rejected.map escapeHtml).map Notice.unbalanced).foldl note (outline.escaped source) =
          ((rejected.map Notice.unbalanced).foldl note outline).escaped source := by
      induction rejected with
      | nil => exact fun _ => rfl
      | cons text rejected ih => exact fun outline => ih (outline.note (.unbalanced text))
    rw [read, ← add_escaped, ← noted]
    rfl
  | tag tag =>
    rw [Token.escaped, read, read, readTag, readTag, Directive.ofTag?_escaped]
    cases Directive.ofTag? tag with
    | none => rfl
    | some directive =>
      cases directive with
      | opens opening => exact opens_escaped source limit outline tag opening
      | otherwise => exact otherwise_escaped source outline tag
      | ends kind => exact ends_escaped source outline tag kind
      | placeholder name recursive =>
        exact add_escaped source outline
          (.placeholder ⟨name, recursive, tag.braces == 2, tag.span⟩)

theorem ofTokens_escaped (tokens : List Token) :
    ofTokens limit (tokens.map (Token.escaped source)) =
      (ofTokens limit tokens).escaped source := by
  suffices ∀ outline : Outline,
      (tokens.map (Token.escaped source)).foldl (read limit) (outline.escaped source) =
        (tokens.foldl (read limit) outline).escaped source from this empty
  induction tokens with
  | nil => exact fun _ => rfl
  | cons token tokens ih =>
    intro outline
    rw [List.map_cons, List.foldl_cons, read_escaped, ih, List.foldl_cons]

theorem closed_escaped :
    (outline.escaped source).closed = outline.closed.map (Block.escaped source) := by
  have inner : ∀ (frames : List Frame) (inner : List Block),
      (frames.map (Frame.escaped source)).foldl (fun inner frame => [(frame.extend inner).close])
          (inner.map (Block.escaped source)) =
        (frames.foldl (fun inner frame => [(frame.extend inner).close]) inner).map
          (Block.escaped source) := by
    intro frames
    induction frames with
    | nil => exact fun _ => rfl
    | cons frame frames ih =>
      intro inner
      rw [List.map_cons, List.foldl_cons, Frame.extend_escaped, Frame.close_escaped,
        List.foldl_cons]
      exact ih [(frame.extend inner).close]
  have frames_eq := inner outline.frames []
  simp only [closed, escaped, List.map_reverse, List.map_append, ← frames_eq, List.map_nil]

theorem allNotices_escaped :
    (outline.escaped source).allNotices = outline.allNotices.map Notice.escaped := by
  obtain ⟨top, frames, overflow, notices⟩ := outline
  cases frames with
  | nil => simp [allNotices, escaped]
  | cons frame frames =>
    have tags : Frame.tag ∘ Frame.escaped source = escapeHtml ∘ Frame.tag := rfl
    simp [allNotices, escaped, Notice.escaped, tags, Frame.escaped]

end Outline

/-! ## Compiling -/

/-- A text may be escaped before it is compiled, or its template may be escaped afterwards. -/
theorem Program.compile_eq_escaped (text : String) :
    (compile (escapeHtml text)).value = (compile text).value.escaped ∧
      (compile (escapeHtml text)).notices = (compile text).notices.map Notice.escaped := by
  unfold compile
  rw [Token.ofSource_escapeHtml, Outline.ofTokens_escaped]
  refine ⟨?_, Outline.allNotices_escaped ..⟩
  dsimp only
  rw [Outline.closed_escaped, ← Block.escapedList_eq_map]
  rfl

end Stencil
