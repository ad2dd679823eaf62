import Stencil.Outline
import Stencil.Proofs.Token.Append

/-!
# Templates put together

Where every directive of a template is closed and a tag comes last, a template behind it is read as
if it stood alone.

1. `Outline.read_behind`: a moved token is read on top of what was read before as the token is read
   on top of nothing.
2. `Program.compile_append`: so the blocks of the whole are those of the first template and then
   those of the second one, moved, and so it is with the mistakes in them.
-/

namespace Stencil

/-! ## Moved blocks -/

namespace Block

mutual

def shift (offset : Nat) : Block → Block
  | .text content span => .text content (span.shift offset)
  | .placeholder p => .placeholder { p with span := p.span.shift offset }
  | .condition name recursive yes no span =>
    .condition name recursive (shiftList offset yes) (shiftList offset no) (span.shift offset)
  | .iteration name body span => .iteration name (shiftList offset body) (span.shift offset)

def shiftList (offset : Nat) : List Block → List Block
  | [] => []
  | block :: blocks => shift offset block :: shiftList offset blocks

end

theorem shiftList_eq_map (offset : Nat) (blocks : List Block) :
    shiftList offset blocks = blocks.map (shift offset) := by
  induction blocks with
  | nil => rfl
  | cons block blocks ih => rw [shiftList, ih, List.map_cons]

end Block

namespace Frame

def shift (offset : Nat) (frame : Frame) : Frame where
  opening := frame.opening
  tag := frame.tag
  span := frame.span.shift offset
  thenBranch := frame.thenBranch.map (·.map (Block.shift offset))
  blocks := frame.blocks.map (Block.shift offset)

variable (offset : Nat) (frame : Frame)

theorem extend_shift (blocks : List Block) :
    (frame.shift offset).extend (blocks.map (Block.shift offset)) =
      (frame.extend blocks).shift offset := by
  simp only [extend, shift, List.map_append]

theorem close_shift : (frame.shift offset).close = frame.close.shift offset := by
  obtain ⟨opening, tag, span, thenBranch, blocks⟩ := frame
  cases opening <;> cases thenBranch <;>
    simp [close, shift, Block.shift, Block.shiftList_eq_map]

theorem otherwise?_shift :
    (frame.shift offset).otherwise? = frame.otherwise?.map (shift offset) := by
  obtain ⟨opening, tag, span, thenBranch, blocks⟩ := frame
  cases opening <;> cases thenBranch <;> rfl

/-- Moved directives that close in a row, from the innermost one on, leave a moved block. -/
theorem foldl_close_shift (frames : List Frame) (inner : List Block) :
    (frames.map (shift offset)).foldl (fun inner frame => [(frame.extend inner).close])
        (inner.map (Block.shift offset)) =
      (frames.foldl (fun inner frame => [(frame.extend inner).close]) inner).map
        (Block.shift offset) := by
  induction frames generalizing inner with
  | nil => rfl
  | cons frame frames ih =>
    rw [List.map_cons, List.foldl_cons, extend_shift, close_shift, List.foldl_cons]
    exact ih [(frame.extend inner).close]

end Frame

/-! ## Reading -/

namespace Outline

/-- A moved outline, with the blocks and the notices of another one in front of its own. -/
def behind (offset : Nat) (outline before : Outline) : Outline where
  top := outline.top.map (Block.shift offset) ++ before.top
  frames := outline.frames.map (Frame.shift offset)
  overflow := outline.overflow
  notices := outline.notices ++ before.notices

/-- Every directive that was opened has been closed, past the limit, too. -/
structure Settled (outline : Outline) : Prop where
  frames : outline.frames = []
  overflow : outline.overflow = 0

instance (outline : Outline) : Decidable outline.Settled :=
  decidable_of_iff (outline.frames.isEmpty = true ∧ outline.overflow = 0)
    ⟨fun ⟨frames, overflow⟩ => ⟨List.isEmpty_iff.mp frames, overflow⟩,
      fun ⟨frames, overflow⟩ => ⟨List.isEmpty_iff.mpr frames, overflow⟩⟩

variable (offset limit : Nat) (before outline : Outline) (tag : Tag)

theorem add_behind (block : Block) :
    (outline.behind offset before).add (block.shift offset) =
      (outline.add block).behind offset before := by
  obtain ⟨top, frames, overflow, notices⟩ := outline
  cases frames with
  | nil => rfl
  | cons frame frames =>
    simp only [add, behind, List.map_cons, ← Frame.extend_shift, List.map_nil]

theorem keep_behind :
    (outline.behind offset before).keep (tag.shift offset) =
      (outline.keep tag).behind offset before := by
  rw [keep, keep, ← add_behind]
  rfl

theorem reject_behind :
    (outline.behind offset before).reject (tag.shift offset) =
      (outline.reject tag).behind offset before := by
  rw [reject, reject, ← keep_behind]
  rfl

theorem opens_behind (opening : Opening) :
    (outline.behind offset before).opens limit opening (tag.shift offset) =
      (outline.opens limit opening tag).behind offset before := by
  have same : (outline.behind offset before).frames.length = outline.frames.length :=
    List.length_map _
  unfold opens
  rw [same]
  split
  · rfl
  · dsimp only
    rw [← keep_behind]
    refine congrArg (keep · (tag.shift offset)) ?_
    have counted : (outline.behind offset before).overflow = outline.overflow := rfl
    rw [counted]
    split <;> rfl

theorem otherwise_behind :
    (outline.behind offset before).otherwise (tag.shift offset) =
      (outline.otherwise tag).behind offset before := by
  unfold otherwise
  show (if 0 < outline.overflow then _ else _) = _
  split
  · exact keep_behind ..
  · obtain ⟨top, frames, overflow, notices⟩ := outline
    cases frames with
    | nil => exact reject_behind ..
    | cons frame frames =>
      have divides := frame.otherwise?_shift offset
      cases divided : frame.otherwise? with
      | some half =>
        rw [divided] at divides
        simp [behind, divides, divided]
      | none =>
        rw [divided] at divides
        simp only [behind, List.map_cons, divides, divided, Option.map_none]
        exact reject_behind offset before ⟨top, frame :: frames, overflow, notices⟩ tag

theorem ends_behind (kind : Option String) :
    (outline.behind offset before).ends kind (tag.shift offset) =
      (outline.ends kind tag).behind offset before := by
  unfold ends
  show (if 0 < outline.overflow then _ else _) = _
  split
  · exact keep_behind offset before { outline with overflow := outline.overflow - 1 } tag
  · obtain ⟨top, frames, overflow, notices⟩ := outline
    cases frames with
    | nil => exact reject_behind ..
    | cons frame frames =>
      have same : (frame.shift offset).opening.endedBy kind = frame.opening.endedBy kind := rfl
      simp only [behind, List.map_cons, same, Frame.close_shift]
      split
      · exact add_behind offset before ⟨top, frames, overflow, notices⟩ frame.close
      · exact reject_behind offset before ⟨top, frame :: frames, overflow, notices⟩ tag

theorem foldl_note_behind (notices : List Notice) :
    notices.foldl note (outline.behind offset before) =
      (notices.foldl note outline).behind offset before := by
  induction notices generalizing outline with
  | nil => rfl
  | cons notice notices ih => exact ih (outline.note notice)

/-- A moved token is read on top of what was read before as the token is read on top of nothing. -/
theorem read_behind (token : Token) :
    (outline.behind offset before).read limit (token.shift offset) =
      (outline.read limit token).behind offset before := by
  cases token with
  | raw text span rejected =>
    rw [read, ← add_behind, ← foldl_note_behind]
    rfl
  | tag tag =>
    have said : Directive.ofTag? (tag.shift offset) = Directive.ofTag? tag := rfl
    rw [Token.shift, read, read, readTag, readTag, said]
    cases Directive.ofTag? tag with
    | none => rfl
    | some directive =>
      cases directive with
      | opens opening => exact opens_behind offset limit before outline tag opening
      | otherwise => exact otherwise_behind offset before outline tag
      | ends kind => exact ends_behind offset before outline tag kind
      | placeholder name recursive =>
        exact add_behind offset before outline
          (.placeholder ⟨name, recursive, tag.braces == 2, tag.span⟩)

theorem foldl_read_behind (tokens : List Token) :
    (tokens.map (Token.shift offset)).foldl (read limit) (outline.behind offset before) =
      (tokens.foldl (read limit) outline).behind offset before := by
  induction tokens generalizing outline with
  | nil => rfl
  | cons token tokens ih => rw [List.map_cons, List.foldl_cons, read_behind, ih, List.foldl_cons]

/-- Behind closed directives the directives that are open close by themselves. -/
theorem closed_behind (settled : before.Settled) :
    (outline.behind offset before).closed =
      before.closed ++ outline.closed.map (Block.shift offset) := by
  have inner := Frame.foldl_close_shift offset outline.frames []
  rw [List.map_nil] at inner
  simp [closed, behind, settled.frames, inner]

theorem allNotices_behind (settled : before.Settled) :
    (outline.behind offset before).allNotices = before.allNotices ++ outline.allNotices := by
  obtain ⟨top, frames, overflow, notices⟩ := outline
  cases frames with
  | nil => simp [allNotices, behind, settled.frames]
  | cons frame frames =>
    have tags : Frame.tag ∘ Frame.shift offset = Frame.tag := rfl
    simp [allNotices, behind, settled.frames, tags, Frame.shift]

end Outline

/-! ## Compiling -/

namespace Program

/-- Behind a template that ends with a tag and leaves no directive open, a template compiles to the
same blocks as by itself, moved by the length of the first one, and with the same mistakes. -/
theorem compile_append {source more : String} {last : Tag}
    (tagged : (Token.ofSource source).getLast? = some (.tag last))
    (settled : (Outline.ofTokens maxNesting (Token.ofSource source)).Settled)
    (apart : ∀ c ∈ more.toList.head?, c ≠ '\x7d') :
    (compile (source ++ more)).value =
        ⟨source ++ more, (compile source).value.blocks ++
          Block.shiftList source.utf8ByteSize (compile more).value.blocks⟩ ∧
      (compile (source ++ more)).notices = (compile source).notices ++ (compile more).notices := by
  set before := Outline.ofTokens maxNesting (Token.ofSource source) with read_before
  have start : before = Outline.empty.behind source.utf8ByteSize before := by
    obtain ⟨top, frames, overflow, notices⟩ := before
    obtain ⟨rfl, rfl⟩ := settled
    rfl
  have whole : Outline.ofTokens maxNesting (Token.ofSource (source ++ more)) =
      (Outline.ofTokens maxNesting (Token.ofSource more)).behind source.utf8ByteSize before := by
    rw [Token.ofSource_append tagged apart, Outline.ofTokens, List.foldl_append,
      ← Outline.ofTokens, ← read_before, Outline.ofTokens, ← Outline.foldl_read_behind, ← start]
  unfold compile
  rw [whole, ← read_before, Block.shiftList_eq_map]
  dsimp only
  rw [Outline.closed_behind _ _ _ settled, Outline.allNotices_behind _ _ _ settled]
  exact ⟨rfl, rfl⟩

/-- An unbalanced tag and a condition with both branches, and behind it a directive that is left
open. -/
theorem compile_append_unbalanced :
    let source := "\x7b\x7b\x7ba\x7d\x7d\x7b\x7bif b\x7d\x7d\x7b\x7belse\x7d\x7dc" ++
      "\x7b\x7bend if\x7d\x7d"
    let more := "\x7b\x7b\x7bd\x7d\x7d\x7d\x7b\x7bforeach e\x7d\x7df"
    (compile (source ++ more)).value.blocks =
        [.text "\x7b\x7b\x7ba\x7d\x7d" ⟨0, 6⟩, .condition "b" false [] [.text "c" ⟨22, 23⟩] ⟨6, 14⟩,
          .placeholder ⟨"d", false, false, ⟨33, 40⟩⟩,
          .iteration "e" [.text "f" ⟨53, 54⟩] ⟨40, 53⟩] ∧
      (compile (source ++ more)).notices =
        [.unbalanced "\x7b\x7b\x7ba\x7d\x7d", .missingEnd ["\x7b\x7bforeach e\x7d\x7d"]] := by
  intro source more
  have tagged : (Token.ofSource source).getLast? =
      some (.tag ⟨2, "end", "if", "", "\x7b\x7bend if\x7d\x7d", ⟨23, 33⟩⟩) := by decide +kernel
  have first : more.toList.head? = some '\x7b' := by decide +kernel
  have apart : ∀ c ∈ more.toList.head?, c ≠ '\x7d' := by
    rw [first]
    rintro c ⟨⟩
    decide
  have whole := compile_append tagged (by decide +kernel) apart
  exact ⟨(congrArg Program.blocks whole.1).trans (by decide +kernel),
    whole.2.trans (by decide +kernel)⟩

end Program

end Stencil
