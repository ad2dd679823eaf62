import Stencil.Proofs.Directive
import Stencil.Proofs.Outline.Flatten
import Stencil.Proofs.Token.Written

/-!
# Templates that are written out

A tree of blocks together with all that its source is free to choose: the braces and the white space
of each tag, whether an `end` says what it ends, and whether an empty second branch has an `else`.

1. `Markup.apart_pieces`: in the source no text comes directly behind other text.
2. `Markup.read_pieces`, `Markup.read_piecesList`: reading the source adds the blocks, whatever is
   open around them.
3. `Program.compile_source`: the source compiles to exactly the blocks that were written.
-/

namespace Stencil

/-! ## Tags -/

/-- A word that a placeholder can have as its name. -/
structure FreeWord extends Word where
  free : text ∉ keywords

/-- How an opening tag is written, with the name in it. -/
structure Header where
  style : Style
  gap : Gap
  name : Word

/-- How an `end` is written. Behind the gap, if there is one, it says what it ends. -/
structure Ending where
  style : Style
  gap : Option Gap

namespace Word

def ofIf : Word := ⟨"if", by decide, by decide⟩
def ofForeach : Word := ⟨"foreach", by decide, by decide⟩
def ofElse : Word := ⟨"else", by decide, by decide⟩
def ofEnd : Word := ⟨"end", by decide, by decide⟩
def ofRecursion : Word := ⟨recursionFlag, by decide, by decide⟩

/-- A word behind a gap, if there is the gap. -/
def optional (gap : Option Gap) (word : Word) : List (Gap × Word) :=
  gap.toList.map (·, word)

theorem length_optional_le (gap : Option Gap) (word : Word) : (optional gap word).length ≤ 1 := by
  cases gap <;> simp [optional]

end Word

namespace Spelling

def placeholder (style : Style) (name : FreeWord) (flag : Option Gap) : Spelling where
  style := style
  first := name.toWord
  others := Word.optional flag .ofRecursion
  few := Nat.le_succ_of_le (Word.length_optional_le ..)

def condition (header : Header) (flag : Option Gap) : Spelling where
  style := header.style
  first := .ofIf
  others := (header.gap, header.name) :: Word.optional flag .ofRecursion
  few := Nat.succ_le_succ (Word.length_optional_le ..)

def iteration (header : Header) : Spelling :=
  ⟨header.style, .ofForeach, [(header.gap, header.name)], Nat.le_succ 1⟩

def divider (style : Style) : Spelling :=
  ⟨style, .ofElse, [], Nat.zero_le 2⟩

def ending (ending : Ending) (kind : Word) : Spelling where
  style := ending.style
  first := .ofEnd
  others := Word.optional ending.gap kind
  few := Nat.le_succ_of_le (Word.length_optional_le ..)

end Spelling

/-! ## Trees -/

/-- A block with all that its source is free to choose. -/
inductive Markup where
  | prose (written : Prose)
  | placeholder (style : Style) (name : FreeWord) (flag : Option Gap)
  /-- A condition without an `else`. -/
  | condition (header : Header) (flag : Option Gap) (yes : List Markup) (ending : Ending)
  /-- A condition with an `else`. -/
  | choice (header : Header) (flag : Option Gap) (yes : List Markup) (divider : Style)
      (no : List Markup) (ending : Ending)
  | iteration (header : Header) (body : List Markup) (ending : Ending)

/-- The region of the source of a piece that begins at a position. -/
def Piece.span (start : Nat) (piece : Piece) : Span :=
  ⟨start, start + byteLength piece.write⟩

/-- The position behind some pieces. -/
def Piece.behind (start : Nat) (pieces : List Piece) : Nat :=
  start + byteLength (writeAll pieces)

/-- A directive with the pieces in it. -/
def Piece.enclose (opening : Spelling) (inner : List Piece) (ending : Spelling) : List Piece :=
  .tag opening :: (inner ++ [.tag ending])

namespace Markup

mutual

/-- The source of a block, piece by piece. -/
def pieces : Markup → List Piece
  | prose written => [.prose written]
  | placeholder style name flag => [.tag (.placeholder style name flag)]
  | condition header flag yes ending =>
    Piece.enclose (.condition header flag) (piecesList yes) (.ending ending .ofIf)
  | choice header flag yes divider no ending =>
    Piece.enclose (.condition header flag)
      (piecesList yes ++ .tag (.divider divider) :: piecesList no) (.ending ending .ofIf)
  | iteration header body ending =>
    Piece.enclose (.iteration header) (piecesList body) (.ending ending .ofForeach)

def piecesList : List Markup → List Piece
  | [] => []
  | markup :: markups => pieces markup ++ piecesList markups

end

mutual

/-- The block whose source begins at a position. -/
def block (start : Nat) : Markup → Block
  | prose written => .text written.text (Piece.span start (.prose written))
  | placeholder style name flag =>
    .placeholder ⟨name.text, flag.isSome, !style.wide,
      Piece.span start (.tag (.placeholder style name flag))⟩
  | condition header flag yes _ =>
    let span := Piece.span start (.tag (.condition header flag))
    .condition header.name.text flag.isSome (blocks span.stop yes) [] span
  | choice header flag yes divider no _ =>
    let span := Piece.span start (.tag (.condition header flag))
    let other := Piece.span (Piece.behind span.stop (piecesList yes)) (.tag (.divider divider))
    .condition header.name.text flag.isSome (blocks span.stop yes) (blocks other.stop no) span
  | iteration header body _ =>
    let span := Piece.span start (.tag (.iteration header))
    .iteration header.name.text (blocks span.stop body) span

def blocks (start : Nat) : List Markup → List Block
  | [] => []
  | markup :: markups =>
    block start markup :: blocks (Piece.behind start (pieces markup)) markups

end

mutual

/-- How many directives are open at once. -/
def height : Markup → Nat
  | prose _ | placeholder .. => 0
  | condition _ _ yes _ => heightList yes + 1
  | choice _ _ yes _ no _ => max (heightList yes) (heightList no) + 1
  | iteration _ body _ => heightList body + 1

def heightList : List Markup → Nat
  | [] => 0
  | markup :: markups => max (height markup) (heightList markups)

end

def isProse : Markup → Bool
  | prose _ => true
  | _ => false

mutual

/-- Whether no two texts are adjacent. -/
def apart : Markup → Bool
  | prose _ | placeholder .. => true
  | condition _ _ yes _ => apartList yes
  | choice _ _ yes _ no _ => apartList yes && apartList no
  | iteration _ body _ => apartList body

def apartList : List Markup → Bool
  | [] => true
  | markup :: markups =>
    apart markup && apartList markups && !(markup.isProse && markups.head?.any isProse)

end

end Markup

/-! ## Cutting -/

namespace Piece

theorem behind_cons (start : Nat) (piece : Piece) (pieces : List Piece) :
    behind start (piece :: pieces) = behind (span start piece).stop pieces := by
  rw [behind, behind, span, writeAll, List.flatMap_cons, byteLength_append, Nat.add_assoc]
  rfl

theorem tokens_append (start : Nat) (pieces more : List Piece) :
    tokens start (pieces ++ more) = tokens start pieces ++ tokens (behind start pieces) more := by
  induction pieces generalizing start with
  | nil => rfl
  | cons piece pieces ih =>
    rw [List.cons_append, tokens, tokens, ih, behind_cons, List.cons_append]
    rfl

theorem apart_tag (spelling : Spelling) {rest : List Piece} (others : Apart rest) :
    Apart (.tag spelling :: rest) :=
  List.isChain_cons.mpr ⟨fun _ _ => nofun, others⟩

/-- No text comes first. -/
def TagFirst (pieces : List Piece) : Prop := ∀ piece ∈ pieces.head?, piece.isProse = false

theorem tagFirst_tag (spelling : Spelling) (rest : List Piece) :
    TagFirst (.tag spelling :: rest) := by
  rintro _ ⟨⟩
  rfl

/-- A directive can stand in front of anything. -/
theorem apart_enclose (opening ending : Spelling) {inner rest : List Piece}
    (apart : ∀ {behind : List Piece}, Apart behind → TagFirst behind → Apart (inner ++ behind))
    (others : Apart rest) : Apart (enclose opening inner ending ++ rest) := by
  rw [enclose, List.cons_append, List.append_assoc]
  exact apart_tag opening (apart (apart_tag ending others) (tagFirst_tag ending rest))

end Piece

namespace Markup

/-- The source of a block begins with text only if the block is text. -/
theorem exists_pieces (markup : Markup) :
    ∃ piece more, markup.pieces = piece :: more ∧ piece.isProse = markup.isProse := by
  cases markup <;> exact ⟨_, _, rfl, rfl⟩

mutual

/-- Text is followed by a tag, so the pieces of a block can stand in front of others. The induction
is on the block, with whatever comes behind it. -/
theorem apart_pieces : (markup : Markup) → markup.apart = true → ∀ {rest : List Piece},
    Piece.Apart rest → (markup.isProse = true → Piece.TagFirst rest) →
      Piece.Apart (markup.pieces ++ rest)
  | prose _, _, _, others, tag =>
    List.isChain_cons.mpr ⟨fun piece first _ => tag rfl piece first, others⟩
  | placeholder .., _, _, others, _ => Piece.apart_tag _ others
  | condition _ _ yes _, inside, _, others, _ => by
    rw [apart] at inside
    exact Piece.apart_enclose _ _ (apart_piecesList yes inside) others
  | choice _ _ yes divider no _, inside, _, others, _ => by
    rw [apart, Bool.and_eq_true] at inside
    refine Piece.apart_enclose _ _ (fun {behind} tail tag => ?_) others
    have last := Piece.apart_tag (.divider divider) (apart_piecesList no inside.2 tail tag)
    rw [List.append_assoc]
    exact apart_piecesList yes inside.1 last (Piece.tagFirst_tag _ _)
  | iteration _ body _, inside, _, others, _ => by
    rw [apart] at inside
    exact Piece.apart_enclose _ _ (apart_piecesList body inside) others

theorem apart_piecesList : (markups : List Markup) → apartList markups = true →
    ∀ {rest : List Piece}, Piece.Apart rest → Piece.TagFirst rest →
      Piece.Apart (piecesList markups ++ rest)
  | [], _, _, others, _ => others
  | markup :: markups, inside, rest, others, tag => by
    rw [apartList, Bool.and_eq_true, Bool.and_eq_true] at inside
    obtain ⟨⟨first, later⟩, separate⟩ := inside
    rw [piecesList, List.append_assoc]
    refine apart_pieces markup first (apart_piecesList markups later others tag) fun prose => ?_
    cases markups with
    | nil => exact tag
    | cons next markups =>
      obtain ⟨piece, more, next_eq, same⟩ := next.exists_pieces
      rw [piecesList, next_eq]
      rintro _ ⟨⟩
      rw [same]
      simpa [prose] using separate

end

end Markup

/-! ## Reading -/

namespace Spelling

/-- The word at an index behind the first one. -/
def other (spelling : Spelling) (index : Nat) : String :=
  (spelling.others[index]?.map fun (_, word) => word.text).getD ""

theorem first_tag (spelling : Spelling) (start : Nat) :
    (spelling.shape.tag start).first = spelling.first.text := by
  simp [Shape.tag, Shape.word, shape, wordsOf_inner]

theorem second_tag (spelling : Spelling) (start : Nat) :
    (spelling.shape.tag start).second = spelling.other 0 := by
  cases found : spelling.others[0]? <;>
    simp [Shape.tag, Shape.word, shape, wordsOf_inner, other, found]

theorem third_tag (spelling : Spelling) (start : Nat) :
    (spelling.shape.tag start).third = spelling.other 1 := by
  cases found : spelling.others[1]? <;>
    simp [Shape.tag, Shape.word, shape, wordsOf_inner, other, found]

theorem span_tag (spelling : Spelling) (start : Nat) :
    (spelling.shape.tag start).span = Piece.span start (.tag spelling) := by
  rw [Shape.tag, Shape.stop_eq]
  rfl

variable {start : Nat}

theorem ofTag?_placeholder (style : Style) (name : FreeWord) (flag : Option Gap) :
    Directive.ofTag? ((placeholder style name flag).shape.tag start) =
      some (.placeholder name.text flag.isSome) := by
  have first : ((placeholder style name flag).shape.tag start).first = name.text :=
    first_tag _ start
  rw [Directive.ofTag?_placeholder (by rw [first]; exact name.free), first, second_tag]
  cases flag <;> rfl

theorem ofTag?_condition (header : Header) (flag : Option Gap) :
    Directive.ofTag? ((condition header flag).shape.tag start) =
      some (.opens (.condition header.name.text flag.isSome)) := by
  have second : ((condition header flag).shape.tag start).second = header.name.text :=
    second_tag _ start
  rw [Directive.ofTag?_condition (first_tag _ start) (by rw [second]; exact header.name.nonempty),
    second, third_tag]
  cases flag <;> rfl

theorem ofTag?_iteration (header : Header) :
    Directive.ofTag? ((iteration header).shape.tag start) =
      some (.opens (.iteration header.name.text)) := by
  have second : ((iteration header).shape.tag start).second = header.name.text :=
    second_tag _ start
  rw [Directive.ofTag?_iteration (first_tag _ start) (by rw [second]; exact header.name.nonempty),
    second]

theorem ofTag?_divider (style : Style) :
    Directive.ofTag? ((divider style).shape.tag start) = some .otherwise :=
  Directive.ofTag?_otherwise (first_tag _ start)

theorem ofTag?_ending (ending : Ending) (kind : Word) :
    Directive.ofTag? ((Spelling.ending ending kind).shape.tag start) =
      some (.ends (ending.gap.map fun _ => kind.text)) := by
  rw [Directive.ofTag?_ends (first_tag _ start), second_tag]
  obtain ⟨style, gap⟩ := ending
  cases gap with
  | none => rfl
  | some gap =>
    have said : (Spelling.ending ⟨style, some gap⟩ kind).other 0 = kind.text := rfl
    rw [said, nonempty?_of_ne kind.nonempty]
    rfl

end Spelling

namespace Frame

theorem close_condition (name : String) (recursive : Bool) (tag : Tag) (yes : List Block) :
    ((ofTag (.condition name recursive) tag).extend yes.reverse).close =
      .condition name recursive yes [] tag.span := by
  simp [ofTag, extend, close]

/-- A condition behind its `else`, with the blocks in front of it. -/
def divided (name : String) (recursive : Bool) (tag : Tag) (yes : List Block) : Frame :=
  ⟨.condition name recursive, tag.text, tag.span, some yes.reverse, []⟩

theorem otherwise?_condition (name : String) (recursive : Bool) (tag : Tag) (yes : List Block) :
    ((ofTag (.condition name recursive) tag).extend yes.reverse).otherwise? =
      some (divided name recursive tag yes) := by
  simp [ofTag, extend, otherwise?, divided]

theorem close_choice (name : String) (recursive : Bool) (tag : Tag) (yes no : List Block) :
    ((divided name recursive tag yes).extend no.reverse).close =
      .condition name recursive yes no tag.span := by
  simp [divided, extend, close]

theorem close_iteration (name : String) (tag : Tag) (body : List Block) :
    ((ofTag (.iteration name) tag).extend body.reverse).close =
      .iteration name body tag.span := by
  simp [ofTag, extend, close]

end Frame

namespace Outline

variable {limit start : Nat} {outline : Outline} {frame : Frame}

/-- Reading a piece and then others. -/
theorem foldl_read_cons (piece : Piece) (pieces : List Piece) :
    (Piece.tokens start (piece :: pieces)).foldl (read limit) outline =
      (Piece.tokens (Piece.span start piece).stop pieces).foldl (read limit)
        (outline.read limit (piece.token start)) := rfl

theorem foldl_read_append (pieces more : List Piece) :
    (Piece.tokens start (pieces ++ more)).foldl (read limit) outline =
      (Piece.tokens (Piece.behind start pieces) more).foldl (read limit)
        ((Piece.tokens start pieces).foldl (read limit) outline) := by
  rw [Piece.tokens_append, List.foldl_append]

/-- An outline with one more open directive. -/
def enter (outline : Outline) (frame : Frame) : Outline :=
  { outline with frames := frame :: outline.frames }

theorem inside_enter (inside : outline.overflow = 0) : (outline.enter frame).overflow = 0 := inside

theorem addAll_enter (outline : Outline) (frame : Frame) (blocks : List Block) :
    (outline.enter frame).addAll blocks = outline.enter (frame.extend blocks.reverse) :=
  addAll_frame rfl blocks

theorem read_opening {opening : Opening} {spelling : Spelling}
    (said : Directive.ofTag? (spelling.shape.tag start) = some (.opens opening))
    (room : outline.frames.length < limit) :
    outline.read limit ((Piece.tag spelling).token start) =
      outline.enter (Frame.ofTag opening (spelling.shape.tag start)) := by
  rw [Piece.token, read, readTag, said]
  exact if_pos room

theorem read_divider {divided : Frame} (style : Style) (inside : outline.overflow = 0)
    (found : frame.otherwise? = some divided) :
    (outline.enter frame).read limit ((Piece.tag (.divider style)).token start) =
      outline.enter divided := by
  rw [Piece.token, read, readTag, Spelling.ofTag?_divider]
  simp [otherwise, enter, inside, found]

/-- An `end` closes the innermost directive if it is of that kind. -/
theorem read_ending (ending : Ending) {kind : Word} (inside : outline.overflow = 0)
    (matching : frame.opening.endedBy (some kind.text) = true) :
    (outline.enter frame).read limit ((Piece.tag (.ending ending kind)).token start) =
      outline.add frame.close := by
  have ended : frame.opening.endedBy (ending.gap.map fun _ => kind.text) = true := by
    cases ending.gap with
    | none => rfl
    | some gap => exact matching
  have within_limit : ¬ 0 < (outline.enter frame).overflow := by simp [enter, inside]
  rw [Piece.token, read, readTag, Spelling.ofTag?_ending]
  dsimp only
  rw [ends, if_neg within_limit]
  exact if_pos ended

/-- Reading a directive adds the block that it has become where it ends. -/
theorem read_enclose {opening : Opening} {spelling : Spelling}
    (said : Directive.ofTag? (spelling.shape.tag start) = some (.opens opening))
    (room : outline.frames.length < limit) (inside : outline.overflow = 0) {inner : List Piece}
    (within_directive : (Piece.tokens (Piece.span start (.tag spelling)).stop inner).foldl
      (read limit) (outline.enter (.ofTag opening (spelling.shape.tag start))) =
        outline.enter frame)
    (ending : Ending) {kind : Word} (matching : frame.opening.endedBy (some kind.text) = true) :
    (Piece.tokens start (Piece.enclose spelling inner (.ending ending kind))).foldl (read limit)
      outline = outline.add frame.close := by
  rw [Piece.enclose, foldl_read_cons, foldl_read_append, read_opening said room, within_directive]
  exact read_ending ending inside matching

/-- Reading two branches adds their blocks to a condition, each in its branch. -/
theorem read_branches {name : String} {recursive : Bool} {tag : Tag} {yes no : List Piece}
    {first second : List Block} (inside : outline.overflow = 0) (divider : Style)
    (read_yes : ∀ frame, (Piece.tokens start yes).foldl (read limit) (outline.enter frame) =
      (outline.enter frame).addAll first)
    (read_no : ∀ frame, (Piece.tokens (Piece.span (Piece.behind start yes)
      (.tag (.divider divider))).stop no).foldl (read limit) (outline.enter frame) =
        (outline.enter frame).addAll second) :
    (Piece.tokens start (yes ++ .tag (.divider divider) :: no)).foldl (read limit)
        (outline.enter (.ofTag (.condition name recursive) tag)) =
      outline.enter ((Frame.divided name recursive tag first).extend second.reverse) := by
  rw [foldl_read_append, foldl_read_cons, read_yes, addAll_enter,
    read_divider divider inside (Frame.otherwise?_condition ..), read_no, addAll_enter]

end Outline

namespace Markup

variable {limit : Nat}

/-- A directive takes one of the levels that are left. -/
theorem room_enter {outline : Outline} {frame : Frame} {height : Nat}
    (room : outline.frames.length + height + 1 ≤ limit) :
    (outline.enter frame).frames.length + height ≤ limit := by
  rw [Outline.enter, List.length_cons]
  omega

mutual

/-- Reading the source of a block adds the block. -/
theorem read_pieces : (markup : Markup) → ∀ {start : Nat} {outline : Outline},
    outline.overflow = 0 → outline.frames.length + markup.height ≤ limit →
      (Piece.tokens start markup.pieces).foldl (Outline.read limit) outline =
        outline.add (markup.block start)
  | prose _, _, _, _, _ => rfl
  | placeholder style name flag, start, outline, _, _ => by
    have braces : (style.braces == 2) = !style.wide := by
      unfold Style.braces
      split <;> simp_all
    have said : outline.readTag limit ((Spelling.placeholder style name flag).shape.tag start) =
        outline.add (.placeholder ⟨name.text, flag.isSome, style.braces == 2,
          ((Spelling.placeholder style name flag).shape.tag start).span⟩) := by
      rw [Outline.readTag, Spelling.ofTag?_placeholder]
      rfl
    rw [braces, Spelling.span_tag] at said
    exact said
  | condition header flag yes ending, start, outline, inside, room => by
    rw [height, ← Nat.add_assoc] at room
    rw [pieces, Outline.read_enclose (Spelling.ofTag?_condition header flag) (by omega) inside
      ((read_piecesList yes (Outline.inside_enter inside) (room_enter room)).trans
        (Outline.addAll_enter ..)) ending rfl, Frame.close_condition, Spelling.span_tag]
    rfl
  | choice header flag yes divider no ending, start, outline, inside, room => by
    rw [height] at room
    have room_yes : outline.frames.length + heightList yes + 1 ≤ limit := by omega
    have room_no : outline.frames.length + heightList no + 1 ≤ limit := by omega
    rw [pieces, Outline.read_enclose (Spelling.ofTag?_condition header flag) (by omega) inside
      (Outline.read_branches inside divider
        (fun _ => read_piecesList yes (Outline.inside_enter inside) (room_enter room_yes))
        (fun _ => read_piecesList no (Outline.inside_enter inside) (room_enter room_no)))
      ending rfl, Frame.close_choice, Spelling.span_tag]
    rfl
  | iteration header body ending, start, outline, inside, room => by
    rw [height, ← Nat.add_assoc] at room
    rw [pieces, Outline.read_enclose (Spelling.ofTag?_iteration header) (by omega) inside
      ((read_piecesList body (Outline.inside_enter inside) (room_enter room)).trans
        (Outline.addAll_enter ..)) ending rfl, Frame.close_iteration, Spelling.span_tag]
    rfl

theorem read_piecesList : (markups : List Markup) → ∀ {start : Nat} {outline : Outline},
    outline.overflow = 0 → outline.frames.length + heightList markups ≤ limit →
      (Piece.tokens start (piecesList markups)).foldl (Outline.read limit) outline =
        outline.addAll (blocks start markups)
  | [], _, _, _, _ => rfl
  | markup :: markups, start, outline, inside, room => by
    rw [heightList] at room
    rw [piecesList, Outline.foldl_read_append, read_pieces markup inside (by omega),
      read_piecesList markups (by rw [Outline.overflow_add]; exact inside)
        (by rw [Outline.length_frames_add]; omega)]
    rfl

end

end Markup

/-! ## Compiling -/

/-- The source of some blocks. -/
def Markup.source (markups : List Markup) : String :=
  String.ofList (Piece.writeAll (Markup.piecesList markups))

namespace Program

/-- What is written compiles to exactly the blocks that were written, each where it was written, and
nothing is noted. -/
theorem compile_source {markups : List Markup} (apart : Markup.apartList markups = true)
    (low : Markup.heightList markups ≤ maxNesting) :
    compile (Markup.source markups) =
      ⟨⟨Markup.source markups, Markup.blocks 0 markups⟩, []⟩ := by
  have pieces := Markup.apart_piecesList markups apart .nil nofun
  rw [List.append_nil] at pieces
  have tokens : Token.ofSource (Markup.source markups) =
      Piece.tokens 0 (Markup.piecesList markups) := Token.ofSource_writeAll pieces
  have read : Outline.ofTokens maxNesting (Token.ofSource (Markup.source markups)) =
      Outline.empty.addAll (Markup.blocks 0 markups) := by
    rw [tokens]
    exact Markup.read_piecesList markups rfl (by simpa [Outline.empty] using low)
  rw [compile, read, Outline.addAll_top rfl]
  simp [Outline.closed, Outline.allNotices, Outline.empty]

/-- A recursive condition with an empty second branch. -/
theorem compile_source_condition :
    let narrow : Style := ⟨false, ⟨[], rfl⟩, ⟨[], rfl⟩⟩
    let wide : Style := ⟨true, ⟨['\t'], by decide⟩, ⟨[], rfl⟩⟩
    let space : Gap := ⟨⟨[' '], by decide⟩, by decide⟩
    let markups : List Markup := [.prose ⟨"a", by decide, by decide⟩,
      .choice ⟨narrow, space, ⟨"b", by decide, by decide⟩⟩ (some space)
        [.placeholder wide ⟨⟨"c", by decide, by decide⟩, by decide⟩ none] narrow []
        ⟨narrow, some space⟩]
    Markup.source markups = "a\x7b\x7bif b /r\x7d\x7d\x7b\x7b\x7b\tc\x7d\x7d\x7d" ++
        "\x7b\x7belse\x7d\x7d\x7b\x7bend if\x7d\x7d" ∧
      compile (Markup.source markups) = ⟨⟨Markup.source markups,
        [.text "a" ⟨0, 1⟩,
          .condition "b" true [.placeholder ⟨"c", false, false, ⟨12, 20⟩⟩] [] ⟨1, 12⟩]⟩, []⟩ :=
  ⟨by decide +kernel, compile_source (by decide) (by decide)⟩

end Program

end Stencil
