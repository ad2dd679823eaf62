import Stencil.Block
import Stencil.Notice
import Stencil.Directive

/-!
# Outlines

An outline is a template that has been read up to some token: the blocks that are complete, and
the directives that are still open. Reading never fails. A tag that does not fit stays in the
template as text, and a notice says so:

* an `else` outside a condition, and an `end` that names another kind of block than the innermost
  open one;
* a directive that would be open inside `limit` others, and every `else` and `end` until as many
  `end` tags have followed as directives were opened past the limit.

A directive that is never ended is closed at the end of the template.
-/

namespace Stencil

/-- A directive that has been opened and not ended. The blocks inside are kept last first. -/
structure Frame where
  opening : Opening
  /-- The opening tag. -/
  tag : String
  span : Span
  /-- The branch before the `else` of a condition, once there has been one. -/
  thenBranch : Option (List Block)
  /-- The blocks of the part that is being read. -/
  blocks : List Block

/-- A template read up to some token. Blocks and notices are kept last first. -/
structure Outline where
  /-- The complete blocks outside all directives. -/
  top : List Block
  /-- The open directives, innermost first. -/
  frames : List Frame
  /-- How many directives have been opened past the limit and not ended. An opening tag has eight
  bytes or more, so a signed count of 32 bits holds this number for all sources below 16 GiB. -/
  overflow : Nat
  notices : List Notice

namespace Frame

def ofTag (opening : Opening) (tag : Tag) : Frame :=
  ⟨opening, tag.text, tag.span, none, []⟩

def extend (frame : Frame) (blocks : List Block) : Frame :=
  { frame with blocks := blocks ++ frame.blocks }

/-- The block of a directive that ends here. -/
def close (frame : Frame) : Block :=
  match frame.opening, frame.thenBranch with
  | .condition name recursive, none =>
    .condition name recursive frame.blocks.reverse [] frame.span
  | .condition name recursive, some yes =>
    .condition name recursive yes.reverse frame.blocks.reverse frame.span
  | .iteration name, _ => .iteration name frame.blocks.reverse frame.span

/-- The frame behind an `else`, if it is a condition. A second `else` changes nothing. -/
def otherwise? (frame : Frame) : Option Frame :=
  match frame.opening, frame.thenBranch with
  | .condition .., none => some { frame with thenBranch := some frame.blocks, blocks := [] }
  | .condition .., some _ => some frame
  | .iteration _, _ => none

end Frame

namespace Outline

def empty : Outline := ⟨[], [], 0, []⟩

def note (outline : Outline) (notice : Notice) : Outline :=
  { outline with notices := notice :: outline.notices }

/-- An outline with one more block, in the innermost open directive. -/
def add (outline : Outline) (block : Block) : Outline :=
  match outline.frames with
  | [] => { outline with top := block :: outline.top }
  | frame :: frames => { outline with frames := frame.extend [block] :: frames }

/-- Keeps a tag as text. -/
def keep (outline : Outline) (tag : Tag) : Outline :=
  outline.add (.text tag.text tag.span)

/-- Keeps a tag as text because it has nothing to belong to. -/
def reject (outline : Outline) (tag : Tag) : Outline :=
  (outline.note (.unexpected tag.text)).keep tag

/-- Opens a directive, or keeps it as text if `limit` others are open. Only the first directive
past the limit is noted until all of those are ended. -/
def opens (limit : Nat) (outline : Outline) (opening : Opening) (tag : Tag) : Outline :=
  if outline.frames.length < limit then
    { outline with frames := Frame.ofTag opening tag :: outline.frames }
  else
    let noted :=
      if outline.overflow = 0 then outline.note (.nestedTooDeep limit tag.text) else outline
    { noted with overflow := outline.overflow + 1 }.keep tag

/-- Reads an `else`. Past the limit only the number of open directives is known, so there it stays
in the text. -/
def otherwise (outline : Outline) (tag : Tag) : Outline :=
  if 0 < outline.overflow then outline.keep tag
  else
    match outline.frames with
    | [] => outline.reject tag
    | frame :: frames =>
      match frame.otherwise? with
      | some divided => { outline with frames := divided :: frames }
      | none => outline.reject tag

def ends (outline : Outline) (kind : Option String) (tag : Tag) : Outline :=
  if 0 < outline.overflow then { outline with overflow := outline.overflow - 1 }.keep tag
  else
    match outline.frames with
    | [] => outline.reject tag
    | frame :: frames =>
      if frame.opening.endedBy kind then { outline with frames }.add frame.close
      else outline.reject tag

def readTag (limit : Nat) (outline : Outline) (tag : Tag) : Outline :=
  match Directive.ofTag? tag with
  | none => outline.note (.nameless tag.text)
  | some (.opens opening) => outline.opens limit opening tag
  | some .otherwise => outline.otherwise tag
  | some (.ends kind) => outline.ends kind tag
  | some (.placeholder name recursive) =>
    outline.add (.placeholder ⟨name, recursive, tag.braces == 2, tag.span⟩)

def read (limit : Nat) (outline : Outline) : Token → Outline
  | .raw text span rejected =>
    ((rejected.map Notice.unbalanced).foldl note outline).add (.text text span)
  | .tag tag => outline.readTag limit tag

/-- Closes the open directives, innermost first. -/
def closed (outline : Outline) : List Block :=
  let inner := outline.frames.foldl (fun inner frame => [(frame.extend inner).close]) []
  (inner ++ outline.top).reverse

/-- Everything noted, with the directives that were never ended. -/
def allNotices (outline : Outline) : List Notice :=
  let missing := match outline.frames with
    | [] => []
    | frames => [Notice.missingEnd (frames.reverse.map Frame.tag)]
  (missing ++ outline.notices).reverse

def ofTokens (limit : Nat) (tokens : List Token) : Outline :=
  tokens.foldl (read limit) empty

end Outline

/-! ## Compiling -/

/-- The number of directives that may be open at once. -/
def maxNesting : Nat := 32

/-- The template with a source, with notices of its mistakes. -/
def Program.compile (source : String) : Noted Program :=
  let outline := Outline.ofTokens maxNesting (Token.ofSource source)
  ⟨⟨source, outline.closed⟩, outline.allNotices⟩

end Stencil
