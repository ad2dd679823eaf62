import Stencil.Proofs.Outline.Account
import Stencil.Proofs.Outline.Flatten
import Stencil.Proofs.Token.Written

/-!
# Leaves that are written again

Text without braces, and placeholders as they are written again, one behind the other. Compiling
what is written finds each placeholder again, and joins the text between them.

1. `Placeholder.Legible.leads`: a placeholder that is written again leads as a tag with its name.
2. `Token.ofSource_sourceOf`: what is written is cut at the placeholders, and nowhere else.
3. `Program.blocks_compile_sourceOf`: so it compiles to its placeholders, with the text between them
   joined.
4. `Program.legible_of_mem_compile`: a compiled placeholder can be written again, unless it is
   recursive or its name begins with a brace.
-/

namespace Stencil

open Text

/-! ## Placeholders -/

/-- A placeholder with a name that a tag can have as its first word. -/
structure Placeholder.Named (p : Placeholder) : Prop where
  free : p.name ∉ keywords
  solid : ∀ c ∈ p.name.toList, isWordChar c = true

/-- A placeholder that can be written again. -/
structure Placeholder.Legible (p : Placeholder) : Prop where
  once : p.recursive = false
  free : p.name ∉ keywords
  solid : ∀ c ∈ p.name.toList, isWordChar c = true
  begins : ∀ c ∈ p.name.toList.head?, c ≠ '\x7b'

namespace Placeholder

def braces (p : Placeholder) : Nat := if p.escape then 2 else 3

def shape (p : Placeholder) : Shape := ⟨p.braces, p.name.toList, p.braces⟩

theorem toList_toSource (p : Placeholder) : p.toSource.toList = p.shape.text := by
  unfold toSource shape braces Shape.text
  split <;> simp [List.replicate_succ]

namespace Named

variable {p : Placeholder} (named : p.Named)
include named

theorem ne_of_mem {c : Char} (mem : c ∈ p.name.toList) : c ≠ '\x7d' ∧ isBlank c = false := by
  simpa [isWordChar] using named.solid c mem

/-- The name is the only word between the braces. There is none if the name is empty. -/
theorem wordsOf_name :
    wordsOf p.name.toList = [p.name.toList].filter fun word => !word.isEmpty := by
  rw [wordsOf, List.splitOnP_eq_singleton fun c mem => (named.ne_of_mem mem).2]

theorem length_wordsOf_le : (wordsOf p.name.toList).length ≤ 1 := by
  rw [named.wordsOf_name]
  exact List.length_filter_le _ _

/-- The first word is the name, even an empty one, and there is no second word. -/
theorem word_shape (n : Nat) : p.shape.word n = [p.name.toList].getD n [] := by
  have same : wordsOf p.shape.inner = _ := named.wordsOf_name
  rw [Shape.word, same]
  cases p.name.toList <;> cases n <;> rfl

theorem first_tag (start : Nat) : (p.shape.tag start).first = p.name := by
  rw [Shape.tag, named.word_shape 0]
  exact String.ofList_toList

theorem second_tag (start : Nat) : (p.shape.tag start).second = "" := by
  rw [Shape.tag, named.word_shape 1]
  rfl

/-- A placeholder that is written again leads the text, unless a closing brace follows. Only behind
two braces the name must not begin with another one. -/
theorem leads (begins : p.escape = true → p.name.toList.head? ≠ some '\x7b') {rest : List Char}
    (apart : ∀ c ∈ rest.head?, c ≠ '\x7d') : p.shape.Leads (p.shape.text ++ rest) := by
  have unclosed : '\x7d' ∉ p.name.toList := fun mem => (named.ne_of_mem mem).1 rfl
  have few : (wordsOf p.name.toList).length ≤ 3 :=
    Nat.le_trans named.length_wordsOf_le (by decide)
  by_cases escape : p.escape = true
  · have two : p.braces = 2 := if_pos escape
    have starts : ∀ c ∈ p.name.toList.head?, c ≠ '\x7b' := by
      rintro c first rfl
      exact begins escape first
    exact Shape.leads_text two two (Nat.zero_le 1) unclosed starts few apart
  · have three : p.braces = 3 := if_neg escape
    rw [shape, three]
    exact Shape.leads_wide (Nat.le_succ 2) (Nat.le_refl 3) unclosed few apart

end Named

theorem Legible.named {p : Placeholder} (legible : p.Legible) : p.Named :=
  ⟨legible.free, legible.solid⟩

theorem Legible.leads {p : Placeholder} (legible : p.Legible) {rest : List Char}
    (apart : ∀ c ∈ rest.head?, c ≠ '\x7d') : p.shape.Leads (p.shape.text ++ rest) :=
  legible.named.leads (fun _ first => legible.begins _ first rfl) apart

end Placeholder

/-! ## Leaves -/

namespace Block

/-- A leaf that can be written again: text without braces, or a placeholder. -/
def Legible : Block → Prop
  | .text content _ => ∀ c ∈ content.toList, isBrace c = false
  | .placeholder p => p.Legible
  | .condition .. | .iteration .. => False

/-- A leaf as it is written again. -/
def source : Block → String
  | .text content _ => content
  | .placeholder p => p.toSource
  | .condition .. | .iteration .. => ""

def sourceOf (blocks : List Block) : String := String.join (blocks.map source)

theorem toList_sourceOf_cons (block : Block) (blocks : List Block) :
    (sourceOf (block :: blocks)).toList = block.source.toList ++ (sourceOf blocks).toList := by
  rw [sourceOf, List.map_cons, String.join_cons, String.toList_append]
  rfl

/-- What is written does not begin with a closing brace. -/
theorem ne_of_mem_head?_sourceOf {blocks : List Block}
    (legible : ∀ block ∈ blocks, block.Legible) {c : Char}
    (first : c ∈ (sourceOf blocks).toList.head?) : c ≠ '\x7d' := by
  induction blocks with
  | nil => cases first
  | cons block blocks ih =>
    obtain ⟨here, later⟩ := List.forall_mem_cons.mp legible
    rw [toList_sourceOf_cons] at first
    cases block with
    | text content span =>
      cases text : content.toList with
      | nil =>
        have empty : (Block.text content span).source.toList = [] := text
        rw [empty] at first
        exact ih later first
      | cons d others =>
        have begins : (Block.text content span).source.toList = d :: others := text
        rw [begins] at first
        obtain rfl : d = c := Option.some.inj first
        rintro rfl
        cases here _ (by rw [text]; exact List.mem_cons_self)
    | placeholder p =>
      have written : (Block.placeholder p).source.toList = p.shape.text := p.toList_toSource
      rw [written, Shape.text, Placeholder.shape, Placeholder.braces] at first
      rintro rfl
      split at first <;> cases first
    | condition | iteration => cases here

end Block

/-! ## Tokens -/

namespace Token

/-- The tokens of leaves that are written again from a position on, behind text that is in no token
yet. -/
def joined (start : Nat) (pending : List Char) : List Block → List Token
  | [] => ofRaw start pending []
  | .placeholder p :: blocks =>
    let tagStart := start + byteLength pending
    ofRaw start pending [] ++ .tag (p.shape.tag tagStart) ::
      joined (p.shape.stop tagStart) [] blocks
  | block :: blocks => joined start (pending ++ block.source.toList) blocks

theorem scan_sourceOf {blocks : List Block} (legible : ∀ block ∈ blocks, block.Legible)
    (start : Nat) (pending : List Char) :
    scan start pending [] (Block.sourceOf blocks).toList = joined start pending blocks := by
  induction blocks generalizing start pending with
  | nil =>
    have missing : Candidate.find? (Block.sourceOf []).toList = none := rfl
    rw [scan_of_none missing, joined]
    exact congrArg (ofRaw start · []) (List.append_nil pending)
  | cons block blocks ih =>
    obtain ⟨here, later⟩ := List.forall_mem_cons.mp legible
    rw [Block.toList_sourceOf_cons]
    cases block with
    | text content span =>
      have free : ∀ c ∈ (Block.text content span).source.toList, isBrace c = false := here
      rw [scan_append free, ih later]
      rfl
    | placeholder p =>
      have written : (Block.placeholder p).source.toList = p.shape.text := p.toList_toSource
      have leads := here.leads fun c => Block.ne_of_mem_head?_sourceOf later
      rw [written, scan_of_leads leads rfl, ih later, joined]
    | condition | iteration => cases here

/-- What is written is cut at the placeholders, and nowhere else. -/
theorem ofSource_sourceOf {blocks : List Block} (legible : ∀ block ∈ blocks, block.Legible) :
    ofSource (Block.sourceOf blocks) = joined 0 [] blocks :=
  scan_sourceOf legible 0 []

theorem tag_not_mem_ofRaw {start : Nat} {text : List Char} {rejected : List String} {tag : Tag} :
    .tag tag ∉ ofRaw start text rejected := by
  intro mem
  unfold ofRaw at mem
  split at mem
  · cases mem
  · cases List.mem_singleton.mp mem

/-- The block of a token in a template without keywords. -/
def leaf : Token → Block
  | .raw text span _ => .text text span
  | .tag read => .placeholder ⟨read.first, read.second == recursionFlag, read.braces == 2, read.span⟩

/-- The tag of a placeholder says the placeholder, where the tag stands, without its recursion
flag. -/
theorem leaf_tag_of_named {p : Placeholder} (named : p.Named) (start : Nat) :
    (Token.tag (p.shape.tag start)).leaf =
      .placeholder ⟨p.name, false, p.escape, (p.shape.tag start).span⟩ := by
  have escape : (p.braces == 2) = p.escape := by
    unfold Placeholder.braces
    cases p.escape <;> rfl
  have flag : ((p.shape.tag start).second == recursionFlag) = false := by
    rw [named.second_tag]
    rfl
  rw [leaf, flag, named.first_tag]
  exact congrArg (fun escape => Block.placeholder ⟨p.name, false, escape, _⟩) escape

theorem leaf_tag {p : Placeholder} (legible : p.Legible) (start : Nat) :
    (Token.tag (p.shape.tag start)).leaf =
      .placeholder { p with span := (p.shape.tag start).span } := by
  rw [leaf_tag_of_named legible.named, ← legible.once]

theorem exists_of_tag_mem_joined {blocks : List Block} {start : Nat} {pending : List Char}
    {tag : Tag} (mem : .tag tag ∈ joined start pending blocks) :
    ∃ p tagStart, .placeholder p ∈ blocks ∧ tag = p.shape.tag tagStart := by
  induction blocks generalizing start pending with
  | nil => exact absurd mem tag_not_mem_ofRaw
  | cons block blocks ih =>
    have behind : ∀ {start pending}, .tag tag ∈ joined start pending blocks →
        ∃ p tagStart, .placeholder p ∈ block :: blocks ∧ tag = p.shape.tag tagStart := by
      intro start pending mem
      obtain ⟨p, tagStart, among, same⟩ := ih mem
      exact ⟨p, tagStart, List.mem_cons_of_mem _ among, same⟩
    cases block with
    | placeholder p =>
      rw [joined] at mem
      rcases List.mem_append.mp mem with raw | mem
      · exact absurd raw tag_not_mem_ofRaw
      · rcases List.mem_cons.mp mem with here | mem
        · exact ⟨p, _, List.mem_cons_self, Token.tag.inj here⟩
        · exact behind mem
    | text | condition | iteration => exact behind mem

/-- The first word of a tag holds neither white space nor a closing brace. -/
theorem isWordChar_of_mem_ofSource {source : String} {tag : Tag} (mem : .tag tag ∈ ofSource source)
    {c : Char} (within : c ∈ tag.first.toList) : isWordChar c = true := by
  suffices ∀ {emitted position rejected tokens},
      Scans source.toList emitted position rejected tokens → .tag tag ∈ tokens →
        ∃ shape start, tag = Shape.tag shape start ∧ '\x7d' ∉ shape.inner by
    obtain ⟨shape, start, rfl, unclosed⟩ :=
      this (scans_scan 0 [] [] source.toList [] rfl rfl) mem
    have first : (shape.tag start).first.toList = (cutWord shape.inner).1 := by
      rw [Shape.tag, String.toList_ofList]
      exact (fst_cutWord_afterWords unclosed 0).symm
    rw [first] at within
    exact List.all_eq_true.mp List.all_takeWhile c within
  intro emitted position rejected tokens scans mem
  induction scans with
  | ends none rest => exact absurd mem rest.tag_not_mem
  | @balanced emitted position start rejected shape front tokens first same before later ih =>
    rcases List.mem_append.mp mem with raw | mem
    · exact absurd raw before.tag_not_mem
    · rcases List.mem_cons.mp mem with here | mem
      · obtain ⟨text, _, leads⟩ := first.here
        exact ⟨shape, start, Token.tag.inj here, leads.first⟩
      · exact ih mem
  | unbalanced first different later ih => exact ih mem

end Token

/-! ## Compiling -/

namespace Outline

theorem foldl_note_eq (outline : Outline) (notices : List Notice) :
    ∃ more, notices.foldl note outline = { outline with notices := more } := by
  induction notices generalizing outline with
  | nil => exact ⟨outline.notices, rfl⟩
  | cons notice notices ih => exact ih (outline.note notice)

/-- Where no tag begins with a keyword, each token adds its own block. -/
theorem foldl_read_of_free {limit : Nat} {outline : Outline} (none_open : outline.frames = [])
    {tokens : List Token} (free : ∀ tag, .tag tag ∈ tokens → tag.first ∉ keywords) :
    (tokens.foldl (read limit) outline).frames = [] ∧
      (tokens.foldl (read limit) outline).top =
        (tokens.map Token.leaf).reverse ++ outline.top := by
  induction tokens generalizing outline with
  | nil => exact ⟨none_open, rfl⟩
  | cons token tokens ih =>
    have added : (outline.read limit token).frames = [] ∧
        (outline.read limit token).top = token.leaf :: outline.top := by
      cases token with
      | raw text span rejected =>
        obtain ⟨more, noted⟩ := outline.foldl_note_eq (rejected.map Notice.unbalanced)
        simp only [read, noted, add, none_open, Token.leaf, and_self]
      | tag tag =>
        rw [read, readTag, Directive.ofTag?_placeholder (free tag List.mem_cons_self)]
        simp only [add, none_open, Token.leaf, and_self]
    obtain ⟨frames, top⟩ := ih added.1 fun tag mem => free tag (List.mem_cons_of_mem _ mem)
    refine ⟨frames, ?_⟩
    rw [List.foldl_cons, top, added.2]
    simp

end Outline

namespace Program

/-- A template without keywords compiles token by token. -/
theorem blocks_compile_of_free {source : String}
    (free : ∀ tag, .tag tag ∈ Token.ofSource source → tag.first ∉ keywords) :
    (compile source).value.blocks = (Token.ofSource source).map Token.leaf := by
  have none_open : Outline.empty.frames = [] := rfl
  obtain ⟨frames, top⟩ := Outline.foldl_read_of_free none_open free
  show (Outline.ofTokens maxNesting (Token.ofSource source)).closed = _
  rw [Outline.closed, Outline.ofTokens, frames, top]
  simp [Outline.empty]

/-- What is written compiles to its placeholders, with the text between them joined. -/
theorem blocks_compile_sourceOf {blocks : List Block} (legible : ∀ block ∈ blocks, block.Legible) :
    (compile (Block.sourceOf blocks)).value.blocks =
      (Token.joined 0 [] blocks).map Token.leaf := by
  have tokens := Token.ofSource_sourceOf legible
  rw [blocks_compile_of_free, tokens]
  intro tag mem
  rw [tokens] at mem
  obtain ⟨p, start, among, rfl⟩ := Token.exists_of_tag_mem_joined mem
  have named : p.Named := (legible _ among : p.Legible).named
  rw [named.first_tag]
  exact named.free

/-- A placeholder anywhere in a compiled template has the first word of a tag as its name. -/
theorem named_of_mem_compile {source : String} {p : Placeholder}
    (mem : .placeholder p ∈ Block.headsList (compile source).value.blocks) : p.Named := by
  obtain ⟨tag, tag_mem, _, said⟩ := stands_compile mem
  have said : Directive.ofTag? tag = some (.placeholder p.name p.recursive) := by
    unfold Tag.head? at said
    split at said
    · next opening _ => cases opening <;> cases said
    · next placed => cases said; exact placed
    · cases said
  obtain ⟨free, same⟩ := Directive.words_of_placeholder said
  refine ⟨by rwa [same], fun c within => ?_⟩
  rw [same] at within
  exact Token.isWordChar_of_mem_ofSource tag_mem within

/-- A compiled placeholder can be written again, unless it is recursive or its name begins with a
brace. -/
theorem legible_of_mem_compile {source : String} {p : Placeholder}
    (mem : .placeholder p ∈ (compile source).value.blocks) (once : p.recursive = false)
    (begins : ∀ c ∈ p.name.toList.head?, c ≠ '\x7b') : p.Legible := by
  have among := Block.heads_subset_headsList mem List.mem_cons_self
  obtain ⟨free, solid⟩ := named_of_mem_compile among
  exact ⟨once, free, solid, begins⟩

end Program

end Stencil
