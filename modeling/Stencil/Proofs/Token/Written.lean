import Mathlib.Data.List.Chain
import Stencil.Proofs.Token.Grammar

/-!
# Pieces that are written out

Text without braces, and tags with any white space around their words, one piece behind the other.

1. `Shape.leads_text`, `Spelling.leads`: a tag that is written out has the shape of a tag, unless a
   closing brace follows.
2. `Token.ofSource_writeAll`: cutting what is written gives one token for each piece.
-/

namespace Stencil

open Text

def isBrace (c : Char) : Bool := c == '\x7b' || c == '\x7d'

/-- White space, possibly none. -/
structure Blank where
  text : List Char
  blank : text.all isBlank = true

structure Gap extends Blank where
  nonempty : text ≠ []

/-- A word as it can stand in a tag. -/
structure Word where
  text : String
  nonempty : text ≠ ""
  solid : text.toList.all (fun c => !isBlank c && !isBrace c) = true

structure Prose where
  text : String
  nonempty : text ≠ ""
  braceFree : text.toList.all (!isBrace ·) = true

/-- How a tag is written: with two braces on each side or with three, and with white space in front
of its words and behind them. -/
structure Style where
  wide : Bool
  before : Blank
  after : Blank

/-- A tag that is written out, with its words and the white space between them. -/
structure Spelling where
  style : Style
  first : Word
  others : List (Gap × Word)
  few : others.length ≤ 2

/-- A piece of a template that is written out. -/
inductive Piece where
  | prose (written : Prose)
  | tag (spelling : Spelling)

/-! ## Tags -/

def Style.braces (style : Style) : Nat := if style.wide then 3 else 2

theorem Style.exists_braces (style : Style) :
    ∃ more, style.braces = more + 2 ∧ more + 2 ≤ 3 := by
  unfold braces
  split
  · exact ⟨1, rfl, Nat.le_refl 3⟩
  · exact ⟨0, rfl, Nat.le_succ 2⟩

namespace Spelling

/-- Words with white space in front of each. -/
def spread (words : List (Gap × Word)) : List Char :=
  words.flatMap fun (gap, word) => gap.text ++ word.text.toList

def inner (spelling : Spelling) : List Char :=
  spelling.style.before.text ++
    (spelling.first.text.toList ++ (spread spelling.others ++ spelling.style.after.text))

def shape (spelling : Spelling) : Shape :=
  ⟨spelling.style.braces, spelling.inner, spelling.style.braces⟩

end Spelling

theorem isBrace_of_isBlank {c : Char} (blank : isBlank c = true) : isBrace c = false := by
  rw [isBrace, Bool.or_eq_false_iff, beq_eq_false_iff_ne, beq_eq_false_iff_ne]
  constructor <;> rintro rfl
  · rw [isBlank_brace.1] at blank
    cases blank
  · rw [isBlank_brace.2] at blank
    cases blank

theorem wordsOf_blank_append {blank : List Char} (all : ∀ c ∈ blank, isBlank c = true)
    (text : List Char) : wordsOf (blank ++ text) = wordsOf text := by
  induction blank with
  | nil => rfl
  | cons c blank ih =>
    rw [List.cons_append, wordsOf_cons_of_blank (all c List.mem_cons_self)]
    exact ih fun d mem => all d (List.mem_cons_of_mem c mem)

theorem Blank.isBlank_of_mem (blank : Blank) : ∀ c ∈ blank.text, isBlank c = true :=
  List.all_eq_true.mp blank.blank

theorem Prose.isBrace_of_mem (prose : Prose) : ∀ c ∈ prose.text.toList, isBrace c = false := by
  simpa using prose.braceFree

namespace Word

theorem of_mem (word : Word) {c : Char} (mem : c ∈ word.text.toList) :
    isBlank c = false ∧ isBrace c = false := by
  simpa using List.all_eq_true.mp word.solid c mem

theorem toList_ne_nil (word : Word) : word.text.toList ≠ [] := by
  simpa using word.nonempty

theorem wordsOf_append (word : Word) {rest : List Char}
    (ended : ∀ c ∈ rest.head?, isBlank c = true) :
    wordsOf (word.text.toList ++ rest) = word.text.toList :: wordsOf rest :=
  Stencil.wordsOf_append word.toList_ne_nil (fun _ mem => (word.of_mem mem).1) ended

end Word

namespace Spelling

variable {words : List (Gap × Word)} {rest : List Char}

/-- White space comes behind each word. -/
theorem isBlank_of_mem_head? (blank : ∀ c ∈ rest, isBlank c = true) {c : Char}
    (mem : c ∈ (spread words ++ rest).head?) : isBlank c = true := by
  cases words with
  | nil => exact blank c (List.mem_of_mem_head? mem)
  | cons pair words =>
    obtain ⟨gap, word⟩ := pair
    obtain ⟨d, others, text⟩ := List.exists_cons_of_ne_nil gap.nonempty
    have first : c = d := by simpa [spread, text, eq_comm] using mem
    rw [first]
    exact gap.isBlank_of_mem d (by rw [text]; exact List.mem_cons_self)

theorem wordsOf_spread (blank : ∀ c ∈ rest, isBlank c = true) :
    wordsOf (spread words ++ rest) = words.map fun (_, word) => word.text.toList := by
  induction words with
  | nil =>
    have none := wordsOf_blank_append blank []
    rwa [List.append_nil] at none
  | cons pair words ih =>
    obtain ⟨gap, word⟩ := pair
    have ended : ∀ c ∈ (spread words ++ rest).head?, isBlank c = true :=
      fun c mem => isBlank_of_mem_head? blank mem
    have split : spread ((gap, word) :: words) ++ rest =
        gap.text ++ (word.text.toList ++ (spread words ++ rest)) := by
      simp [spread]
    rw [split, wordsOf_blank_append gap.isBlank_of_mem, word.wordsOf_append ended, ih,
      List.map_cons]

theorem wordsOf_inner (spelling : Spelling) : wordsOf spelling.inner =
    spelling.first.text.toList :: spelling.others.map fun (_, word) => word.text.toList := by
  have blank := spelling.style.after.isBlank_of_mem
  rw [inner, wordsOf_blank_append spelling.style.before.isBlank_of_mem,
    spelling.first.wordsOf_append fun c mem => isBlank_of_mem_head? blank mem, wordsOf_spread blank]

theorem isBrace_of_mem_inner {spelling : Spelling} {c : Char} (mem : c ∈ spelling.inner) :
    isBrace c = false := by
  simp only [inner, spread, List.mem_append, List.mem_flatMap] at mem
  rcases mem with before | first | ⟨⟨gap, word⟩, _, within⟩ | after
  · exact isBrace_of_isBlank (spelling.style.before.isBlank_of_mem c before)
  · exact (spelling.first.of_mem first).2
  · rcases within with space | letter
    · exact isBrace_of_isBlank (gap.isBlank_of_mem c space)
    · exact (word.of_mem letter).2
  · exact isBrace_of_isBlank (spelling.style.after.isBlank_of_mem c after)

theorem ne_of_mem_inner {spelling : Spelling} {c : Char} (mem : c ∈ spelling.inner) :
    c ≠ '\x7b' ∧ c ≠ '\x7d' := by
  have other := isBrace_of_mem_inner mem
  simpa [isBrace] using other

end Spelling

/-- A tag leads the text if no brace follows its opening or its closing ones. Behind three opening
braces more of them may follow. -/
theorem Shape.leads_of_width {shape : Shape} {rest : List Char} (several : 2 ≤ shape.opening)
    (width : shape.opening = min (runLength '\x7b' (shape.text ++ rest)) 3)
    (least : 2 ≤ shape.closing) (most : shape.closing ≤ 3) (first : '\x7d' ∉ shape.inner)
    (few : (wordsOf shape.inner).length ≤ 3) (apart : ∀ c ∈ rest.head?, c ≠ '\x7d') :
    shape.Leads (shape.text ++ rest) := by
  obtain ⟨opening, inner, closing⟩ := shape
  dsimp only at several width least most first few
  obtain ⟨more, rfl⟩ := Nat.exists_eq_add_of_le' least
  have closed : runLength '\x7d' (List.replicate (more + 2) '\x7d' ++ rest) = more + 2 :=
    runLength_replicate _ _ apart
  refine ⟨?_, width, ⟨List.replicate more '\x7d' ++ rest, ?_, ?_⟩, first, few⟩
  · rw [width] at several
    exact Nat.le_trans several (Nat.min_le_left _ _)
  · simp [Shape.text, List.replicate_succ]
  · show more + 2 = min (runLength '\x7d' (List.replicate (more + 2) '\x7d' ++ rest)) 3
    rw [closed, Nat.min_eq_left most]

/-- A tag with as many closing braces as opening ones leads the text, unless a closing brace
follows. -/
theorem Shape.leads_text {shape : Shape} {more : Nat} (opening : shape.opening = more + 2)
    (balanced : shape.closing = more + 2) (count : more ≤ 1) (first : '\x7d' ∉ shape.inner)
    (begins : ∀ c ∈ shape.inner.head?, c ≠ '\x7b') (few : (wordsOf shape.inner).length ≤ 3)
    {rest : List Char} (apart : ∀ c ∈ rest.head?, c ≠ '\x7d') :
    shape.Leads (shape.text ++ rest) := by
  have inside : ∀ c ∈ (shape.inner ++ (List.replicate shape.closing '\x7d' ++ rest)).head?,
      c ≠ '\x7b' := by
    intro c leading
    cases inner : shape.inner with
    | nil =>
      rintro rfl
      rw [inner, balanced] at leading
      cases leading
    | cons d others =>
      rw [inner] at leading begins
      exact begins c leading
  have opened : runLength '\x7b' (shape.text ++ rest) = shape.opening := by
    rw [Shape.text, List.append_assoc, List.append_assoc]
    exact runLength_replicate _ _ inside
  exact Shape.leads_of_width (by omega) (by rw [opened]; omega) (by omega) (by omega) first few
    apart

/-- Three opening braces are no more than three, even if another one follows them. -/
theorem Shape.leads_wide {inner rest : List Char} {closing : Nat} (least : 2 ≤ closing)
    (most : closing ≤ 3) (first : '\x7d' ∉ inner) (few : (wordsOf inner).length ≤ 3)
    (apart : ∀ c ∈ rest.head?, c ≠ '\x7d') :
    Shape.Leads ⟨3, inner, closing⟩ (Shape.text ⟨3, inner, closing⟩ ++ rest) := by
  have opened : 3 ≤ runLength '\x7b' (Shape.text ⟨3, inner, closing⟩ ++ rest) := by
    rw [Shape.text, List.append_assoc, List.append_assoc, runLength_replicate_append]
    exact Nat.le_add_right 3 _
  exact Shape.leads_of_width (Nat.le_succ 2) (Nat.min_eq_right opened).symm least most first few
    apart

namespace Spelling

/-- A tag that is written out leads the text, unless a closing brace follows. -/
theorem leads (spelling : Spelling) {rest : List Char} (apart : ∀ c ∈ rest.head?, c ≠ '\x7d') :
    spelling.shape.Leads (spelling.shape.text ++ rest) := by
  have few : (wordsOf spelling.inner).length ≤ 3 := by
    rw [spelling.wordsOf_inner, List.length_cons, List.length_map]
    exact Nat.succ_le_succ spelling.few
  obtain ⟨more, braces_eq, count⟩ := spelling.style.exists_braces
  refine Shape.leads_text braces_eq braces_eq (Nat.le_of_add_le_add_right count)
    (fun mem => (ne_of_mem_inner mem).2 rfl) (fun c leading => ?_) few apart
  exact (ne_of_mem_inner (List.mem_of_mem_head? leading)).1

end Spelling

/-! ## Pieces -/

namespace Piece

def isProse : Piece → Bool
  | prose _ => true
  | tag _ => false

def write : Piece → List Char
  | prose written => written.text.toList
  | tag spelling => spelling.shape.text

def token (start : Nat) : Piece → Token
  | prose written => .raw written.text ⟨start, start + byteLength written.text.toList⟩ []
  | tag spelling => .tag (spelling.shape.tag start)

def writeAll (pieces : List Piece) : List Char := pieces.flatMap write

def tokens (start : Nat) : List Piece → List Token
  | [] => []
  | piece :: pieces => piece.token start :: tokens (start + byteLength piece.write) pieces

/-- No text directly behind other text. -/
def Apart (pieces : List Piece) : Prop :=
  pieces.IsChain fun first second => first.isProse = true → second.isProse = false

/-- No piece begins with a closing brace. -/
theorem ne_of_mem_head? {pieces : List Piece} {c : Char} (first : c ∈ (writeAll pieces).head?) :
    c ≠ '\x7d' := by
  cases pieces with
  | nil => cases first
  | cons piece pieces =>
    rw [writeAll, List.flatMap_cons] at first
    cases piece with
    | prose written =>
      have nonempty : written.text.toList ≠ [] := by simpa using written.nonempty
      obtain ⟨d, others, text⟩ := List.exists_cons_of_ne_nil nonempty
      have free := written.isBrace_of_mem
      rw [write, text] at first
      obtain rfl : d = c := Option.some.inj first
      rintro rfl
      cases free _ (by rw [text]; exact List.mem_cons_self)
    | tag spelling =>
      obtain ⟨more, braces_eq, _⟩ := spelling.style.exists_braces
      rw [write, Shape.text, Spelling.shape, braces_eq] at first
      rintro rfl
      cases first

end Piece

namespace Candidate

theorem find?_of_at? {text : List Char} {candidate : Candidate} (here : at? text = some candidate) :
    find? text = some ([], candidate) := by
  cases text with
  | nil => cases here
  | cons c text => rw [find?, here]

theorem at?_of_ne {c : Char} (other : c ≠ '\x7b') (text : List Char) : at? (c :: text) = none := by
  rw [at?_eq, runLength_cons, if_neg other]
  rfl

/-- No tag begins in text without opening braces. -/
theorem find?_append_of_unopened {front : List Char} (unopened : '\x7b' ∉ front)
    (rest : List Char) : find? (front ++ rest) =
      (find? rest).map fun (before, candidate) => (front ++ before, candidate) := by
  induction front with
  | nil => simp
  | cons c front ih =>
    rw [List.mem_cons, not_or] at unopened
    rw [List.cons_append, find?, at?_of_ne (Ne.symm unopened.1), ih unopened.2, Option.map_map]
    rfl

theorem find?_append {front : List Char} (free : ∀ c ∈ front, isBrace c = false)
    (rest : List Char) : find? (front ++ rest) =
      (find? rest).map fun (before, candidate) => (front ++ before, candidate) :=
  find?_append_of_unopened (fun mem => by cases free _ mem) rest

end Candidate

namespace Token

variable {start : Nat} {raw rest : List Char} {rejected : List String}

/-- Text without opening braces joins the raw text. -/
theorem scan_append_of_unopened {front : List Char} (unopened : '\x7b' ∉ front) :
    scan start raw rejected (front ++ rest) = scan start (raw ++ front) rejected rest := by
  have later := Candidate.find?_append_of_unopened unopened rest
  cases found : Candidate.find? rest with
  | none =>
    have skipped : Candidate.find? (front ++ rest) = none := by
      rw [later, found]
      rfl
    rw [scan_of_none skipped, scan_of_none found, List.append_assoc]
  | some pair =>
    obtain ⟨before, candidate⟩ := pair
    have skipped : Candidate.find? (front ++ rest) = some (front ++ before, candidate) := by
      rw [later, found]
      rfl
    rw [scan, skipped, scan, found]
    simp only [List.append_assoc]

theorem scan_append {front : List Char} (free : ∀ c ∈ front, isBrace c = false) :
    scan start raw rejected (front ++ rest) = scan start (raw ++ front) rejected rest :=
  scan_append_of_unopened fun mem => by cases free _ mem

/-- A balanced tag that leads the text is a token, and so is the raw text in front of it. -/
theorem scan_of_leads {shape : Shape} (leads : shape.Leads (shape.text ++ rest))
    (balanced : shape.opening = shape.closing) :
    scan start raw rejected (shape.text ++ rest) =
      ofRaw start raw rejected ++ .tag (shape.tag (start + byteLength raw)) ::
        scan (shape.stop (start + byteLength raw)) [] [] rest := by
  obtain ⟨behind, split, here⟩ := Candidate.at?_of_leads leads
  obtain rfl : rest = behind := List.append_cancel_left split
  have same : (shape.candidate rest).opening = (shape.candidate rest).closing := balanced
  rw [scan_of_balanced (Candidate.find?_of_at? here) same, ofCandidate_candidate, List.append_nil,
    Shape.stop_eq]
  rfl

theorem scan_tag (spelling : Spelling) (apart : ∀ c ∈ rest.head?, c ≠ '\x7d') :
    scan start raw rejected (spelling.shape.text ++ rest) =
      ofRaw start raw rejected ++ .tag (spelling.shape.tag (start + byteLength raw)) ::
        scan (spelling.shape.stop (start + byteLength raw)) [] [] rest :=
  scan_of_leads (spelling.leads apart) rfl

theorem ofRaw_prose (start : Nat) (written : Prose) :
    ofRaw start written.text.toList [] = [(Piece.prose written).token start] := by
  have nonempty : written.text.toList.isEmpty = false := by simpa using written.nonempty
  rw [ofRaw, nonempty, String.ofList_toList]
  rfl

/-- Pieces are cut where they were put together, even if the text in front of them is not in a token
yet. -/
theorem scan_writeAll {pieces : List Piece} (apart : Piece.Apart pieces) (start : Nat)
    (raw : List Char) (after_tag : raw = [] ∨ ∀ piece ∈ pieces.head?, piece.isProse = false) :
    scan start raw [] (Piece.writeAll pieces) =
      ofRaw start raw [] ++ Piece.tokens (start + byteLength raw) pieces := by
  induction pieces generalizing start raw with
  | nil =>
    rw [Piece.writeAll, List.flatMap_nil, scan]
    simp [Candidate.find?, Piece.tokens]
  | cons piece pieces ih =>
    obtain ⟨first, others⟩ := List.isChain_cons.mp apart
    rw [Piece.writeAll, List.flatMap_cons, ← Piece.writeAll]
    cases piece with
    | prose written =>
      obtain rfl : raw = [] := after_tag.resolve_right fun tag => Bool.noConfusion (tag _ rfl)
      rw [Piece.write, scan_append written.isBrace_of_mem,
        ih others _ _ (.inr fun next leads => first next leads rfl), List.nil_append, ofRaw_prose]
      rfl
    | tag spelling =>
      rw [Piece.write, scan_tag spelling fun c => Piece.ne_of_mem_head?,
        ih others _ _ (.inl rfl), Shape.stop_eq]
      rfl

/-- Cutting what is written gives one token for each piece. -/
theorem ofSource_writeAll {pieces : List Piece} (apart : Piece.Apart pieces) :
    ofSource (String.ofList (Piece.writeAll pieces)) = Piece.tokens 0 pieces := by
  have all := scan_writeAll apart 0 [] (.inl rfl)
  rwa [ofSource, String.toList_ofList]

end Token

end Stencil
