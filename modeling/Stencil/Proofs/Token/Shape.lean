import Mathlib.Data.List.TakeWhile
import Stencil.Token

/-!
# The shape of a tag

What a tag looks like, said without the search that finds it: a run of opening braces, at most
three words with white space between them, and the first closing brace, which has another one
behind it.

1. `wordsOf_afterWords`: words that are cut off one by one are the words between white space.
2. `Candidate.at?_eq`: only the widest opening needs to be tried.
3. `Candidate.at?_of_leads`, `Candidate.leads_of_at?`: a candidate is read at the front of a text
   exactly where a shape leads the text.
4. `Candidate.find?_first`: the candidate that is found is the first one.
-/

namespace Stencil

open Text

/-! ## Pieces of texts -/

section Pieces

variable {p : Char → Bool} {text rest : List Char}

theorem takeWhile_append_of_stops (stops : ∀ c ∈ rest.head?, p c = false) :
    (text ++ rest).takeWhile p = text.takeWhile p := by
  induction text with
  | nil =>
    cases rest with
    | nil => rfl
    | cons c rest => simp [stops c rfl]
  | cons c text ih => simp only [List.cons_append, List.takeWhile_cons, ih]

theorem dropWhile_append_of_stops (stops : ∀ c ∈ rest.head?, p c = false) :
    (text ++ rest).dropWhile p = text.dropWhile p ++ rest := by
  induction text with
  | nil =>
    cases rest with
    | nil => rfl
    | cons c rest => simp [stops c rfl]
  | cons c text ih =>
    simp only [List.cons_append, List.dropWhile_cons, ih]
    split <;> rfl

end Pieces

/-- How often a text has a character at its front. -/
def runLength (c : Char) (text : List Char) : Nat :=
  (text.takeWhile (· == c)).length

theorem runLength_cons (c d : Char) (text : List Char) :
    runLength c (d :: text) = if d = c then runLength c text + 1 else 0 := by
  by_cases same : d = c <;> simp [runLength, same]

theorem runLength_append_of_stops {c : Char} {rest : List Char} (stops : ∀ d ∈ rest.head?, d ≠ c)
    (text : List Char) : runLength c (text ++ rest) = runLength c text := by
  rw [runLength, runLength, takeWhile_append_of_stops (by simpa using stops)]

theorem runLength_replicate_append (c : Char) (count : Nat) (rest : List Char) :
    runLength c (List.replicate count c ++ rest) = count + runLength c rest := by
  induction count with
  | zero => rw [List.replicate_zero, List.nil_append, Nat.zero_add]
  | succ count ih =>
    rw [List.replicate_succ, List.cons_append, runLength_cons, if_pos rfl, ih]
    omega

theorem runLength_replicate (c : Char) (count : Nat) {rest : List Char}
    (stops : ∀ d ∈ rest.head?, d ≠ c) : runLength c (List.replicate count c ++ rest) = count := by
  rw [runLength_append_of_stops stops, runLength]
  simp

/-- The part of a text up to its first closing brace, and the rest. -/
theorem exists_split_closing (text : List Char) :
    ∃ inner rest, text = inner ++ rest ∧ '\x7d' ∉ inner ∧ ∀ c ∈ rest.head?, c = '\x7d' := by
  refine ⟨text.takeWhile (· != '\x7d'), text.dropWhile (· != '\x7d'),
    List.takeWhile_append_dropWhile.symm, fun mem => ?_, fun c first => ?_⟩
  · simpa using List.all_eq_true.mp (List.all_takeWhile (p := (· != '\x7d')) (l := text)) _ mem
  · have stop := List.head?_dropWhile_not (· != '\x7d') text
    rw [Option.mem_def.mp first] at stop
    simpa using stop

/-! ## Words -/

def wordsOf (text : List Char) : List (List Char) :=
  (text.splitOnP isBlank).filter fun word => !word.isEmpty

theorem wordsOf_cons_of_blank {c : Char} (blank : isBlank c = true) (text : List Char) :
    wordsOf (c :: text) = wordsOf text := by
  simp [wordsOf, List.splitOnP_cons_eq_if_modifyHead, blank]

theorem wordsOf_skipBlank (text : List Char) : wordsOf (skipBlank text) = wordsOf text := by
  induction text with
  | nil => rfl
  | cons c text ih =>
    rw [skipBlank, List.dropWhile_cons]
    split
    · next blank => rw [wordsOf_cons_of_blank blank, ← ih, skipBlank]
    · rfl

/-- A word in front of white space, or at the end. -/
theorem wordsOf_append {word rest : List Char} (nonempty : word ≠ [])
    (solid : ∀ c ∈ word, isBlank c = false) (ended : ∀ c ∈ rest.head?, isBlank c = true) :
    wordsOf (word ++ rest) = word :: wordsOf rest := by
  have kept : word.isEmpty = false := by simpa using nonempty
  cases rest with
  | nil => simp [wordsOf, List.splitOnP_eq_singleton solid, kept]
  | cons c rest =>
    have blank : isBlank c = true := ended c rfl
    rw [wordsOf_cons_of_blank blank]
    simp [wordsOf, List.splitOnP_append_cons_of_forall_mem solid c blank, kept]

/-- One more solid character in front cannot make fewer words. -/
theorem length_wordsOf_le_cons {c : Char} (solid : isBlank c = false) (text : List Char) :
    (wordsOf text).length ≤ (wordsOf (c :: text)).length := by
  rw [wordsOf, wordsOf, List.splitOnP_cons_eq_if_modifyHead, solid]
  cases List.splitOnP isBlank text with
  | nil => exact Nat.le_refl _
  | cons word words => cases word <;> simp

/-- Behind its leading white space a text is empty or begins with its first word. -/
theorem wordsOf_cases (text : List Char) :
    skipBlank text = [] ∧ wordsOf text = [] ∨
      ∃ word rest, skipBlank text = word ++ rest ∧ word ≠ [] ∧
        (∀ c ∈ word, isBlank c = false) ∧ (∀ c ∈ rest.head?, isBlank c = true) ∧
        wordsOf text = word :: wordsOf rest := by
  rw [← wordsOf_skipBlank]
  have stop := List.head?_dropWhile_not isBlank text
  rw [← skipBlank] at stop
  generalize skipBlank text = skipped at stop
  cases skipped with
  | nil => exact .inl ⟨rfl, rfl⟩
  | cons c others =>
    have solid : ∀ d ∈ c :: others.takeWhile (!isBlank ·), isBlank d = false := by
      intro d mem
      rcases List.mem_cons.mp mem with rfl | mem
      · exact stop
      · simpa using List.all_eq_true.mp List.all_takeWhile _ mem
    have ended : ∀ d ∈ (others.dropWhile (!isBlank ·)).head?, isBlank d = true := by
      intro d first
      have stop := List.head?_dropWhile_not (!isBlank ·) others
      rw [Option.mem_def.mp first] at stop
      simpa using stop
    have split : c :: others =
        (c :: others.takeWhile (!isBlank ·)) ++ others.dropWhile (!isBlank ·) := by
      rw [List.cons_append, List.takeWhile_append_dropWhile]
    refine .inr ⟨_, _, split, by simp, solid, ended, ?_⟩
    rw [split]
    exact wordsOf_append (by simp) solid ended

theorem wordsOf_eq_nil_iff {text : List Char} : wordsOf text = [] ↔ skipBlank text = [] := by
  rcases wordsOf_cases text with ⟨skipped, none⟩ | ⟨word, rest, skipped, nonempty, _, _, some⟩
  · simp [skipped, none]
  · simp [skipped, nonempty, some]

/-! ## Cutting words off -/

/-- What is left of a text when some words were cut off. -/
def afterWords (text : List Char) : Nat → List Char
  | 0 => text
  | count + 1 => (cutWord (afterWords text count)).2

section Cutting

variable {text rest : List Char} (unclosed : '\x7d' ∉ text)
include unclosed

theorem cutWord_cases :
    wordsOf text = [] ∧ cutWord text = ([], []) ∨
      wordsOf text = (cutWord text).1 :: wordsOf (cutWord text).2 := by
  rcases wordsOf_cases text with ⟨skipped, none⟩ | ⟨word, rest, skipped, _, solid, ended, some⟩
  · exact .inl ⟨none, by rw [cutWord, skipped]; rfl⟩
  · right
    have inside : ∀ c ∈ word, isWordChar c = true := by
      intro c mem
      have other : c ≠ '\x7d' := by
        rintro rfl
        have within : '\x7d' ∈ skipBlank text := by
          rw [skipped]
          exact List.mem_append_left _ mem
        exact unclosed ((skipBlank_suffix text).subset within)
      simp [isWordChar, other, solid c mem]
    have outside : ∀ c ∈ rest.head?, isWordChar c = false := by
      intro c first
      simp [isWordChar, ended c first]
    have cut : cutWord text = (word, rest) := by
      rw [cutWord, skipped, takeWhile_append_of_stops outside, dropWhile_append_of_stops outside,
        List.takeWhile_eq_self_iff.mpr inside, List.dropWhile_eq_nil_iff.mpr inside,
        List.nil_append]
    rw [some, cut]

theorem unclosed_afterWords (count : Nat) : '\x7d' ∉ afterWords text count := by
  induction count with
  | zero => exact unclosed
  | succ count ih => exact fun mem => ih ((cutWord_suffix _).subset mem)

/-- Words that are cut off are the first words of a text. -/
theorem wordsOf_afterWords (count : Nat) :
    wordsOf (afterWords text count) = (wordsOf text).drop count := by
  induction count with
  | zero => rfl
  | succ count ih =>
    have one_less :
        wordsOf (afterWords text (count + 1)) = (wordsOf (afterWords text count)).tail := by
      rw [afterWords]
      rcases cutWord_cases (unclosed_afterWords unclosed count) with ⟨none, cut⟩ | some
      · rw [none, cut]
        rfl
      · rw [some, List.tail_cons]
    rw [one_less, ih, List.tail_drop]

/-- The word at an index is cut off behind the words before it. -/
theorem fst_cutWord_afterWords (index : Nat) :
    (cutWord (afterWords text index)).1 = (wordsOf text)[index]?.getD [] := by
  have front : (wordsOf text)[index]? = (wordsOf (afterWords text index)).head? := by
    rw [wordsOf_afterWords unclosed, List.head?_drop]
  rw [front]
  rcases cutWord_cases (unclosed_afterWords unclosed index) with ⟨none, cut⟩ | some
  · rw [none, cut]
    rfl
  · rw [some, List.head?_cons, Option.getD_some]

omit unclosed in
/-- A closing brace ends a word, so what comes behind it is left alone. -/
theorem cutWord_append (closes : ∀ c ∈ rest.head?, c = '\x7d') :
    cutWord (text ++ rest) = ((cutWord text).1, (cutWord text).2 ++ rest) := by
  have not_blank : ∀ c ∈ rest.head?, isBlank c = false := by
    intro c first
    rw [closes c first]
    exact isBlank_brace.2
  have stops : ∀ c ∈ rest.head?, isWordChar c = false := by
    intro c first
    rw [closes c first]
    rfl
  rw [cutWord, cutWord, skipBlank, dropWhile_append_of_stops not_blank,
    takeWhile_append_of_stops stops, dropWhile_append_of_stops stops]
  rfl

end Cutting

/-! ## Shapes -/

/-- How a tag is written: its opening braces, what stands between, and its closing braces. -/
structure Shape where
  opening : Nat
  inner : List Char
  closing : Nat

namespace Shape

def text (shape : Shape) : List Char :=
  List.replicate shape.opening '\x7b' ++ (shape.inner ++ List.replicate shape.closing '\x7d')

/-- One of the words. Where there are not so many, it is empty. -/
def word (shape : Shape) (index : Nat) : List Char :=
  (wordsOf shape.inner)[index]?.getD []

/-- A tag of this shape stands at the front of a text. -/
structure Leads (shape : Shape) (text : List Char) : Prop where
  several : 2 ≤ runLength '\x7b' text
  opening : shape.opening = min (runLength '\x7b' text) 3
  /-- The first closing brace behind the opening ones has another one behind it. -/
  closed : ∃ rest, text.drop shape.opening = shape.inner ++ '\x7d' :: '\x7d' :: rest ∧
    shape.closing = min (runLength '\x7d' ('\x7d' :: '\x7d' :: rest)) 3
  first : '\x7d' ∉ shape.inner
  few : (wordsOf shape.inner).length ≤ 3

def candidate (shape : Shape) (rest : List Char) : Candidate where
  opening := shape.opening
  closing := shape.closing
  first := shape.word 0
  second := shape.word 1
  third := shape.word 2
  text := shape.text
  rest := rest

end Shape

theorem replicate_append_drop {c : Char} {count : Nat} {text : List Char}
    (enough : count ≤ runLength c text) : List.replicate count c ++ text.drop count = text := by
  induction count generalizing text with
  | zero => rfl
  | succ count ih =>
    cases text with
    | nil => cases enough
    | cons d text =>
      rw [runLength_cons] at enough
      split at enough
      · next same =>
        rw [List.replicate_succ, List.cons_append, List.drop_succ_cons, ih (by omega), same]
      · cases enough

theorem frontOf_append_right (front rest : List Char) : frontOf (front ++ rest) rest = front := by
  simp [frontOf]

namespace Candidate

/-- The closing braces that are read are those in front, up to three. -/
theorem length_takeWhile_take (close : List Char) :
    ((close.take 3).takeWhile (· == '\x7d')).length = min (runLength '\x7d' close) 3 := by
  match close with
  | [] => rfl
  | [c] => by_cases c = '\x7d' <;> simp_all [runLength]
  | [c, d] => by_cases c = '\x7d' <;> by_cases d = '\x7d' <;> simp_all [runLength]
  | c :: d :: e :: close =>
    by_cases c = '\x7d' <;> by_cases d = '\x7d' <;> by_cases e = '\x7d' <;>
      simp_all [runLength]

/-- What is read behind the opening braces is decided by the first closing brace. -/
theorem read?_append (opening : Nat) {inner close : List Char} (unclosed : '\x7d' ∉ inner)
    (closes : ∀ c ∈ close.head?, c = '\x7d') :
    read? opening (inner ++ close) =
      if (wordsOf inner).length ≤ 3 ∧ 2 ≤ runLength '\x7d' close then
        some (Shape.candidate ⟨opening, inner, min (runLength '\x7d' close) 3⟩
          (close.drop (min (runLength '\x7d' close) 3)))
      else none := by
  have first : (cutWord inner).1 = (wordsOf inner)[0]?.getD [] := fst_cutWord_afterWords unclosed 0
  have second : (cutWord (cutWord inner).2).1 = (wordsOf inner)[1]?.getD [] :=
    fst_cutWord_afterWords unclosed 1
  have third : (cutWord (cutWord (cutWord inner).2).2).1 = (wordsOf inner)[2]?.getD [] :=
    fst_cutWord_afterWords unclosed 2
  have left : skipBlank (afterWords inner 3) = [] ↔ (wordsOf inner).length ≤ 3 := by
    rw [← wordsOf_eq_nil_iff, wordsOf_afterWords unclosed, List.drop_eq_nil_iff]
  have skipped : skipBlank ((cutWord (cutWord (cutWord inner).2).2).2 ++ close) =
      skipBlank (afterWords inner 3) ++ close := by
    refine dropWhile_append_of_stops fun c leading => ?_
    rw [closes c leading]
    exact isBlank_brace.2
  rw [read?.eq_def]
  simp only [cutWord_append closes, first, second, third, skipped]
  by_cases few : (wordsOf inner).length ≤ 3
  · rw [left.mpr few, List.nil_append, length_takeWhile_take close]
    by_cases several : 2 ≤ runLength '\x7d' close
    · have counted : ¬ min (runLength '\x7d' close) 3 < 2 := by omega
      have split : inner ++ close = (inner ++
          List.replicate (min (runLength '\x7d' close) 3) '\x7d') ++
            close.drop (min (runLength '\x7d' close) 3) := by
        rw [List.append_assoc, replicate_append_drop (Nat.min_le_left _ _)]
      rw [if_neg counted, if_pos ⟨few, several⟩, split, frontOf_append_right]
      rfl
    · have counted : min (runLength '\x7d' close) 3 < 2 := by omega
      rw [if_pos counted, if_neg fun both => several both.2]
  · have none_closing : (((skipBlank (afterWords inner 3) ++ close).take 3).takeWhile
        (· == '\x7d')).length = 0 := by
      cases more : skipBlank (afterWords inner 3) with
      | nil => exact absurd (left.mp more) few
      | cons c others =>
        have within : c ∈ skipBlank (afterWords inner 3) := by
          rw [more]
          exact List.mem_cons_self
        have other : c ≠ '\x7d' := by
          rintro rfl
          exact unclosed_afterWords unclosed 3 ((skipBlank_suffix _).subset within)
        simp [other]
    rw [none_closing, if_pos Nat.zero_lt_two, if_neg fun both => few both.1]

/-- Where the wider opening fails, the brace that it takes more only makes words longer or adds
one, so the narrower opening fails, too. -/
theorem read?_cons_eq_none {opening other : Nat} {body : List Char}
    (failed : read? opening body = none) : read? other ('\x7b' :: body) = none := by
  obtain ⟨inner, close, rfl, unclosed, closes⟩ := exists_split_closing body
  have longer : '\x7d' ∉ '\x7b' :: inner := by simpa using unclosed
  have words := length_wordsOf_le_cons isBlank_brace.1 inner
  rw [read?_append _ unclosed closes] at failed
  rw [← List.cons_append, read?_append _ longer closes]
  split at failed
  · cases failed
  · next refused =>
    refine if_neg fun both => refused ⟨?_, both.2⟩
    exact Nat.le_trans words both.1

/-- Only the widest opening needs to be tried. -/
theorem at?_eq (text : List Char) :
    at? text =
      if 2 ≤ runLength '\x7b' text then
        read? (min (runLength '\x7b' text) 3) (text.drop (min (runLength '\x7b' text) 3))
      else none := by
  unfold at?
  split
  · next body =>
    have wide : min (runLength '\x7b' ('\x7b' :: '\x7b' :: '\x7b' :: body)) 3 = 3 := by
      simp only [runLength_cons, if_true]
      omega
    rw [if_pos (by omega), wide]
    show (read? 3 body <|> read? 2 ('\x7b' :: body)) = read? 3 body
    cases three : read? 3 body with
    | some candidate => rfl
    | none =>
      have two : read? 2 ('\x7b' :: body) = none := read?_cons_eq_none three
      rw [two]
      rfl
  · next body narrow =>
    have two : runLength '\x7b' ('\x7b' :: '\x7b' :: body) = 2 := by
      cases body with
      | nil => rfl
      | cons c body =>
        have other : c ≠ '\x7b' := by
          rintro rfl
          exact narrow body rfl
        simp [runLength_cons, other]
    rw [two]
    rfl
  · next _ narrow =>
    refine (if_neg fun several => ?_).symm
    exact narrow (text.drop 2) (replicate_append_drop several).symm

/-- A shape that leads a text is read there. -/
theorem at?_of_leads {shape : Shape} {text : List Char} (leads : shape.Leads text) :
    ∃ rest, text = shape.text ++ rest ∧ at? text = some (shape.candidate rest) := by
  obtain ⟨opening, inner, closing⟩ := shape
  obtain ⟨several, width, ⟨rest, split, closers⟩, unclosed, few⟩ := leads
  dsimp only at width split closers unclosed few
  have closes : ∀ c ∈ ('\x7d' :: '\x7d' :: rest).head?, c = '\x7d' := by simp
  have two : 2 ≤ runLength '\x7d' ('\x7d' :: '\x7d' :: rest) := by
    simp only [runLength_cons, if_true]
    omega
  refine ⟨('\x7d' :: '\x7d' :: rest).drop closing, ?_, ?_⟩
  · have closers_le : closing ≤ runLength '\x7d' ('\x7d' :: '\x7d' :: rest) := by omega
    rw [Shape.text, List.append_assoc, List.append_assoc, replicate_append_drop closers_le, ← split,
      replicate_append_drop (width.trans_le (Nat.min_le_left _ _))]
  · rw [at?_eq, if_pos several, ← width, split, read?_append _ unclosed closes,
      if_pos ⟨few, two⟩, ← closers]

/-- Where a candidate is read, its shape leads the text. -/
theorem leads_of_at? {text : List Char} {candidate : Candidate} (read : at? text = some candidate) :
    ∃ shape : Shape, shape.Leads text ∧ ∃ rest, text = shape.text ++ rest ∧
      candidate = shape.candidate rest := by
  suffices ∃ shape : Shape, shape.Leads text by
    obtain ⟨shape, leads⟩ := this
    obtain ⟨rest, whole, found⟩ := at?_of_leads leads
    exact ⟨shape, leads, rest, whole, Option.some.inj (read.symm.trans found)⟩
  rw [at?_eq] at read
  split at read
  · next several =>
    obtain ⟨inner, close, split, unclosed, closes⟩ :=
      exists_split_closing (text.drop (min (runLength '\x7b' text) 3))
    rw [split, read?_append _ unclosed closes] at read
    split at read
    · next fits =>
      have braces := replicate_append_drop fits.2
      refine ⟨⟨min (runLength '\x7b' text) 3, inner, min (runLength '\x7d' close) 3⟩, several, rfl,
        ⟨close.drop 2, ?_, ?_⟩, unclosed, fits.1⟩
      · rw [split]
        exact congrArg (inner ++ ·) braces.symm
      · exact congrArg (fun close => min (runLength '\x7d' close) 3) braces.symm
    · cases read
  · cases read

/-! ## The first candidate -/

theorem find?_eq_none {text : List Char} (missing : find? text = none) {front rest : List Char}
    (split : text = front ++ rest) : at? rest = none := by
  induction text generalizing front with
  | nil =>
    obtain ⟨_, rfl⟩ := List.append_eq_nil_iff.mp split.symm
    rfl
  | cons c text ih =>
    rw [find?] at missing
    split at missing
    · cases missing
    · next absent =>
      cases front with
      | nil =>
        rw [List.nil_append] at split
        rw [← split]
        exact absent
      | cons d front =>
        injection split with _ split
        exact ih (Option.map_eq_none_iff.mp missing) split

/-- A candidate that is found is read where the text in front of it ends, and none is read
before. -/
theorem find?_first {text before : List Char} {candidate : Candidate}
    (found : find? text = some (before, candidate)) :
    ∃ rest, text = before ++ rest ∧ at? rest = some candidate ∧
      ∀ front back, before = front ++ back → back ≠ [] → at? (back ++ rest) = none := by
  induction text generalizing before with
  | nil => cases found
  | cons c text ih =>
    rw [find?] at found
    split at found
    · next here =>
      cases found
      refine ⟨c :: text, rfl, here, fun front back split nonempty => ?_⟩
      exact absurd (List.append_eq_nil_iff.mp split.symm).2 nonempty
    · next absent =>
      obtain ⟨⟨before', candidate'⟩, later, same⟩ := Option.map_eq_some_iff.mp found
      cases same
      obtain ⟨rest, split, here, none_before⟩ := ih later
      refine ⟨rest, by rw [split, List.cons_append], here, fun front back parts nonempty => ?_⟩
      cases front with
      | nil =>
        rw [List.nil_append] at parts
        rw [← parts, List.cons_append, ← split]
        exact absent
      | cons d front =>
        injection parts with _ parts
        exact none_before front back parts nonempty

end Candidate

end Stencil
