import Stencil.Proofs.Token.Grammar
import Mathlib.Data.Nat.PSub

/-!
# Tokens by positions

A template can be cut into tokens while only byte positions are carried along: each word, tag and
piece of raw text is cut out of the whole source, and each search starts at a position of it. Such a
cut fails when the position lies outside the source or inside a character, and a subtraction fails
when it would go below zero. Neither ever happens.

1. `Candidate.readFrom?`, `Candidate.findFrom?`: reading and finding candidates by positions.
2. `Token.scanFrom?`: all tokens by positions.
3. `Token.scanFrom?_eq`: every cut succeeds, and the tokens are those of the template.
4. `Program.compileFrom?_eq`: so templates can be compiled by positions.
-/

namespace Stencil

open Text

/-! ## Reading -/

def skipBlankFrom? (source : List Char) (position : Nat) : Option Nat := do
  let text ← dropBytes source position
  let skipped ← (byteLength text).psub (byteLength (skipBlank text))
  return position + skipped

/-- Where the word ends that a text at a position begins with: at the first character that no word
holds, or else at the end of the source. -/
def wordStop (source : List Char) (start : Nat) (text : List Char) : Nat :=
  match text.dropWhile isWordChar with
  | [] => byteLength source
  | _ :: _ => start + byteLength (text.takeWhile isWordChar)

def cutWordFrom? (source : List Char) (position : Nat) : Option (List Char × Nat) := do
  let start ← skipBlankFrom? source position
  let text ← dropBytes source start
  let word ← Span.select? ⟨start, wordStop source start text⟩ source
  return (word, wordStop source start text)

/-- A candidate without its text, and the span of it. -/
structure Candidate.Placed where
  opening : Nat
  closing : Nat
  first : List Char
  second : List Char
  third : List Char
  span : Span

namespace Candidate

def placed (candidate : Candidate) (position : Nat) : Placed where
  opening := candidate.opening
  closing := candidate.closing
  first := candidate.first
  second := candidate.second
  third := candidate.third
  span := ⟨position, position + byteLength candidate.text⟩

/-- Reads a candidate with so many opening braces at a position. The outer `none` is a cut that
failed. -/
def readFrom? (source : List Char) (position opening : Nat) : Option (Option Placed) := do
  let (first, afterFirst) ← cutWordFrom? source (position + opening)
  let (second, afterSecond) ← cutWordFrom? source afterFirst
  let (third, afterThird) ← cutWordFrom? source afterSecond
  let close ← skipBlankFrom? source afterThird
  let text ← dropBytes source close
  let closing := min (runLength '\x7d' text) 3
  return if closing < 2 then none
    else some ⟨opening, closing, first, second, third, ⟨position, close + closing⟩⟩

/-- The candidate at a position, with three opening braces or else with two. -/
def atPosition? (source : List Char) (position : Nat) : Option (Option Placed) := do
  let text ← dropBytes source position
  let run := runLength '\x7b' text
  let three ← if 3 ≤ run then readFrom? source position 3 else some none
  match three with
  | some candidate => return some candidate
  | none => if 2 ≤ run then readFrom? source position 2 else some none

/-- How many bytes stand before the first two opening braces. -/
def bytesToBraces? : List Char → Option Nat
  | [] => none
  | c :: text =>
    if 2 ≤ runLength '\x7b' (c :: text) then some 0
    else (bytesToBraces? text).map (c.utf8Size + ·)

def findFrom? (source : List Char) (position : Nat) : Option (Option Placed) :=
  match _inside : dropBytes source position with
  | none => none
  | some text =>
    match bytesToBraces? text with
    | none => some none
    | some skipped =>
      match atPosition? source (position + skipped) with
      | none => none
      | some (some candidate) => some (some candidate)
      | some none => findFrom? source (position + skipped + 1)
termination_by byteLength source + 1 - position
decreasing_by
  obtain ⟨front, whole, size⟩ := dropBytes_eq_some_iff.mp _inside
  have : byteLength source = byteLength front + byteLength text := by
    rw [whole, byteLength_append]
  omega

end Candidate

/-! ## Agreement of candidates -/

variable {source rest : List Char} {position : Nat}

/-- A position is told from what is left behind it. -/
theorem position_add_byteLength (inside : dropBytes source position = some rest) :
    position + byteLength rest = byteLength source := by
  obtain ⟨front, whole, size⟩ := dropBytes_eq_some_iff.mp inside
  rw [whole, byteLength_append, size]

theorem dropBytes_add {front : List Char}
    (inside : dropBytes source position = some (front ++ rest)) :
    dropBytes source (position + byteLength front) = some rest := by
  obtain ⟨before, whole, size⟩ := dropBytes_eq_some_iff.mp inside
  refine dropBytes_eq_some_iff.mpr ⟨before ++ front, ?_, ?_⟩
  · rw [whole, List.append_assoc]
  · rw [byteLength_append, size]

theorem skipBlankFrom?_eq (inside : dropBytes source position = some rest) :
    ∃ start, skipBlankFrom? source position = some start ∧
      dropBytes source start = some (skipBlank rest) := by
  have split : rest = rest.takeWhile isBlank ++ skipBlank rest :=
    List.takeWhile_append_dropWhile.symm
  have size := congrArg byteLength split
  rw [byteLength_append] at size
  have skipped : (byteLength rest).psub (byteLength (skipBlank rest)) =
      some (byteLength (rest.takeWhile isBlank)) := Nat.psub_eq_some.mpr size.symm
  rw [split] at inside
  refine ⟨position + byteLength (rest.takeWhile isBlank), ?_, dropBytes_add inside⟩
  rw [← split] at inside
  rw [skipBlankFrom?, inside, Option.bind_eq_bind, Option.bind_some, skipped]
  rfl

theorem wordStop_eq (inside : dropBytes source position = some rest) :
    wordStop source position rest = position + byteLength (rest.takeWhile isWordChar) := by
  unfold wordStop
  split
  · next nothing =>
    have split := List.takeWhile_append_dropWhile (p := isWordChar) (l := rest)
    rw [nothing, List.append_nil] at split
    rw [split, position_add_byteLength inside]
  · rfl

theorem select?_front {front : List Char}
    (inside : dropBytes source position = some (front ++ rest)) :
    Span.select? ⟨position, position + byteLength front⟩ source = some front := by
  obtain ⟨before, whole, size⟩ := dropBytes_eq_some_iff.mp inside
  have region := Span.select?_region before front rest
  rwa [List.append_assoc, ← whole, byteLength_append, size] at region

theorem cutWordFrom?_eq (inside : dropBytes source position = some rest) :
    ∃ stop, cutWordFrom? source position = some ((cutWord rest).1, stop) ∧
      dropBytes source stop = some (cutWord rest).2 := by
  obtain ⟨start, skipped, behind⟩ := skipBlankFrom?_eq inside
  have split : skipBlank rest = (cutWord rest).1 ++ (cutWord rest).2 :=
    List.takeWhile_append_dropWhile.symm
  have stop_eq : wordStop source start (skipBlank rest) =
      start + byteLength (cutWord rest).1 := wordStop_eq behind
  have apart := behind
  rw [split] at apart
  refine ⟨start + byteLength (cutWord rest).1, ?_, dropBytes_add apart⟩
  simp only [cutWordFrom?, skipped, behind, stop_eq, select?_front apart, Option.bind_eq_bind,
    Option.bind_some]
  rfl

theorem closing_add_byteLength (inside : dropBytes source position = some rest) :
    position + min (runLength '\x7d' rest) 3 +
      byteLength (rest.drop (min (runLength '\x7d' rest) 3)) = byteLength source := by
  have apart := replicate_append_drop (Nat.min_le_left (runLength '\x7d' rest) 3)
  rw [← apart] at inside
  have stop := position_add_byteLength (dropBytes_add inside)
  rwa [Shape.byteLength_replicate rfl] at stop

namespace Candidate

theorem readFrom?_eq {opening : Nat} {body : List Char}
    (inside : dropBytes source position = some (List.replicate opening '\x7b' ++ body)) :
    readFrom? source position opening = some ((read? opening body).map (placed · position)) := by
  have braces : byteLength (List.replicate opening '\x7b') = opening :=
    Shape.byteLength_replicate rfl opening
  have behind := dropBytes_add inside
  rw [braces] at behind
  obtain ⟨afterFirst, first, behind⟩ := cutWordFrom?_eq behind
  obtain ⟨afterSecond, second, behind⟩ := cutWordFrom?_eq behind
  obtain ⟨afterThird, third, behind⟩ := cutWordFrom?_eq behind
  obtain ⟨close, closes, behind⟩ := skipBlankFrom?_eq behind
  simp only [readFrom?, first, second, third, closes, behind, Option.bind_eq_bind, Option.bind_some]
  have ends : ∀ candidate, read? opening body = some candidate →
      dropBytes source (position + byteLength candidate.text) = some candidate.rest := by
    intro candidate read
    rw [← (read?_spec read).1] at inside
    exact dropBytes_add inside
  unfold read? at ends ⊢
  dsimp only at ends ⊢
  rw [length_takeWhile_take] at ends ⊢
  split at ends
  · next few => rw [if_pos few, if_pos few]; rfl
  · next enough =>
    have stop := position_add_byteLength (ends _ rfl)
    have same := Nat.add_right_cancel ((closing_add_byteLength behind).trans stop.symm)
    rw [if_neg enough, if_neg enough, same]
    rfl

theorem atPosition?_eq (inside : dropBytes source position = some rest) :
    atPosition? source position = some ((at? rest).map (placed · position)) := by
  simp only [atPosition?, inside, Option.bind_eq_bind, Option.bind_some]
  rw [at?_eq]
  rcases Nat.lt_or_ge (runLength '\x7b' rest) 2 with few | several
  · rw [if_neg (Nat.not_le_of_lt (Nat.lt_succ_of_lt few)), if_neg (Nat.not_le_of_lt few),
      if_neg (Nat.not_le_of_lt few)]
    rfl
  · rw [if_pos several, if_pos several]
    have two := readFrom?_eq (show dropBytes source position =
      some (List.replicate 2 '\x7b' ++ rest.drop 2) by rwa [replicate_append_drop several])
    rcases Nat.lt_or_ge (runLength '\x7b' rest) 3 with narrow | wide
    · rw [if_neg (Nat.not_le_of_lt narrow), Nat.min_eq_left (Nat.le_of_lt narrow),
        Nat.le_antisymm (Nat.le_of_lt_succ narrow) several]
      exact two
    · have three := readFrom?_eq (show dropBytes source position =
        some (List.replicate 3 '\x7b' ++ rest.drop 3) by rwa [replicate_append_drop wide])
      rw [if_pos wide, Nat.min_eq_right wide, three, two, Option.bind_some]
      cases read : read? 3 (rest.drop 3) with
      | some candidate => rfl
      | none =>
        have longer : rest.drop 2 = '\x7b' :: rest.drop 3 := by
          conv => lhs; rw [← replicate_append_drop wide]
          rfl
        rw [longer, read?_cons_eq_none read]
        rfl

/-- A search may go from one pair of braces to the next. -/
theorem find?_of_bytesToBraces? (text : List Char) :
    (bytesToBraces? text = none → find? text = none) ∧
      ∀ skipped, bytesToBraces? text = some skipped → ∃ before after,
        text = before ++ '\x7b' :: after ∧ byteLength before = skipped ∧
        find? text = match at? ('\x7b' :: after) with
          | some candidate => some (before, candidate)
          | none => (find? after).map fun (between, candidate) =>
              (before ++ '\x7b' :: between, candidate) := by
  induction text with
  | nil => exact ⟨fun _ => rfl, fun _ found => nomatch found⟩
  | cons c text ih =>
    rw [bytesToBraces?]
    split
    · next several =>
      refine ⟨(nomatch ·), ?_⟩
      rintro _ ⟨⟩
      obtain rfl : c = '\x7b' := by
        rw [runLength_cons] at several
        split at several
        · assumption
        · cases several
      refine ⟨[], text, rfl, rfl, ?_⟩
      rw [find?]
      rfl
    · next few =>
      have nothing : at? (c :: text) = none := (at?_eq _).trans (if_neg few)
      rw [find?, nothing]
      dsimp only
      constructor
      · intro missing
        rw [ih.1 (Option.map_eq_none_iff.mp missing)]
        rfl
      · intro skipped found
        obtain ⟨fewer, braces, rfl⟩ := Option.map_eq_some_iff.mp found
        obtain ⟨before, after, rfl, rfl, same⟩ := ih.2 fewer braces
        refine ⟨c :: before, after, rfl, rfl, ?_⟩
        rw [same]
        cases at? ('\x7b' :: after) with
        | some candidate => rfl
        | none => rw [Option.map_map]; rfl

theorem findFrom?_eq (inside : dropBytes source position = some rest) :
    findFrom? source position = some ((find? rest).map fun (before, candidate) =>
      candidate.placed (position + byteLength before)) := by
  induction size : rest.length using Nat.strongRecOn generalizing position rest with
  | ind count ih =>
    rw [findFrom?]
    split
    · next outside =>
      rw [outside] at inside
      cases inside
    · next text found =>
      obtain rfl := Option.some.inj (inside.symm.trans found)
      cases braces : bytesToBraces? rest with
      | none =>
        rw [(find?_of_bytesToBraces? rest).1 braces]
        rfl
      | some skipped =>
        obtain ⟨before, after, rfl, rfl, same⟩ := (find?_of_bytesToBraces? rest).2 skipped braces
        have tag := dropBytes_add inside
        have behind : dropBytes source (position + byteLength before + 1) = some after :=
          dropBytes_add (show dropBytes source _ = some (['\x7b'] ++ after) from tag)
        dsimp only
        rw [atPosition?_eq tag, same]
        cases at? ('\x7b' :: after) with
        | some candidate => rfl
        | none =>
          have shorter : after.length < count := by
            rw [← size, List.length_append, List.length_cons]
            omega
          show findFrom? source (position + byteLength before + 1) = _
          rw [ih after.length shorter behind rfl]
          show _ = some (Option.map _ (Option.map _ (find? after)))
          rw [Option.map_map]
          refine congrArg some (congrArg (Option.map · (find? after)) ?_)
          funext ⟨between, candidate⟩
          have brace : '\x7b'.utf8Size = 1 := rfl
          simp only [Function.comp_apply, byteLength_append, byteLength_cons, brace, Nat.add_assoc]

/-- The search ends behind where it started. -/
theorem findFrom?_progress {candidate : Placed}
    (found : findFrom? source position = some (some candidate)) :
    position < candidate.span.stop ∧ candidate.span.stop ≤ byteLength source := by
  cases inside : dropBytes source position with
  | none =>
    rw [findFrom?] at found
    split at found
    · cases found
    · next other =>
      rw [inside] at other
      cases other
  | some rest =>
    rw [findFrom?_eq inside] at found
    obtain ⟨⟨before, tag⟩, first, rfl⟩ := Option.map_eq_some_iff.mp (Option.some.inj found)
    obtain ⟨split, size⟩ := find?_spec first
    have whole := position_add_byteLength inside
    rw [split, byteLength_append, byteLength_append] at whole
    have positive : byteLength tag.text ≠ 0 := fun none_left => by
      rw [byteLength_eq_zero_iff.mp none_left] at size
      cases size
    show position < position + byteLength before + byteLength tag.text ∧
      position + byteLength before + byteLength tag.text ≤ byteLength source
    omega

end Candidate

/-! ## Scanning -/

namespace Token

/-- The raw text between two positions, if they differ. -/
def rawFrom? (source : List Char) (start stop : Nat) (rejected : List String) :
    Option (List Token) :=
  if start = stop then some []
  else do
    let text ← Span.select? ⟨start, stop⟩ source
    return [.raw (String.ofList text) ⟨start, stop⟩ rejected]

def ofPlaced (candidate : Candidate.Placed) (text : List Char) : Token :=
  .tag {
    braces := candidate.opening
    first := String.ofList candidate.first
    second := String.ofList candidate.second
    third := String.ofList candidate.third
    text := String.ofList text
    span := candidate.span }

/-- The tokens of a source from a position on, where all up to `emitted` is in tokens already. -/
def scanFrom? (source : List Char) (emitted position : Nat) (rejected : List String) :
    Option (List Token) :=
  match _found : Candidate.findFrom? source position with
  | none => none
  | some none => rawFrom? source emitted (byteLength source) rejected
  | some (some candidate) => do
    let text ← Span.select? candidate.span source
    if candidate.opening = candidate.closing then do
      let raw ← rawFrom? source emitted candidate.span.start rejected
      let rest ← scanFrom? source candidate.span.stop candidate.span.stop []
      return raw ++ ofPlaced candidate text :: rest
    else scanFrom? source emitted candidate.span.stop (rejected ++ [String.ofList text])
termination_by byteLength source - position
decreasing_by all_goals
  obtain ⟨behind, within⟩ := Candidate.findFrom?_progress _found
  omega

theorem rawFrom?_eq (front region rest : List Char) (rejected : List String) :
    rawFrom? (front ++ region ++ rest) (byteLength front) (byteLength (front ++ region)) rejected =
      some (ofRaw (byteLength front) region rejected) := by
  unfold rawFrom? ofRaw
  rw [Span.select?_region, byteLength_append]
  split
  · next same =>
    have nothing : region = [] := byteLength_eq_zero_iff.mp (by omega)
    rw [nothing]
    rfl
  · next different =>
    have something : region.isEmpty = false := by
      cases region with
      | nil => exact absurd rfl different
      | cons c region => rfl
    rw [something]
    rfl

section

variable {source : List Char} {emitted position : Nat} {rejected : List String}

theorem scanFrom?_of_none (ended : Candidate.findFrom? source position = some none) :
    scanFrom? source emitted position rejected =
      rawFrom? source emitted (byteLength source) rejected := by
  rw [scanFrom?]
  split
  · next failed =>
    rw [ended] at failed
    cases failed
  · rfl
  · next found =>
    rw [ended] at found
    cases found

theorem scanFrom?_of_some {candidate : Candidate.Placed} {text : List Char}
    (first : Candidate.findFrom? source position = some (some candidate))
    (cut : Span.select? candidate.span source = some text) :
    scanFrom? source emitted position rejected =
      if candidate.opening = candidate.closing then do
        let raw ← rawFrom? source emitted candidate.span.start rejected
        let rest ← scanFrom? source candidate.span.stop candidate.span.stop []
        return raw ++ ofPlaced candidate text :: rest
      else scanFrom? source emitted candidate.span.stop (rejected ++ [String.ofList text]) := by
  rw [scanFrom?]
  split
  · next failed =>
    rw [first] at failed
    cases failed
  · next ended =>
    rw [first] at ended
    cases ended
  · next other found =>
    obtain rfl := Option.some.inj (Option.some.inj (first.symm.trans found))
    rw [cut]
    rfl

end

/-- Every cut succeeds, and gives the tokens of the text. -/
theorem scanFrom?_scan {source : List Char} (start : Nat) (raw : List Char)
    (rejected : List String) (text : List Char) : ∀ front, source = front ++ raw ++ text →
      start = byteLength front → scanFrom? source start (byteLength (front ++ raw)) rejected =
        some (scan start raw rejected text) := by
  induction start, raw, rejected, text using scan.induct with
  | case1 start raw rejected text missing =>
    rintro front split rfl
    have inside := dropBytes_eq_some_iff.mpr ⟨front ++ raw, split, rfl⟩
    have ended := Candidate.findFrom?_eq inside
    rw [missing] at ended
    have all := rawFrom?_eq front (raw ++ text) [] rejected
    rw [List.append_nil, ← List.append_assoc, ← split] at all
    rw [scanFrom?_of_none ended, scan, missing]
    exact all
  | case2 start raw rejected text before candidate found balanced tagStart ih =>
    rintro front split rfl
    obtain ⟨text_eq, _⟩ := Candidate.find?_spec found
    have inside := dropBytes_eq_some_iff.mpr ⟨front ++ raw, split, rfl⟩
    have first := Candidate.findFrom?_eq inside
    rw [found] at first
    have whole : source = front ++ (raw ++ before) ++ candidate.text ++ candidate.rest := by
      rw [split, text_eq]
      simp only [List.append_assoc]
    have placed : byteLength (front ++ raw) + byteLength before = tagStart := by
      simp only [tagStart, byteLength_append, Nat.add_assoc]
    have tag_start : tagStart = byteLength (front ++ (raw ++ before)) :=
      (byteLength_append _ _).symm
    have tag_stop : tagStart + byteLength candidate.text =
        byteLength (front ++ (raw ++ before) ++ candidate.text) := by
      rw [byteLength_append _ candidate.text, tag_start]
    have cut := Span.select?_region (front ++ (raw ++ before)) candidate.text candidate.rest
    rw [← whole, ← tag_stop, ← tag_start, ← placed] at cut
    have raw_eq := rawFrom?_eq front (raw ++ before) (candidate.text ++ candidate.rest) rejected
    rw [← List.append_assoc, ← whole, ← tag_start] at raw_eq
    have later := ih (front ++ (raw ++ before) ++ candidate.text)
      (by rw [List.append_nil, whole]) tag_stop
    rw [List.append_nil, ← tag_stop] at later
    rw [scanFrom?_of_some first cut, scan, found]
    simp only [Candidate.placed, placed, if_pos balanced, raw_eq, later, Option.bind_eq_bind,
      Option.bind_some]
    rfl
  | case3 start raw rejected text before candidate found unbalanced ih =>
    rintro front split rfl
    obtain ⟨text_eq, _⟩ := Candidate.find?_spec found
    have inside := dropBytes_eq_some_iff.mpr ⟨front ++ raw, split, rfl⟩
    have first := Candidate.findFrom?_eq inside
    rw [found] at first
    have whole : source = front ++ raw ++ before ++ candidate.text ++ candidate.rest := by
      rw [split, text_eq]
      simp only [List.append_assoc]
    have tag_start : byteLength (front ++ raw) + byteLength before =
        byteLength (front ++ raw ++ before) := (byteLength_append _ _).symm
    have tag_stop : byteLength (front ++ raw ++ before) + byteLength candidate.text =
        byteLength (front ++ (raw ++ before ++ candidate.text)) := by
      simp only [byteLength_append, Nat.add_assoc]
    have cut := Span.select?_region (front ++ raw ++ before) candidate.text candidate.rest
    rw [← whole, byteLength_append _ candidate.text, ← tag_start] at cut
    have later := ih front (by rw [whole]; simp only [List.append_assoc]) rfl
    rw [← tag_stop] at later
    rw [scanFrom?_of_some first cut, scan, found]
    simp only [Candidate.placed, tag_start, if_neg unbalanced]
    exact later

/-- Cutting a template by positions never fails, and gives its tokens. -/
theorem scanFrom?_eq (source : String) :
    scanFrom? source.toList 0 0 [] = some (ofSource source) :=
  scanFrom?_scan 0 [] [] source.toList [] rfl rfl

end Token

/-! ## Compiling -/

/-- Reads a token. The number of directives past the limit must not be lowered below zero. -/
def Outline.read? (limit : Nat) (outline : Outline) : Token → Option Outline
  | .raw text span rejected => some (outline.read limit (.raw text span rejected))
  | .tag tag =>
    match Directive.ofTag? tag with
    | some (.ends kind) =>
      if 0 < outline.overflow then do
        let overflow ← outline.overflow.psub 1
        return { outline with overflow }.keep tag
      else some (outline.ends kind tag)
    | _ => some (outline.readTag limit tag)

theorem Outline.read?_eq (limit : Nat) (outline : Outline) (token : Token) :
    outline.read? limit token = some (outline.read limit token) := by
  cases token with
  | raw text span rejected => rfl
  | tag tag =>
    show _ = some (outline.readTag limit tag)
    unfold read? readTag
    dsimp only
    split
    · next kind ends =>
      rw [ends]
      dsimp only
      unfold Outline.ends
      split
      · next past => rw [Nat.psub_eq_sub past]; rfl
      · rfl
    · rfl

/-- Compiles a template by positions. -/
def Program.compileFrom? (source : String) : Option (Noted Program) := do
  let tokens ← Token.scanFrom? source.toList 0 0 []
  let outline ← tokens.foldlM (Outline.read? maxNesting) .empty
  return ⟨⟨source, outline.closed⟩, outline.allNotices⟩

/-- No cut and no subtraction fails while a template is compiled. -/
theorem Program.compileFrom?_eq (source : String) :
    compileFrom? source = some (compile source) := by
  have reads : ∀ (tokens : List Token) (outline : Outline),
      tokens.foldlM (Outline.read? maxNesting) outline =
        some (tokens.foldl (Outline.read maxNesting) outline) := by
    intro tokens
    induction tokens with
    | nil => exact fun _ => rfl
    | cons token tokens ih =>
      intro outline
      rw [List.foldlM_cons, Outline.read?_eq, Option.bind_eq_bind, Option.bind_some, ih]
      rfl
  rw [compileFrom?, Token.scanFrom?_eq, Option.bind_eq_bind, Option.bind_some, reads]
  rfl

end Stencil
