import Stencil.Error.Pretty
import Stencil.Proofs.Token.Grammar
import Mathlib.Data.List.DropRight
import Mathlib.Data.Nat.PSub

/-!
# The line that an error is shown in

The long form of an error is found with a running count of the bytes before each line and laid out
with differences of widths. None of these differences goes below zero. What is shown is the line of
the source in which the region begins, and below it the carets mark the columns of the region.

1. `showByPositions?_eq`: the long form by positions and widths, where a difference may fail.
2. `showInSource?_of_region`: what is shown for a region of the source.
3. `showInSource?_marks`: both, and what is shown for any other span. There is no long form where
   the carets would end beyond the last column, and only there.
-/

namespace Stencil

variable {width : List Char → Nat} {source line before after region front : List Char}
  {lines : List (List Char)} {offset row column : Nat}

/-! ## Lines -/

/-- What stands in front of a position on its line. -/
def lineBefore (before : List Char) : List Char :=
  before.rtakeWhile (· != '\n')

def lineAfter (after : List Char) : List Char :=
  after.takeWhile (· != '\n')

/-- What holds of a text without a newline, and of a text with one more line in front, holds of all
texts. -/
theorem induction_on_lines {P : List Char → Prop} (last : ∀ line, '\n' ∉ line → P line)
    (further : ∀ line below, '\n' ∉ line → P below → P (line ++ '\n' :: below))
    (text : List Char) : P text := by
  suffices h : ∀ line, '\n' ∉ line → P (line ++ text) from h [] List.not_mem_nil
  induction text with
  | nil =>
    intro line unbroken
    rw [List.append_nil]
    exact last line unbroken
  | cons c text ih =>
    intro line unbroken
    by_cases newline : c = '\n'
    · subst newline
      exact further line text unbroken (ih [] List.not_mem_nil)
    · rw [List.append_cons]
      refine ih (line ++ [c]) ?_
      simpa [Ne.symm newline] using unbroken

theorem lineBefore_of_unbroken (unbroken : '\n' ∉ line) : lineBefore line = line := by
  refine List.rtakeWhile_eq_self_iff.mpr fun c mem => ?_
  simpa using ne_of_mem_of_not_mem mem unbroken

theorem lineBefore_append_newline (above before : List Char) :
    lineBefore (above ++ '\n' :: before) = lineBefore before := by
  have stops : ∀ c ∈ ('\n' :: above.reverse).head?, (c != '\n') = false := by simp
  simp only [lineBefore, List.rtakeWhile, List.reverse_append, List.reverse_cons,
    List.append_assoc, List.singleton_append, takeWhile_append_of_stops stops]

theorem lineAfter_of_unbroken (unbroken : '\n' ∉ line) : lineAfter line = line := by
  refine List.takeWhile_eq_self_iff.mpr fun c mem => ?_
  simpa using ne_of_mem_of_not_mem mem unbroken

theorem lineAfter_append_newline (unbroken : '\n' ∉ line) (below : List Char) :
    lineAfter (line ++ '\n' :: below) = line := by
  have stops : ∀ c ∈ ('\n' :: below).head?, (c != '\n') = false := by simp
  exact (takeWhile_append_of_stops stops).trans (lineAfter_of_unbroken unbroken)

theorem linesFrom_append (unbroken : '\n' ∉ line) (current rest : List Char) :
    linesFrom current (line ++ rest) = linesFrom (line.reverse ++ current) rest := by
  induction line generalizing current with
  | nil => rfl
  | cons c line ih =>
    rw [List.mem_cons, not_or] at unbroken
    obtain ⟨other, unbroken⟩ := unbroken
    rw [List.cons_append, linesFrom, if_neg (Ne.symm other), ih unbroken, List.reverse_cons,
      List.append_assoc, List.singleton_append]

theorem linesFrom_of_unbroken (unbroken : '\n' ∉ line) :
    linesFrom [] line = if line.isEmpty then [] else [line] := by
  have read := linesFrom_append unbroken [] []
  rw [List.append_nil, List.append_nil] at read
  rw [read, linesFrom, List.isEmpty_reverse, List.reverse_reverse]

theorem linesFrom_append_newline (unbroken : '\n' ∉ line) (below : List Char) :
    linesFrom [] (line ++ '\n' :: below) = line :: linesFrom [] below := by
  rw [linesFrom_append unbroken, linesFrom, if_pos rfl, List.append_nil, List.reverse_reverse]

/-- The first line goes on up to the first newline. -/
theorem exists_linesFrom_eq_cons (unbroken : '\n' ∉ line) (inside : after ≠ []) :
    ∃ lines, linesFrom [] (line ++ after) = (line ++ lineAfter after) :: lines := by
  induction after using induction_on_lines with
  | last rest unbroken' =>
    refine ⟨[], ?_⟩
    rw [linesFrom_of_unbroken (by simp [unbroken, unbroken']), lineAfter_of_unbroken unbroken']
    simp [inside]
  | further rest below unbroken' _ =>
    refine ⟨linesFrom [] below, ?_⟩
    rw [← List.append_assoc, linesFrom_append_newline (by simp [unbroken, unbroken']),
      lineAfter_append_newline unbroken']

/-- A front of a line is what stands in front of some position on its line. -/
theorem exists_before_of_mem_linesFrom (mem : line ∈ linesFrom [] source) (leads : front <+: line) :
    ∃ before after, source = before ++ after ∧ lineBefore before = front := by
  have of_unbroken {line : List Char} (unbroken : '\n' ∉ line) (leads : front <+: line)
      (below : List Char) :
      ∃ before after, line ++ below = before ++ after ∧ lineBefore before = front := by
    obtain ⟨back, rfl⟩ := leads
    refine ⟨front, back ++ below, List.append_assoc .., lineBefore_of_unbroken fun broken => ?_⟩
    exact unbroken (List.mem_append_left back broken)
  induction source using induction_on_lines with
  | last only unbroken =>
    rw [linesFrom_of_unbroken unbroken] at mem
    split at mem
    · cases mem
    · obtain rfl := List.mem_singleton.mp mem
      simpa using of_unbroken unbroken leads []
  | further first below unbroken ih =>
    rw [linesFrom_append_newline unbroken] at mem
    rcases List.mem_cons.mp mem with rfl | mem
    · exact of_unbroken unbroken leads _
    · obtain ⟨before, after, rfl, shown⟩ := ih mem
      refine ⟨first ++ '\n' :: before, after, ?_, ?_⟩
      · rw [List.append_assoc, List.cons_append]
      · rw [lineBefore_append_newline, shown]

/-! ## Positions -/

/-- A position within the source is found on the line that it is on. -/
theorem position?_of_before (before : List Char) (inside : after ≠ []) :
    position? width (linesFrom [] (before ++ after)) (byteLength before) =
      some (before.count '\n', width (lineBefore before)) := by
  induction before using induction_on_lines with
  | last line unbroken =>
    obtain ⟨lines, split⟩ := exists_linesFrom_eq_cons unbroken inside
    have cut : takeBytes (line ++ lineAfter after) (byteLength line) = some line :=
      takeBytes_eq_some_iff.mpr ⟨_, rfl, rfl⟩
    rw [split, position?, cut, lineBefore_of_unbroken unbroken, List.count_eq_zero.mpr unbroken]
    refine if_pos ?_
    rw [byteLength_append]
    omega
  | further line below unbroken ih =>
    have size : byteLength (line ++ '\n' :: below) = byteLength line + 1 + byteLength below := by
      rw [byteLength_append, byteLength_cons, ← Nat.add_assoc]
      rfl
    rw [List.append_assoc, List.cons_append, linesFrom_append_newline unbroken, position?, size]
    dsimp only
    rw [if_neg (Nat.not_lt.mpr (Nat.le_add_right _ _)), Nat.add_sub_cancel_left, ih,
      lineBefore_append_newline, List.count_append, List.count_cons_self,
      List.count_eq_zero.mpr unbroken, Nat.zero_add]
    rfl

/-- The line that a position is on is the one with its number. -/
theorem getElem?_linesFrom_of_before (before : List Char) (inside : after ≠ []) :
    (linesFrom [] (before ++ after))[before.count '\n']? =
      some (lineBefore before ++ lineAfter after) := by
  induction before using induction_on_lines with
  | last line unbroken =>
    obtain ⟨lines, split⟩ := exists_linesFrom_eq_cons unbroken inside
    rw [split, List.count_eq_zero.mpr unbroken, lineBefore_of_unbroken unbroken]
    rfl
  | further line below unbroken ih =>
    rw [List.append_assoc, List.cons_append, linesFrom_append_newline unbroken, List.count_append,
      List.count_cons_self, List.count_eq_zero.mpr unbroken, Nat.zero_add, List.getElem?_cons_succ,
      ih, lineBefore_append_newline]

/-- The column of a position is the width of a front of a line, if the position is not inside of a
character. -/
theorem column_of_position? (found : position? width lines offset = some (row, column)) :
    column = 0 ∨ ∃ line ∈ lines, ∃ front, front <+: line ∧ column = width front := by
  induction lines generalizing offset row with
  | nil => cases found
  | cons line lines ih =>
    rw [position?] at found
    dsimp only at found
    split at found
    · cases cut : takeBytes line offset with
      | none =>
        rw [cut] at found
        cases found
        exact .inl rfl
      | some front =>
        rw [cut] at found
        cases found
        obtain ⟨back, split, _⟩ := takeBytes_eq_some_iff.mp cut
        exact .inr ⟨line, List.mem_cons_self, front, ⟨back, split.symm⟩, rfl⟩
    · obtain ⟨⟨row', column'⟩, below, same⟩ := Option.map_eq_some_iff.mp found
      cases same
      refine (ih below).imp_right ?_
      rintro ⟨other, mem, shown⟩
      exact ⟨other, List.mem_cons_of_mem _ mem, shown⟩

theorem column_of_position (width : List Char → Nat) (source : List Char) (offset : Nat) :
    (position width (linesFrom [] source) offset).2 = 0 ∨
      ∃ before after, source = before ++ after ∧
        (position width (linesFrom [] source) offset).2 = width (lineBefore before) := by
  have of_front (column : Nat) (shown : ∃ line ∈ linesFrom [] source, ∃ front, front <+: line ∧
      column = width front) :
      ∃ before after, source = before ++ after ∧ column = width (lineBefore before) := by
    obtain ⟨line, mem, front, leads, rfl⟩ := shown
    obtain ⟨before, after, split, same⟩ := exists_before_of_mem_linesFrom mem leads
    exact ⟨before, after, split, congrArg width same.symm⟩
  rw [position]
  cases found : position? width (linesFrom [] source) offset with
  | some place => exact (column_of_position? found).imp_right (of_front _)
  | none =>
    cases last : (linesFrom [] source).getLast? with
    | none => exact .inl rfl
    | some line =>
      exact .inr (of_front _ ⟨line, List.mem_of_getLast? last, line, List.prefix_rfl, rfl⟩)

/-! ## Differences -/

/-- The line and column of a byte position, where `row` lines with `start` bytes stand in front. The
outer `none` is a difference below zero, and the inner one a position past the last line. -/
def positionFrom? (width : List Char → Nat) (offset : Nat) :
    List (List Char) → Nat → Nat → Option (Option (Nat × Nat))
  | [], _, _ => some none
  | line :: lines, row, start =>
    let stop := start + (byteLength line + 1)
    if offset < stop then do
      let inside ← offset.psub start
      return some (row, (takeBytes line inside).elim 0 width)
    else positionFrom? width offset lines (row + 1) stop

/-- A text at the right end of so many columns, if it is not longer. -/
def alignRight? (columns : Nat) (text : String) : Option String :=
  if columns ≤ text.length then some text
  else do
    let room ← columns.psub text.length
    return "".pushn ' ' room ++ text

/-- A line and the message below it, where the carets are set by the width of the whole. -/
def excerptByWidths? (number : Nat) (code : List Char) (column carets : Nat) (message : String) :
    Option String := do
  let number := toString number
  let margin ← alignRight? number.length ""
  let marks ← alignRight? (column + carets) ("".pushn '^' carets)
  return "\n " ++ margin ++ " |\n " ++ number ++ " | " ++ String.ofList code ++ "\n " ++ margin ++
    " | " ++ marks ++ " " ++ message ++ "\n"

/-- The long form of an error by positions and widths. The outer `none` is a difference below
zero. -/
def showByPositions? (width : List Char → Nat) (message : String) (place : Location) :
    Option (Option String) := do
  let source := place.source.toList
  let lines := linesFrom [] source
  let found ← positionFrom? width place.span.start lines 0 0
  let (row, column) := found.getD (lines.length, lines.getLast?.elim 0 width)
  let carets := max 1 ((place.span.select? source).elim 0 width)
  let code := ((lines[row]?).or lines.getLast?).getD []
  if column + carets ≤ maxColumns then
    some <$> excerptByWidths? (row + 1) code column carets message
  else return none

/-- The count of the bytes before a line never passes the position that is looked for. -/
theorem positionFrom?_eq {start : Nat} (reached : start ≤ offset) (lines : List (List Char))
    (row : Nat) :
    positionFrom? width offset lines row start =
      some ((position? width lines (offset - start)).map fun found =>
        (row + found.1, found.2)) := by
  induction lines generalizing row start with
  | nil => rfl
  | cons line lines ih =>
    rw [positionFrom?, position?]
    dsimp only
    by_cases here : offset < start + (byteLength line + 1)
    · have inside : offset - start < byteLength line + 1 := by omega
      rw [if_pos here, if_pos inside, Nat.psub_eq_sub reached]
      rfl
    · have behind : ¬ offset - start < byteLength line + 1 := by omega
      rw [if_neg here, if_neg behind, ih (Nat.le_of_not_lt here), Nat.sub_add_eq, Option.map_map]
      refine congrArg (fun next => some (Option.map next _)) (funext fun found => ?_)
      exact Prod.ext (by simp only [Function.comp_apply]; omega) rfl

theorem alignRight?_eq {columns : Nat} {text : String} (fits : text.length ≤ columns) :
    alignRight? columns text = some ("".pushn ' ' (columns - text.length) ++ text) := by
  rw [alignRight?]
  split
  · next full =>
    rw [Nat.sub_eq_zero_of_le full]
    exact congrArg some (String.empty_append).symm
  · rw [Nat.psub_eq_sub fits]
    rfl

theorem excerptByWidths?_eq (number : Nat) (code : List Char) (column carets : Nat)
    (message : String) :
    excerptByWidths? number code column carets message =
      some (excerpt number code column carets message) := by
  have length : ("".pushn '^' carets).length = carets := by simp
  have margin (columns : Nat) : alignRight? columns "" = some ("".pushn ' ' columns) := by
    rw [alignRight?_eq (Nat.zero_le _), String.append_empty, String.length_empty, Nat.sub_zero]
  have marks : alignRight? (column + carets) ("".pushn '^' carets) =
      some ("".pushn ' ' column ++ "".pushn '^' carets) := by
    rw [alignRight?_eq (by omega), length, Nat.add_sub_cancel]
  unfold excerptByWidths? excerpt
  simp only [margin, marks, Option.bind_eq_bind, Option.bind_some, Option.pure_def,
    String.append_assoc]

/-- No difference goes below zero. -/
theorem showByPositions?_eq (width : List Char → Nat) (message : String) (place : Location) :
    showByPositions? width message place = some (showInSource? width message place) := by
  have found : positionFrom? width place.span.start (linesFrom [] place.source.toList) 0 0 =
      some (position? width (linesFrom [] place.source.toList) place.span.start) := by
    rw [positionFrom?_eq (Nat.zero_le _)]
    simp
  rw [showByPositions?, showInSource?, position]
  simp only [found, excerptByWidths?_eq, Option.bind_eq_bind, Option.bind_some]
  split <;> rfl

/-! ## What is shown -/

section

variable {place : Location}

theorem showInSource?_of_region (width : List Char → Nat) (message : String)
    (whole : place.source.toList = before ++ region ++ after)
    (placed : place.span = ⟨byteLength before, byteLength (before ++ region)⟩)
    (nonempty : region ≠ []) :
    showInSource? width message place =
      if width (lineBefore before) + max 1 (width region) ≤ maxColumns then
        some (excerpt (before.count '\n' + 1) (lineBefore before ++ lineAfter (region ++ after))
          (width (lineBefore before)) (max 1 (width region)) message)
      else none := by
  have inside : region ++ after ≠ [] := by simp [nonempty]
  have selected : place.span.select? (before ++ region ++ after) = some region :=
    Span.select?_eq_some_iff.mpr ⟨before, after, rfl, by rw [placed], by rw [placed]⟩
  rw [List.append_assoc] at whole selected
  have found : position width (linesFrom [] (before ++ (region ++ after))) place.span.start =
      (before.count '\n', width (lineBefore before)) := by
    rw [placed, position, position?_of_before before inside]
    rfl
  have code := getElem?_linesFrom_of_before before inside
  unfold showInSource?
  rw [whole]
  simp only [selected, found, code, Option.elim_some, Option.some_or, Option.getD_some]

/-- The long form of an error. No difference that it is found with goes below zero. It has as many
carets as the region takes columns, and a single one if the region takes none or the span selects
none. The carets stand behind the columns of the line in front of the region, below this line, which
has the number of the newlines before it and one. There is a long form exactly if the last caret is
not beyond the last column. -/
theorem showInSource?_marks (width : List Char → Nat) (message : String) (place : Location) :
    showByPositions? width message place = some (showInSource? width message place) ∧
    (∃ number code column carets,
      (∀ region, place.span.select? place.source.toList = some region →
        carets = max 1 (width region)) ∧
      (place.span.select? place.source.toList = none → carets = 1) ∧
      (column = 0 ∨ ∃ before after, place.source.toList = before ++ after ∧
        column = width (lineBefore before)) ∧
      showInSource? width message place =
        if column + carets ≤ maxColumns then some (excerpt number code column carets message)
        else none) ∧
    ∀ before region after, place.source.toList = before ++ region ++ after →
      place.span = ⟨byteLength before, byteLength (before ++ region)⟩ → region ≠ [] →
      showInSource? width message place =
        if width (lineBefore before) + max 1 (width region) ≤ maxColumns then
          some (excerpt (before.count '\n' + 1) (lineBefore before ++ lineAfter (region ++ after))
            (width (lineBefore before)) (max 1 (width region)) message)
        else none := by
  refine ⟨showByPositions?_eq width message place, ?_, ?_⟩
  · refine ⟨_, _, _, max 1 ((place.span.select? place.source.toList).elim 0 width), ?_, ?_,
      column_of_position width place.source.toList place.span.start, rfl⟩
    · intro region selected
      rw [selected]
      rfl
    · intro nothing
      rw [nothing]
      rfl
  · intro before region after whole placed nonempty
    exact showInSource?_of_region width message whole placed nonempty

/-- A region in the second line, behind a wide character. -/
theorem showInSource?_marks_second_line :
    showInSource? Text.width "boom" ⟨"a\n日[x]\n", ⟨5, 8⟩⟩ =
      some (excerpt 2 "日[x]".toList 2 3 "boom") :=
  ((showInSource?_marks Text.width "boom" ⟨"a\n日[x]\n", ⟨5, 8⟩⟩).2.2 "a\n日".toList
    "[x]".toList "\n".toList (by decide) (by decide) (by decide)).trans (by decide +kernel)

end

/-! ## Lines without room -/

/-- Spaces take one column each. -/
theorem Text.width_replicate_space (count : Nat) : Text.width (List.replicate count ' ') = count := by
  have plain : Head.ofChar ' ' = .plain := by decide +kernel
  have one : columns ' ' = 1 := by decide +kernel
  have measured : measure (List.replicate count ' ') = ⟨count, .plain⟩ := by
    induction count with
    | zero => rfl
    | succ count ih =>
      show Measure.prepend ' ' (measure (List.replicate count ' ')) = _
      rw [ih]
      simp only [Measure.prepend, Measure.prependApart, one, plain]
  rw [width, measured]

/-- Carets behind too many spaces have no room. -/
theorem showInSource?_behind_spaces (message : String) {place : Location} {count : Nat}
    (whole : place.source.toList = List.replicate count ' ' ++ region)
    (placed : place.span = ⟨count, count + byteLength region⟩) (nonempty : region ≠ [])
    (long : maxColumns < count + max 1 (Text.width region)) :
    showInSource? Text.width message place = none := by
  have spaces : '\n' ∉ List.replicate count ' ' := by simp [List.mem_replicate]
  have size : byteLength (List.replicate count ' ') = count := Shape.byteLength_replicate rfl _
  have split : place.source.toList = List.replicate count ' ' ++ region ++ [] := by
    rw [whole, List.append_nil]
  have stands : place.span =
      ⟨byteLength (List.replicate count ' '), byteLength (List.replicate count ' ' ++ region)⟩ := by
    rw [placed, byteLength_append, size]
  rw [showInSource?_of_region Text.width message split stands nonempty,
    lineBefore_of_unbroken spaces, Text.width_replicate_space]
  exact if_neg (Nat.not_le.mpr long)

/-- An error whose carets would end in column 65536 has no long form. -/
theorem Error.pretty?_of_no_room :
    (Error.mk (.custom "boom")
      (some ⟨.ofList (List.replicate 65531 ' ' ++ "\x7b\x7bx\x7d\x7d".toList),
        ⟨65531, 65536⟩⟩)).pretty? = none := by
  have marks : Text.width "\x7b\x7bx\x7d\x7d".toList = 5 := by decide +kernel
  have long : maxColumns < 65531 + max 1 (Text.width "\x7b\x7bx\x7d\x7d".toList) := by
    rw [marks]
    decide
  unfold Error.pretty?
  exact showInSource?_behind_spaces "boom" String.toList_ofList rfl (by decide) long

end Stencil
