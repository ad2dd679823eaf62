import Mathlib.Data.List.Induction
import Stencil.Proofs.Directive
import Stencil.Proofs.Outline.Limit

/-!
# What one token does to an outline

A token adds a block, opens, divides or ends a directive, or is passed over. Every invariant of the
open directives is a case analysis on this (`Outline.Moves`).

1. `Outline.moves_read`: what reading a token does.
2. `Outline.stages_sublist`: the open directives are those of different tokens, in their order.
3. `Outline.divided_iff`: a condition that is open has been divided exactly if one of the tokens so
   far was an `else` while the condition was the innermost open directive.
-/

namespace Stencil

/-- What stays of a directive while blocks are added to it: what it opened, where, and whether it
has been divided. -/
def Frame.stage (frame : Frame) : Opening × Span × Bool :=
  (frame.opening, frame.span, frame.thenBranch.isSome)

namespace Outline

/-- The innermost open directive is the condition whose opening tag has this span, and no directive
is open past the limit. -/
def InCondition (outline : Outline) (span : Span) : Prop :=
  outline.overflow = 0 ∧ ∃ frame outer name recursive, outline.frames = frame :: outer ∧
    frame.opening = .condition name recursive ∧ frame.span = span

/-- One of the tokens is an `else` of the condition at this span. -/
def Divided (limit : Nat) (tokens : List Token) (span : Span) : Prop :=
  ∃ before tag after, tokens = before ++ .tag tag :: after ∧ tag.first = "else" ∧
    (ofTokens limit before).InCondition span

/-- A token is an `else` that the innermost directive takes. -/
def Divides (outline : Outline) (token : Token) : Prop :=
  ∃ tag span, token = .tag tag ∧ tag.first = "else" ∧ outline.InCondition span

/-! ## Single tokens -/

/-- What a token does to the blocks and the open directives. -/
inductive Moves (limit : Nat) (outline : Outline) (token : Token) (later : Outline) : Prop
  /-- The token is passed over. -/
  | passes (same : later.Alike outline) (kept : ¬ outline.Divides token)
  | adds {block : Block} (same : later.Alike (outline.add block))
      (said : outline.yields limit token = block.heads) (kept : ¬ outline.Divides token)
  | opens {frame : Frame} (same : later.Alike { outline with frames := frame :: outline.frames })
      (placed : frame.span = token.span) (whole : frame.thenBranch = none)
      (said : outline.yields limit token = frame.heads) (kept : ¬ outline.Divides token)
  | divides {frame half : Frame} {outer : List Frame} (opened : outline.frames = frame :: outer)
      (divided : frame.otherwise? = some half)
      (same : later.Alike { outline with frames := half :: outer })
      (taken : outline.Divides token)
  | ends {frame : Frame} {outer : List Frame} (opened : outline.frames = frame :: outer)
      (same : later.Alike ({ outline with frames := outer }.add frame.close))
      (kept : ¬ outline.Divides token)

variable {limit : Nat} {outline : Outline} {tag : Tag}

theorem not_divides (said : Directive.ofTag? tag ≠ some .otherwise) :
    ¬ outline.Divides (.tag tag) := by
  rintro ⟨_, _, ⟨⟩, word, _⟩
  exact said (Directive.ofTag?_otherwise word)

/-- An `else` is taken exactly if the innermost directive is a condition. -/
theorem exists_inCondition_iff (word : tag.first = "else") :
    (∃ span, outline.InCondition span) ↔ outline.overflow = 0 ∧ outline.takes tag = true := by
  rw [takes, Directive.ofTag?_otherwise word]
  constructor
  · rintro ⟨span, inside, frame, outer, name, recursive, opened, condition, _⟩
    refine ⟨inside, ?_⟩
    rw [opened]
    obtain ⟨opening, text, span, thenBranch, blocks⟩ := frame
    cases condition
    cases thenBranch <;> rfl
  · rintro ⟨inside, taken⟩
    split at taken
    · next frame outer _ opened =>
      obtain ⟨opening, text, span, thenBranch, blocks⟩ := frame
      cases opening with
      | condition name recursive =>
        exact ⟨span, inside, _, outer, name, recursive, opened, rfl, rfl⟩
      | iteration name => cases taken
    · next said _ => cases said
    · cases taken

theorem divides_iff (word : tag.first = "else") :
    outline.Divides (.tag tag) ↔ outline.overflow = 0 ∧ outline.takes tag = true := by
  rw [← exists_inCondition_iff word]
  constructor
  · rintro ⟨_, span, _, _, inside⟩
    exact ⟨span, inside⟩
  · rintro ⟨span, inside⟩
    exact ⟨tag, span, rfl, word, inside⟩

theorem alike_foldl_note (notices : List Notice) : (notices.foldl note outline).Alike outline := by
  induction notices generalizing outline with
  | nil => exact ⟨rfl, rfl⟩
  | cons notice notices ih => exact ih.trans ⟨rfl, rfl⟩

theorem moves_opens {opening : Opening} (said : Directive.ofTag? tag = some (.opens opening)) :
    Moves limit outline (.tag tag) (outline.opens limit opening tag) := by
  have kept : ¬ outline.Divides (.tag tag) := not_divides (by simp [said])
  unfold opens
  split
  · next room =>
    refine .opens ⟨rfl, rfl⟩ rfl rfl ?_ kept
    rw [yields, said, Frame.heads_ofTag]
    exact if_pos room
  · next full =>
    have noted : Alike { (if outline.overflow = 0 then outline.note (.nestedTooDeep limit tag.text)
        else outline) with overflow := outline.overflow + 1 } outline := by
      split <;> exact ⟨rfl, rfl⟩
    refine .adds (noted.add _) ?_ kept
    rw [yields, said]
    exact if_neg full

theorem moves_otherwise (said : Directive.ofTag? tag = some .otherwise) :
    Moves limit outline (.tag tag) (outline.otherwise tag) := by
  have word := Directive.words_of_otherwise said
  by_cases taken : outline.Divides (.tag tag)
  · obtain ⟨inside, takes⟩ := (divides_iff word).mp taken
    rw [Outline.takes, said] at takes
    unfold otherwise
    rw [if_neg (by omega)]
    cases opened : outline.frames with
    | nil => simp [opened] at takes
    | cons frame outer =>
      rw [opened] at takes
      obtain ⟨half, divided⟩ := Option.isSome_iff_exists.mp takes
      simp only [divided]
      exact .divides opened divided ⟨rfl, rfl⟩ taken
  · rw [divides_iff word] at taken
    refine .adds (otherwise_of_not_takes said fun inside => ?_) ?_ (by rwa [divides_iff word])
    · exact Bool.eq_false_iff.mpr fun takes => taken ⟨inside, takes⟩
    · rw [yields, said]
      exact if_neg taken

theorem moves_ends {kind : Option String} (said : Directive.ofTag? tag = some (.ends kind)) :
    Moves limit outline (.tag tag) (outline.ends kind tag) := by
  have kept : ¬ outline.Divides (.tag tag) := not_divides (by simp [said])
  by_cases taken : outline.overflow = 0 ∧ outline.takes tag = true
  · obtain ⟨inside, takes⟩ := taken
    rw [Outline.takes, said] at takes
    unfold ends
    rw [if_neg (by omega)]
    cases opened : outline.frames with
    | nil => simp [opened] at takes
    | cons frame outer =>
      rw [opened] at takes
      simp only [takes, if_true]
      exact .ends opened ⟨rfl, rfl⟩ kept
  · refine .adds (ends_of_not_takes said fun inside => ?_) ?_ kept
    · exact Bool.eq_false_iff.mpr fun takes => taken ⟨inside, takes⟩
    · rw [yields, said]
      exact if_neg taken

/-- What reading a token does. -/
theorem moves_read (limit : Nat) (outline : Outline) (token : Token) :
    Moves limit outline token (outline.read limit token) := by
  cases token with
  | raw text span rejected =>
    exact .adds ((alike_foldl_note _).add _) rfl (fun ⟨_, _, same, _⟩ => by cases same)
  | tag tag =>
    rw [read, readTag]
    cases said : Directive.ofTag? tag with
    | none => exact .passes ⟨rfl, rfl⟩ (not_divides (by simp [said]))
    | some directive =>
      cases directive with
      | opens opening => exact moves_opens said
      | otherwise => exact moves_otherwise said
      | ends kind => exact moves_ends said
      | placeholder name recursive =>
        refine .adds ⟨rfl, rfl⟩ ?_ (not_divides (by simp [said]))
        rw [yields, said]
        rfl

/-! ## Open directives -/

/-- What stays of the open directives, innermost first. -/
def stages (outline : Outline) : List (Opening × Span × Bool) :=
  outline.frames.map Frame.stage

theorem Alike.stages {later other : Outline} (same : later.Alike other) :
    later.stages = other.stages := by
  rw [Outline.stages, Outline.stages, same.frames]

theorem stages_add (outline : Outline) (block : Block) :
    (outline.add block).stages = outline.stages := by
  obtain ⟨top, frames, overflow, notices⟩ := outline
  cases frames <;> rfl

theorem inCondition_iff {span : Span} : outline.InCondition span ↔ outline.overflow = 0 ∧
    ∃ name recursive divided outer,
      outline.stages = (.condition name recursive, span, divided) :: outer := by
  obtain ⟨top, frames, overflow, notices⟩ := outline
  refine and_congr_right fun _ => ?_
  constructor
  · rintro ⟨frame, outer, name, recursive, rfl, condition, rfl⟩
    exact ⟨name, recursive, _, _, by rw [stages, List.map_cons, Frame.stage, condition]⟩
  · rintro ⟨name, recursive, divided, outer, same⟩
    cases frames with
    | nil => cases same
    | cons frame frames =>
      obtain ⟨opening, text, span, thenBranch, blocks⟩ := frame
      cases same
      exact ⟨_, _, name, recursive, rfl, rfl, rfl⟩

/-- What a token does to the open directives. -/
theorem Moves.stages_cases {token : Token} {later : Outline}
    (moves : Moves limit outline token later) :
    (later.stages = outline.stages ∧ ¬ outline.Divides token) ∨
      (∃ opening, later.stages = (opening, token.span, false) :: outline.stages ∧
        ¬ outline.Divides token) ∨
      (∃ name recursive span divided outer,
        outline.stages = (.condition name recursive, span, divided) :: outer ∧
          later.stages = (.condition name recursive, span, true) :: outer ∧
          outline.Divides token) ∨
      ∃ stage, outline.stages = stage :: later.stages ∧ ¬ outline.Divides token := by
  cases moves with
  | passes same kept => exact .inl ⟨same.stages, kept⟩
  | adds same _ kept => exact .inl ⟨by rw [same.stages, stages_add], kept⟩
  | @opens frame same placed whole _ kept =>
    refine .inr (.inl ⟨frame.opening, ?_, kept⟩)
    rw [same.stages, ← placed]
    simp only [stages, List.map_cons, Frame.stage, whole, Option.isSome_none]
  | @divides frame half outer opened divided same taken =>
    refine .inr (.inr (.inl ?_))
    obtain ⟨opening, text, span, thenBranch, blocks⟩ := frame
    cases opening with
    | condition name recursive =>
      refine ⟨name, recursive, span, thenBranch.isSome, outer.map Frame.stage, ?_, ?_, taken⟩
      · rw [stages, opened, List.map_cons, Frame.stage]
      · rw [same.stages]
        cases thenBranch <;> cases divided <;> rfl
    | iteration name => cases divided
  | @ends frame outer opened same kept =>
    refine .inr (.inr (.inr ⟨frame.stage, ?_, kept⟩))
    rw [same.stages, stages_add, stages, opened, List.map_cons, stages]

theorem ofTokens_append_cons (limit : Nat) (before : List Token) (token : Token)
    (after : List Token) : ofTokens limit (before ++ token :: after) =
      after.foldl (read limit) ((ofTokens limit before).read limit token) := by
  rw [ofTokens, List.foldl_append]
  rfl

/-- The open directives are those of different tokens, in their order. -/
theorem stages_sublist (limit : Nat) (tokens : List Token) :
    ((ofTokens limit tokens).stages.map (·.2.1)).Sublist (tokens.map Token.span).reverse := by
  induction tokens using List.reverseRecOn with
  | nil => exact .slnil
  | append_singleton tokens token ih =>
    have moved := (moves_read limit (ofTokens limit tokens) token).stages_cases
    rw [ofTokens_append_cons, List.foldl_nil, List.map_append, List.reverse_append,
      List.map_singleton, List.reverse_singleton, List.singleton_append]
    rcases moved with ⟨same, _⟩ | ⟨opening, same, _⟩ | ⟨_, _, _, _, _, before, same, _⟩ |
      ⟨stage, before, _⟩
    · rw [same]
      exact ih.cons _
    · rw [same]
      exact ih.cons_cons _
    · rw [before] at ih
      rw [same]
      exact ih.cons _
    · rw [before, List.map_cons] at ih
      exact ((List.sublist_cons_self _ _).trans ih).cons _

/-- A condition that is divided was opened by one of the tokens. -/
theorem mem_of_divided {tokens : List Token} {span : Span} (divided : Divided limit tokens span) :
    span ∈ tokens.map Token.span := by
  obtain ⟨before, tag, after, rfl, _, inside⟩ := divided
  obtain ⟨_, name, recursive, _, outer, opened⟩ := inCondition_iff.mp inside
  have among := (stages_sublist limit before).subset
    (show span ∈ _ by rw [opened]; exact List.mem_cons_self)
  rw [List.mem_reverse] at among
  rw [List.map_append]
  exact List.mem_append_left _ among

theorem divided_append_singleton {tokens : List Token} {token : Token} {span : Span} :
    Divided limit (tokens ++ [token]) span ↔ Divided limit tokens span ∨
      ∃ tag, token = .tag tag ∧ tag.first = "else" ∧ (ofTokens limit tokens).InCondition span := by
  constructor
  · rintro ⟨before, tag, after, split, word, inside⟩
    rcases List.eq_nil_or_concat after with rfl | ⟨after, last, rfl⟩
    · obtain ⟨rfl, same⟩ := List.append_inj' split rfl
      exact .inr ⟨tag, by simpa using same, word, inside⟩
    · rw [List.concat_eq_append, ← List.cons_append, ← List.append_assoc] at split
      obtain ⟨rfl, _⟩ := List.append_inj' split rfl
      exact .inl ⟨before, tag, after, rfl, word, inside⟩
  · rintro (⟨before, tag, after, rfl, word, inside⟩ | ⟨tag, rfl, word, inside⟩)
    · exact ⟨before, tag, after ++ [token], by simp, word, inside⟩
    · exact ⟨tokens, tag, [], rfl, word, inside⟩

theorem divided_append_of_not_divides {tokens : List Token} {token : Token} {span : Span}
    (kept : ¬ (ofTokens limit tokens).Divides token) :
    Divided limit (tokens ++ [token]) span ↔ Divided limit tokens span := by
  rw [divided_append_singleton]
  refine or_iff_left ?_
  rintro ⟨tag, same, word, inside⟩
  exact kept ⟨tag, span, same, word, inside⟩

/-- An open condition has been divided exactly if one of the tokens so far is an `else` of it. -/
theorem divided_iff {tokens : List Token} (distinct : (tokens.map Token.span).Nodup)
    {name : String} {recursive divided : Bool} {span : Span}
    (opened : (.condition name recursive, span, divided) ∈ (ofTokens limit tokens).stages) :
    divided = true ↔ Divided limit tokens span := by
  induction tokens using List.reverseRecOn generalizing name recursive divided span with
  | nil => cases opened
  | append_singleton tokens token ih =>
    rw [List.map_append, List.map_singleton, List.nodup_append] at distinct
    obtain ⟨distinct, _, apart⟩ := distinct
    have ih := @ih distinct
    have moved := (moves_read limit (ofTokens limit tokens) token).stages_cases
    rw [ofTokens_append_cons, List.foldl_nil] at opened
    rcases moved with ⟨same, kept⟩ | ⟨opening, same, kept⟩ |
      ⟨name', recursive', span', divided', outer, before, same, taken⟩ | ⟨stage, before, kept⟩
    · rw [divided_append_of_not_divides kept]
      rw [same] at opened
      exact ih opened
    · rw [divided_append_of_not_divides kept]
      rw [same] at opened
      rcases List.mem_cons.mp opened with new | old
      · cases new
        refine iff_of_false Bool.false_ne_true fun was => ?_
        exact apart _ (mem_of_divided was) _ (List.mem_singleton_self _) rfl
      · exact ih old
    · obtain ⟨tag, inner, rfl, word, inside⟩ := taken
      have inside' := inCondition_iff.mp inside
      rw [before] at inside'
      obtain ⟨_, _, _, _, _, ⟨⟩⟩ := inside'
      rw [same] at opened
      rcases List.mem_cons.mp opened with new | old
      · cases new
        exact iff_of_true rfl (divided_append_singleton.mpr (.inr ⟨tag, rfl, word, inside⟩))
      · have differs : span ≠ span' := by
          rintro rfl
          have spans := (stages_sublist limit tokens).nodup
            ((List.reverse_perm _).nodup_iff.mpr distinct)
          rw [before, List.map_cons, List.nodup_cons] at spans
          exact spans.1 (List.mem_map.mpr ⟨_, old, rfl⟩)
        rw [ih (before ▸ List.mem_cons_of_mem _ old), divided_append_singleton]
        refine (or_iff_left ?_).symm
        rintro ⟨_, _, _, other⟩
        obtain ⟨_, _, _, _, _, first⟩ := inCondition_iff.mp other
        rw [before] at first
        cases first
        exact differs rfl
    · rw [divided_append_of_not_divides kept]
      exact ih (before ▸ List.mem_cons_of_mem _ opened)

/-- The innermost directive, where it is a condition, and whether it has been divided. -/
theorem exists_frame_of_inCondition {tokens : List Token}
    (distinct : (tokens.map Token.span).Nodup) {span : Span}
    (inside : (ofTokens limit tokens).InCondition span) :
    ∃ frame outer name recursive, (ofTokens limit tokens).frames = frame :: outer ∧
      frame.opening = .condition name recursive ∧ frame.span = span ∧
      (frame.thenBranch.isSome = true ↔ Divided limit tokens span) := by
  obtain ⟨_, frame, outer, name, recursive, opened, condition, placed⟩ := inside
  have stage : (.condition name recursive, span, frame.thenBranch.isSome) ∈
      (ofTokens limit tokens).stages := by
    rw [stages, opened, ← condition, ← placed]
    exact List.mem_cons_self
  exact ⟨frame, outer, name, recursive, opened, condition, placed, divided_iff distinct stage⟩

end Outline

end Stencil
