import Stencil.Proofs.Outline.Flatten

/-!
# What the limit on nesting does

The limit is meant to flatten the directives that are too deep, and to leave all others alone.
Past the limit the reader only counts open directives. The count falls with every `end`, also with
one that names another kind of directive and so ends nothing. From then on a tag of a deep
directive can be taken by a directive within the limit.

1. `Draft.Follows.read`: the reader keeps to the flat outline as long as no tag is taken like that.
2. `Draft.not_mem_of_astray`, `Draft.mem_of_astray`: a tag that was taken is missing from the
   compiled tree, and not from the flattened one.
3. `Program.compile_eq_flattened_iff`: so a template is compiled to the flattened tree exactly if
   no tag is taken.
-/

namespace Stencil

namespace Outline

variable {outline other : Outline} {tag : Tag}

theorem alike_reject (outline : Outline) (tag : Tag) :
    Alike (outline.reject tag) (outline.add tag.toBlock) := by
  have noted : Alike (outline.note (.unexpected tag.text)) outline := ⟨rfl, rfl⟩
  exact noted.add _

theorem otherwise_of_not_takes (said : Directive.ofTag? tag = some .otherwise)
    (kept : outline.overflow = 0 → outline.takes tag = false) :
    Alike (outline.otherwise tag) (outline.add tag.toBlock) := by
  unfold otherwise
  split
  · exact ⟨rfl, rfl⟩
  · next inside =>
    have kept := kept (by omega)
    split
    · exact alike_reject outline tag
    · next frame frames same =>
      rw [takes, said, same] at kept
      rw [Option.isSome_eq_false_iff, Option.isNone_iff_eq_none] at kept
      rw [kept]
      exact alike_reject outline tag

theorem ends_of_not_takes {kind : Option String} (said : Directive.ofTag? tag = some (.ends kind))
    (kept : outline.overflow = 0 → outline.takes tag = false) :
    Alike (outline.ends kind tag) (outline.add tag.toBlock) := by
  unfold ends
  split
  · have counted : Alike { outline with overflow := outline.overflow - 1 } outline := ⟨rfl, rfl⟩
    exact counted.add _
  · next inside =>
    have kept := kept (by omega)
    split
    · exact alike_reject outline tag
    · next frame frames same =>
      rw [takes, said, same] at kept
      rw [if_neg (by simpa using kept)]
      exact alike_reject outline tag

/-! ## The count of directives past the limit -/

theorem overflow_reject (outline : Outline) (tag : Tag) :
    (outline.reject tag).overflow = outline.overflow := overflow_add ..

theorem overflow_otherwise (outline : Outline) (tag : Tag) :
    (outline.otherwise tag).overflow = outline.overflow := by
  unfold otherwise
  split
  · exact overflow_add ..
  · split
    · exact overflow_reject ..
    · split
      · rfl
      · exact overflow_reject ..

/-- Every `end` lowers the count. -/
theorem overflow_ends (outline : Outline) (kind : Option String) (tag : Tag) :
    (outline.ends kind tag).overflow = outline.overflow - 1 := by
  unfold ends
  split
  · exact overflow_add ..
  · next inside =>
    have none_over : outline.overflow = outline.overflow - 1 := by omega
    split
    · rw [overflow_reject, ← none_over]
    · split
      · rw [overflow_add]
        exact none_over
      · rw [overflow_reject, ← none_over]

/-- A tag that is taken leaves no text behind. -/
theorem spans_of_takes (limit : Nat) (inside : outline.overflow = 0)
    (taken : outline.takes tag = true) :
    (outline.read limit (.tag tag)).spans = outline.spans := by
  rw [spans_eq_heads, heads_read, yields_tag_eq_nil_iff.mpr (.inr ⟨inside, taken⟩),
    List.append_nil, ← spans_eq_heads]

/-- A tag that is taken is not in the compiled tree, if no other token has its span. -/
theorem not_mem_of_takes {limit : Nat} {before after : List Token} {tag : Tag}
    (distinct : ((before ++ .tag tag :: after).map Token.span).Nodup)
    (inside : (ofTokens limit before).overflow = 0)
    (taken : (ofTokens limit before).takes tag = true) :
    tag.span ∉ Block.spansList (ofTokens limit (before ++ .tag tag :: after)).closed := by
  obtain ⟨early, early_spans, early_among⟩ := spans_foldl_read limit .empty before
  obtain ⟨late, late_spans, late_among⟩ := spans_foldl_read limit
    ((ofTokens limit before).read limit (.tag tag)) after
  rw [spans_of_takes limit inside taken, ofTokens, early_spans] at late_spans
  rw [spansList_closed, ofTokens, List.foldl_append, List.foldl_cons, late_spans]
  rw [List.map_append, List.map_cons, List.nodup_append] at distinct
  obtain ⟨_, later, apart⟩ := distinct
  intro mem
  rcases List.mem_append.mp mem with mem | mem
  · exact apart _ (early_among.subset mem) _ List.mem_cons_self rfl
  · exact (List.nodup_cons.mp later).1 (late_among.subset mem)

end Outline

namespace Draft

/-- An outline that holds what it should, and has not counted too many directives past the
limit. -/
structure Follows (limit : Nat) (draft : Draft) (outline : Outline) : Prop where
  alike : outline.Alike (outlineOf limit draft.top draft.opened)
  overflow : outline.overflow ≤ draft.opened.length - limit

/-- A tag is taken within the limit although a directive past the limit is open. -/
def Astray (limit : Nat) (draft : Draft) (outline : Outline) (tag : Tag) : Prop :=
  limit < draft.opened.length ∧ outline.overflow = 0 ∧ outline.takes tag = true

namespace Follows

variable {limit : Nat} {draft : Draft} {outline : Outline} {tag : Tag}

theorem empty (limit : Nat) : Follows limit empty Outline.empty :=
  ⟨⟨rfl, rfl⟩, Nat.zero_le _⟩

/-- Both keep a tag as text. -/
theorem keep (follows : Follows limit draft outline) {kept : Outline}
    (alike : kept.Alike (outline.add tag.toBlock)) (overflow : kept.overflow ≤ outline.overflow) :
    Follows limit (draft.keep tag) kept := by
  refine ⟨?_, ?_⟩
  · rw [Draft.keep, outlineOf_add_leaf]
    exact alike.trans (follows.alike.add _)
  · rw [Draft.keep, length_opened_add]
    exact Nat.le_trans overflow follows.overflow

theorem add_leaf (follows : Follows limit draft outline) (block : Block) :
    Follows limit (draft.add (.leaf block)) (outline.add block) := by
  refine ⟨?_, ?_⟩
  · rw [outlineOf_add_leaf]
    exact follows.alike.add block
  · rw [length_opened_add, Outline.overflow_add]
    exact follows.overflow

theorem note (follows : Follows limit draft outline) (notice : Notice) :
    Follows limit draft (outline.note notice) :=
  ⟨⟨follows.alike.top, follows.alike.frames⟩, follows.overflow⟩

theorem opens (follows : Follows limit draft outline) (opening : Opening) (tag : Tag) :
    Follows limit { draft with opened := ⟨opening, tag, []⟩ :: draft.opened }
      (outline.opens limit opening tag) := by
  have count : outline.frames.length = min draft.opened.length limit := by
    rw [follows.alike.frames, length_frames_outlineOf]
  have overflow := follows.overflow
  unfold Outline.opens
  split
  · next room =>
    have few : draft.opened.length < limit := by omega
    refine ⟨⟨?_, ?_⟩, ?_⟩
    · rw [outlineOf_opened _ _ few]
      exact follows.alike.top
    · rw [outlineOf_opened _ _ few, follows.alike.frames]
      rfl
    · exact Nat.le_trans overflow (by rw [List.length_cons]; omega)
  · next full =>
    have many : limit ≤ draft.opened.length := by omega
    refine ⟨?_, ?_⟩
    · rw [outlineOf_flat _ _ many]
      refine Outline.Alike.add ⟨?_, ?_⟩ _
      · split <;> exact follows.alike.top
      · split <;> exact follows.alike.frames
    · rw [Outline.keep, Outline.overflow_add, List.length_cons]
      show outline.overflow + 1 ≤ _
      omega

/-! ## Directives that are open -/

variable {top : List Node} {node : OpenNode} {outer : List OpenNode}

/-- Within the limit both have the same innermost directive, and none is past the limit. -/
theorem innermost (follows : Follows limit ⟨top, node :: outer⟩ outline)
    (room : outer.length < limit) :
    ∃ frame, frame = node.frame (limit - (outer.length + 1)) ∧ frame.opening = node.opening ∧
      outline.frames = frame :: (outlineOf limit top outer).frames ∧
      outline.top = (outlineOf limit top outer).top ∧ outline.overflow = 0 := by
  have overflow := follows.overflow
  obtain ⟨same_top, same_frames⟩ := follows.alike
  simp only [outlineOf_opened top node room] at same_top same_frames
  refine ⟨_, rfl, ?_, same_frames, same_top, ?_⟩
  · rw [OpenNode.frame, Node.opening_fill]
    rfl
  · rw [List.length_cons] at overflow
    omega

theorem otherwise (follows : Follows limit draft outline)
    (said : Directive.ofTag? tag = some .otherwise) (clear : ¬ Astray limit draft outline tag) :
    Follows limit (draft.otherwise tag) (outline.otherwise tag) := by
  have count := Nat.le_of_eq (Outline.overflow_otherwise outline tag)
  obtain ⟨top, opened⟩ := draft
  cases opened with
  | nil =>
    refine follows.keep (Outline.otherwise_of_not_takes said fun _ => ?_) count
    rw [Outline.takes, said, follows.alike.frames]
    rfl
  | cons node outer =>
    obtain ⟨opening, opening_tag, nodes⟩ := node
    rcases Nat.lt_or_ge outer.length limit with room | full
    · obtain ⟨frame, same, same_opening, frames, tops, inside⟩ := follows.innermost room
      cases opening with
      | condition name recursive =>
        have divided : frame.otherwise? = some (frame.divide (.divider tag)) := by
          obtain ⟨opening, text, span, thenBranch, inner⟩ := frame
          cases same_opening
          cases thenBranch <;> rfl
        refine ⟨?_, Nat.le_trans count follows.overflow⟩
        have added := outlineOf_add_divider top ⟨.condition name recursive, opening_tag, nodes⟩
          room tag
        rw [← same] at added
        simp only [Draft.otherwise, Draft.add, added, Outline.otherwise, inside, Nat.lt_irrefl,
          if_false, frames, divided]
        exact ⟨tops, rfl⟩
      | iteration name =>
        refine follows.keep (Outline.otherwise_of_not_takes said fun _ => ?_) count
        have whole : frame.otherwise? = none := by
          rw [Frame.otherwise?.eq_def, same_opening]
        rw [Outline.takes, said, frames]
        simp only [whole]
        rfl
    · have alike := Outline.otherwise_of_not_takes said fun inside => Bool.eq_false_iff.mpr
        fun taken => clear ⟨Nat.lt_succ_of_le full, inside, taken⟩
      cases opening with
      | condition name recursive =>
        refine ⟨?_, Nat.le_trans count follows.overflow⟩
        have added := outlineOf_add_divider_flat top ⟨.condition name recursive, opening_tag, nodes⟩
          full tag
        simp only [Draft.otherwise, Draft.add, added]
        exact alike.trans (follows.alike.add _)
      | iteration name => exact follows.keep alike count

theorem ends (follows : Follows limit draft outline) {kind : Option String}
    (said : Directive.ofTag? tag = some (.ends kind)) (clear : ¬ Astray limit draft outline tag) :
    Follows limit (draft.ends kind tag) (outline.ends kind tag) := by
  have count := Outline.overflow_ends outline kind tag
  have fewer : (outline.ends kind tag).overflow ≤ outline.overflow := by omega
  obtain ⟨top, opened⟩ := draft
  cases opened with
  | nil =>
    refine follows.keep (Outline.ends_of_not_takes said fun _ => ?_) fewer
    rw [Outline.takes, said, follows.alike.frames]
    rfl
  | cons node outer =>
    have overflow := follows.overflow
    rw [List.length_cons] at overflow
    have closed_overflow : (outline.ends kind tag).overflow ≤
        (Draft.close ⟨top, node :: outer⟩ (some tag)).opened.length - limit := by
      rw [length_opened_close, List.length_cons]
      omega
    rcases Nat.lt_or_ge outer.length limit with room | full
    · obtain ⟨frame, same, same_opening, frames, tops, inside⟩ := follows.innermost room
      cases ended : node.opening.endedBy kind with
      | true =>
        simp only [Draft.ends, ended, if_true]
        refine ⟨?_, closed_overflow⟩
        rw [outlineOf_close top node room, ← same]
        simp only [Outline.ends, inside, Nat.lt_irrefl, if_false, frames, same_opening, ended,
          if_true]
        rw [← inside]
        have around : Outline.Alike { outline with frames := (outlineOf limit top outer).frames }
            (outlineOf limit top outer) := ⟨tops, rfl⟩
        exact around.add _
      | false =>
        simp only [Draft.ends, ended]
        refine follows.keep (Outline.ends_of_not_takes said fun _ => ?_) fewer
        rw [Outline.takes, said, frames]
        simp only [same_opening, ended]
    · have alike := Outline.ends_of_not_takes said fun inside => Bool.eq_false_iff.mpr
        fun taken => clear ⟨Nat.lt_succ_of_le full, inside, taken⟩
      cases ended : node.opening.endedBy kind with
      | true =>
        simp only [Draft.ends, ended, if_true]
        refine ⟨?_, closed_overflow⟩
        rw [outlineOf_close_flat top node full]
        exact alike.trans (follows.alike.add _)
      | false =>
        simp only [Draft.ends, ended]
        exact follows.keep alike fewer

/-- The reader keeps to the flat outline, unless a tag goes astray. -/
theorem read (follows : Follows limit draft outline) {token : Token}
    (clear : ∀ tag, token = .tag tag → ¬ Astray limit draft outline tag) :
    Follows limit (draft.read token) (outline.read limit token) := by
  cases token with
  | raw text span rejected =>
    suffices ∀ notices : List Notice, Follows limit draft (notices.foldl Outline.note outline) from
      (this _).add_leaf _
    intro notices
    induction notices generalizing outline with
    | nil => exact follows
    | cons notice notices ih => exact ih (follows.note notice) (by simp)
  | tag tag =>
    have clear := clear tag rfl
    rw [Draft.read, Draft.readTag, Outline.read, Outline.readTag]
    cases said : Directive.ofTag? tag with
    | none => exact follows.note _
    | some directive =>
      cases directive with
      | opens opening => exact follows.opens opening tag
      | otherwise => exact follows.otherwise said clear
      | ends kind => exact follows.ends said clear
      | placeholder name recursive => exact follows.add_leaf _

end Follows

/-! ## Whole templates -/

theorem ofTokens_append (before : List Token) (token : Token) :
    ofTokens (before ++ [token]) = (ofTokens before).read token := by
  rw [ofTokens, List.foldl_append]
  rfl

theorem follows_ofTokens {limit : Nat} {tokens : List Token}
    (clear : ∀ before tag after, tokens = before ++ .tag tag :: after →
      ¬ Astray limit (ofTokens before) (Outline.ofTokens limit before) tag) :
    Follows limit (ofTokens tokens) (Outline.ofTokens limit tokens) := by
  suffices ∀ before after, tokens = before ++ after →
      Follows limit (ofTokens before) (Outline.ofTokens limit before) →
      Follows limit (ofTokens tokens) (Outline.ofTokens limit tokens) from
    this [] tokens rfl (Follows.empty limit)
  intro before after split follows
  induction after generalizing before with
  | nil =>
    rw [List.append_nil] at split
    rwa [split]
  | cons token after ih =>
    refine ih (before ++ [token]) (by rw [split, List.append_assoc]; rfl) ?_
    have next : Outline.ofTokens limit (before ++ [token]) =
        (Outline.ofTokens limit before).read limit token := by
      rw [Outline.ofTokens, List.foldl_append]
      rfl
    rw [ofTokens_append, next]
    refine follows.read ?_
    rintro tag rfl
    exact clear before tag after split

/-- The outline of a draft that has counted the directives past the limit. -/
def counted (limit : Nat) (draft : Draft) : Outline :=
  { outlineOf limit draft.top draft.opened with overflow := draft.opened.length - limit }

/-- With the right count no tag goes astray. -/
theorem follows_counted_read (limit : Nat) (draft : Draft) (token : Token) :
    Follows limit (draft.read token) ((draft.counted limit).read limit token) := by
  have follows : Follows limit draft (draft.counted limit) := ⟨⟨rfl, rfl⟩, Nat.le_refl _⟩
  refine follows.read ?_
  rintro tag rfl ⟨past, inside, _⟩
  have none_past : draft.opened.length - limit = 0 := inside
  omega

/-- A tag that goes astray is in the flat outline afterwards. -/
theorem mem_spans_of_astray {limit : Nat} {draft : Draft} {outline : Outline} {tag : Tag}
    (astray : Astray limit draft outline tag) :
    tag.span ∈
      (outlineOf limit (draft.read (.tag tag)).top (draft.read (.tag tag)).opened).spans := by
  obtain ⟨past, _, taken⟩ := astray
  have counted_past : 0 < (draft.counted limit).overflow := Nat.sub_pos_of_lt past
  rw [← (follows_counted_read limit draft (.tag tag)).alike.spans, Outline.read, Outline.readTag]
  rw [Outline.takes] at taken
  split at taken
  · next said _ =>
    rw [said]
    simp only [Outline.otherwise, counted_past, if_true]
    rw [Outline.spans_keep]
    exact List.mem_append_right _ (List.mem_singleton.mpr rfl)
  · next said _ =>
    rw [said]
    simp only [Outline.ends, counted_past, if_true]
    rw [Outline.spans_keep]
    exact List.mem_append_right _ (List.mem_singleton.mpr rfl)
  · cases taken

/-- What is in the flat outline stays there. -/
theorem mem_spans_foldl_read {limit : Nat} {draft : Draft} {span : Span}
    (mem : span ∈ (outlineOf limit draft.top draft.opened).spans) (tokens : List Token) :
    span ∈
      (outlineOf limit (tokens.foldl read draft).top (tokens.foldl read draft).opened).spans := by
  induction tokens generalizing draft with
  | nil => exact mem
  | cons token tokens ih =>
    refine ih ?_
    rw [← (follows_counted_read limit draft token).alike.spans]
    have kept : span ∈ (draft.counted limit).spans := mem
    rcases Outline.spans_read limit (draft.counted limit) token with same | more
    · rwa [same]
    · rw [more]
      exact List.mem_append_left _ kept

/-- A tag that goes astray is in the flattened tree. -/
theorem mem_of_astray {limit : Nat} {before : List Token} {outline : Outline} {tag : Tag}
    (astray : Astray limit (ofTokens before) outline tag) (after : List Token) :
    tag.span ∈ Block.spansList ((Node.flattenList limit
      (ofTokens (before ++ .tag tag :: after)).closed).flatMap Node.blocks) := by
  rw [← closed_outlineOf, Outline.spansList_closed, ofTokens, List.foldl_append, List.foldl_cons]
  exact mem_spans_foldl_read (mem_spans_of_astray astray) after

/-- A tag that goes astray is not in the compiled tree, if no other token has its span. -/
theorem not_mem_of_astray {limit : Nat} {before after : List Token} {tag : Tag} {draft : Draft}
    (distinct : ((before ++ .tag tag :: after).map Token.span).Nodup)
    (astray : Astray limit draft (Outline.ofTokens limit before) tag) :
    tag.span ∉ Block.spansList (Outline.ofTokens limit (before ++ .tag tag :: after)).closed :=
  Outline.not_mem_of_takes distinct astray.2.1 astray.2.2

end Draft

/-! ## Compiling -/

namespace Program

/-- The nodes of a source, read without a limit. -/
def unlimited (source : String) : List Node :=
  (Draft.ofTokens (Token.ofSource source)).closed

theorem blocks_compile (source : String) :
    (compile source).value.blocks =
      (Outline.ofTokens maxNesting (Token.ofSource source)).closed := rfl

/-- The nodes of the unlimited reading are the tree that the parser gives under every limit that is
not reached. With the limit, a template is compiled to the flattened tree exactly if no tag is taken
as `else` or `end` by a directive within the limit where a directive past the limit is open. -/
theorem compile_eq_flattened_iff (source : String) :
    (∀ limit, (Token.ofSource source).length ≤ limit →
      (Outline.ofTokens limit (Token.ofSource source)).closed =
        (unlimited source).flatMap Node.blocks) ∧
    ((compile source).value.blocks =
        (Node.flattenList maxNesting (unlimited source)).flatMap Node.blocks ↔
      ∀ before tag after, Token.ofSource source = before ++ .tag tag :: after →
        ¬ Draft.Astray maxNesting (Draft.ofTokens before) (Outline.ofTokens maxNesting before)
          tag) := by
  have of_clear : ∀ limit,
      (∀ before tag after, Token.ofSource source = before ++ .tag tag :: after →
        ¬ Draft.Astray limit (Draft.ofTokens before) (Outline.ofTokens limit before) tag) →
      (Outline.ofTokens limit (Token.ofSource source)).closed =
        (Node.flattenList limit (unlimited source)).flatMap Node.blocks := by
    intro limit clear
    rw [(Draft.follows_ofTokens clear).alike.closed, Draft.closed_outlineOf]
    rfl
  refine ⟨fun limit enough => ?_, fun same before tag after split astray => ?_, of_clear maxNesting⟩
  · rw [of_clear limit, unlimited, Draft.flattenList_of_length_le enough]
    rintro before tag after split ⟨past, _⟩
    have few := (Draft.low_ofTokens before).length_opened_le
    rw [split, List.length_append] at enough
    omega
  · have distinct := (Token.covers_ofSource source).spans_nodup
    have there := Draft.mem_of_astray astray after
    rw [split] at distinct
    have missing := Draft.not_mem_of_astray distinct astray
    rw [← split] at there missing
    rw [← blocks_compile, same] at missing
    exact missing there

/-- Inside of 32 conditions, an `end` of another kind ends nothing, and the plain `end` behind it
ends the condition that is too deep. The reader has it end the condition around that one. -/
theorem compile_ne_flattened :
    (compile (String.join (List.replicate maxNesting "\x7b\x7bif a\x7d\x7d") ++
        "\x7b\x7bif b\x7d\x7d\x7b\x7bend foreach\x7d\x7d\x7b\x7bend\x7d\x7dx")).value.blocks ≠
      (Node.flattenList maxNesting
        (unlimited (String.join (List.replicate maxNesting "\x7b\x7bif a\x7d\x7d") ++
          "\x7b\x7bif b\x7d\x7d\x7b\x7bend foreach\x7d\x7d\x7b\x7bend\x7d\x7dx"))).flatMap
        Node.blocks := by
  rw [blocks_compile, unlimited, Token.ofSource, String.toList_append, String.toList_join]
  decide +kernel

end Program

end Stencil
