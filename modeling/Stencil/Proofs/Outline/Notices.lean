import Stencil.Outline

/-!
# What compiling notes

Reading a token notes the unbalanced tags in it, or one mistake about a tag. From this it follows
what compiling a template notes:

1. `Program.severity_of_mem_compile`: nothing but mistakes.
2. `Program.unbalanced_compile`: each unbalanced tag once, in the order of the source.
-/

namespace Stencil

def Token.rejected : Token → List String
  | .raw _ _ rejected => rejected
  | .tag _ => []

/-- The tag, if a notice says that it is unbalanced. -/
def Notice.unbalanced? : Notice → Option String
  | .unbalanced tag => some tag
  | _ => none

namespace Outline

theorem notices_add (outline : Outline) (block : Block) :
    (outline.add block).notices = outline.notices := by
  unfold add
  split <;> rfl

/-- What reading notes: nothing, or one of the mistakes that a tag can be. -/
inductive NotesOn (limit : Nat) (tag : String) (notices : List Notice) : List Notice → Prop where
  | nothing : NotesOn limit tag notices notices
  | nameless : NotesOn limit tag notices (.nameless tag :: notices)
  | nestedTooDeep : NotesOn limit tag notices (.nestedTooDeep limit tag :: notices)
  | unexpected : NotesOn limit tag notices (.unexpected tag :: notices)

theorem notesOn_keep (limit : Nat) (outline : Outline) (tag : Tag) :
    NotesOn limit tag.text outline.notices (outline.keep tag).notices := by
  rw [keep, notices_add]
  exact .nothing

theorem notesOn_reject (limit : Nat) (outline : Outline) (tag : Tag) :
    NotesOn limit tag.text outline.notices (outline.reject tag).notices := by
  rw [reject, keep, notices_add]
  exact .unexpected

theorem notesOn_opens (limit : Nat) (outline : Outline) (opening : Opening) (tag : Tag) :
    NotesOn limit tag.text outline.notices (outline.opens limit opening tag).notices := by
  unfold opens
  split
  · exact .nothing
  · rw [keep, notices_add]
    split
    · exact .nestedTooDeep
    · exact .nothing

theorem notesOn_otherwise (limit : Nat) (outline : Outline) (tag : Tag) :
    NotesOn limit tag.text outline.notices (outline.otherwise tag).notices := by
  unfold otherwise
  split
  · exact notesOn_keep limit outline tag
  · split
    · exact notesOn_reject limit outline tag
    · split
      · exact .nothing
      · exact notesOn_reject limit outline tag

theorem notesOn_ends (limit : Nat) (outline : Outline) (kind : Option String) (tag : Tag) :
    NotesOn limit tag.text outline.notices (outline.ends kind tag).notices := by
  unfold ends
  split
  · rw [keep, notices_add]
    exact .nothing
  · split
    · exact notesOn_reject limit outline tag
    · split
      · rw [notices_add]
        exact .nothing
      · exact notesOn_reject limit outline tag

/-- Reading a tag notes at most one mistake. -/
theorem notesOn_readTag (limit : Nat) (outline : Outline) (tag : Tag) :
    NotesOn limit tag.text outline.notices (outline.readTag limit tag).notices := by
  unfold readTag
  split
  · exact .nameless
  · exact notesOn_opens limit outline _ tag
  · exact notesOn_otherwise limit outline tag
  · exact notesOn_ends limit outline _ tag
  · rw [notices_add]
    exact .nothing

/-- Reading raw text notes the unbalanced tags in it. -/
theorem notices_read_raw (limit : Nat) (outline : Outline) (text : String) (span : Span)
    (rejected : List String) :
    (outline.read limit (.raw text span rejected)).notices =
      (rejected.map Notice.unbalanced).reverse ++ outline.notices := by
  rw [read, notices_add]
  generalize rejected.map Notice.unbalanced = notices
  induction notices generalizing outline with
  | nil => rfl
  | cons notice notices ih =>
    rw [List.foldl_cons, ih, note, List.reverse_cons, List.append_assoc]
    rfl

/-- What has been noted stays. -/
theorem notices_suffix_read (limit : Nat) (outline : Outline) (token : Token) :
    outline.notices <:+ (outline.read limit token).notices := by
  cases token with
  | raw text span rejected =>
    rw [notices_read_raw]
    exact List.suffix_append ..
  | tag tag =>
    have noted := notesOn_readTag limit outline tag
    rw [read]
    generalize (outline.readTag limit tag).notices = notices at noted
    cases noted with
    | nothing => exact List.suffix_rfl
    | nameless | nestedTooDeep | unexpected => exact List.suffix_cons ..

theorem notices_suffix_foldl_read (limit : Nat) (outline : Outline) (tokens : List Token) :
    outline.notices <:+ (tokens.foldl (read limit) outline).notices := by
  induction tokens generalizing outline with
  | nil => exact List.suffix_rfl
  | cons token tokens ih => exact (notices_suffix_read limit outline token).trans (ih _)

/-- The unbalanced tags noted so far, in the order of the source. -/
def unbalanced (outline : Outline) : List String :=
  outline.notices.reverse.filterMap Notice.unbalanced?

theorem unbalanced_read (limit : Nat) (outline : Outline) (token : Token) :
    (outline.read limit token).unbalanced = outline.unbalanced ++ token.rejected := by
  cases token with
  | raw text span rejected =>
    have all : (rejected.map Notice.unbalanced).filterMap Notice.unbalanced? = rejected := by
      rw [List.filterMap_map]
      exact List.filterMap_some
    rw [unbalanced, notices_read_raw, List.reverse_append, List.reverse_reverse,
      List.filterMap_append, all]
    rfl
  | tag tag =>
    have noted := notesOn_readTag limit outline tag
    rw [unbalanced, read]
    generalize (outline.readTag limit tag).notices = notices at noted
    cases noted <;> simp [unbalanced, Token.rejected, Notice.unbalanced?]

def Warned (outline : Outline) : Prop :=
  ∀ notice ∈ outline.notices, notice.severity = .warn

theorem Warned.read {outline : Outline} (warned : Warned outline) (limit : Nat) (token : Token) :
    Warned (outline.read limit token) := by
  cases token with
  | raw text span rejected =>
    rw [Warned, notices_read_raw]
    intro notice mem
    rcases List.mem_append.mp mem with mem | mem
    · obtain ⟨tag, _, rfl⟩ := List.mem_map.mp (List.mem_reverse.mp mem)
      rfl
    · exact warned notice mem
  | tag tag =>
    have noted := notesOn_readTag limit outline tag
    rw [Warned, Outline.read]
    generalize (outline.readTag limit tag).notices = notices at noted
    cases noted with
    | nothing => exact warned
    | nameless | nestedTooDeep | unexpected => exact List.forall_mem_cons.mpr ⟨rfl, warned⟩

theorem Warned.ofTokens (limit : Nat) (tokens : List Token) : Warned (ofTokens limit tokens) := by
  suffices ∀ outline, Warned outline → Warned (tokens.foldl (Outline.read limit) outline) from
    this _ fun notice mem => by cases mem
  induction tokens with
  | nil => exact fun _ warned => warned
  | cons token tokens ih => exact fun _ warned => ih _ (warned.read limit token)

theorem unbalanced_ofTokens (limit : Nat) (tokens : List Token) :
    (ofTokens limit tokens).unbalanced = tokens.flatMap Token.rejected := by
  suffices ∀ outline, (tokens.foldl (Outline.read limit) outline).unbalanced =
      outline.unbalanced ++ tokens.flatMap Token.rejected from this empty
  induction tokens with
  | nil => simp
  | cons token tokens ih =>
    intro outline
    rw [List.foldl_cons, ih, unbalanced_read, List.flatMap_cons, List.append_assoc]

end Outline

/-- Compiling a template notes mistakes only. -/
theorem Program.severity_of_mem_compile {source : String} {notice : Notice}
    (mem : notice ∈ (compile source).notices) : notice.severity = .warn := by
  have warned := Outline.Warned.ofTokens maxNesting (Token.ofSource source)
  rw [compile, Outline.allNotices, List.mem_reverse, List.mem_append] at mem
  rcases mem with mem | mem
  · split at mem
    · cases mem
    · rw [List.mem_singleton] at mem
      rw [mem]
      rfl
  · exact warned notice mem

/-- Compiling a template notes each of its unbalanced tags once, in the order of the source. -/
theorem Program.unbalanced_compile (source : String) :
    (compile source).notices.filterMap Notice.unbalanced? =
      (Token.ofSource source).flatMap Token.rejected := by
  rw [← Outline.unbalanced_ofTokens maxNesting, compile, Outline.allNotices, List.reverse_append,
    List.filterMap_append, Outline.unbalanced]
  split <;> simp [Notice.unbalanced?]

end Stencil
