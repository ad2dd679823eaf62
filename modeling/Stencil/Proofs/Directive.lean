import Stencil.Directive

/-!
# What a tag says

The first word of a tag decides what it says: `Directive.ofTag?_condition` and the lemmas beside it.
Read backwards, `Directive.words_of_none` and the lemmas behind it tell the words of a tag from what
it says.
-/

namespace Stencil

/-- The words that no placeholder can have as its name. -/
def keywords : List String := ["if", "foreach", "else", "end"]

theorem nonempty?_eq_none_iff {word : String} : nonempty? word = none ↔ word = "" := by
  unfold nonempty?
  split <;> simp_all

theorem nonempty?_of_ne {word : String} (given : word ≠ "") : nonempty? word = some word :=
  if_neg given

namespace Directive

variable {tag : Tag}

theorem ofTag?_condition (word : tag.first = "if") (named : tag.second ≠ "") :
    ofTag? tag = some (.opens (.condition tag.second (tag.third == recursionFlag))) := by
  rw [ofTag?, word]
  simp [nonempty?_of_ne named]

theorem ofTag?_iteration (word : tag.first = "foreach") (named : tag.second ≠ "") :
    ofTag? tag = some (.opens (.iteration tag.second)) := by
  rw [ofTag?, word]
  simp [nonempty?_of_ne named]

theorem ofTag?_otherwise (word : tag.first = "else") : ofTag? tag = some .otherwise := by
  rw [ofTag?, word]
  rfl

theorem ofTag?_ends (word : tag.first = "end") :
    ofTag? tag = some (.ends (nonempty? tag.second)) := by
  rw [ofTag?, word]
  rfl

theorem ofTag?_placeholder (free : tag.first ∉ keywords) :
    ofTag? tag = some (.placeholder tag.first (tag.second == recursionFlag)) := by
  simp only [keywords, List.mem_cons, List.not_mem_nil, or_false, not_or] at free
  obtain ⟨not_if, not_foreach, not_else, not_end⟩ := free
  unfold ofTag?
  split <;> first | contradiction | rfl

/-- A tag says nothing only if it opens a block without a name. -/
theorem words_of_none (said : ofTag? tag = none) :
    (tag.first = "if" ∨ tag.first = "foreach") ∧ tag.second = "" := by
  unfold ofTag? at said
  split at said
  · next word => exact ⟨.inl word, nonempty?_eq_none_iff.mp (Option.map_eq_none_iff.mp said)⟩
  · next word => exact ⟨.inr word, nonempty?_eq_none_iff.mp (Option.map_eq_none_iff.mp said)⟩
  all_goals cases said

theorem words_of_otherwise (said : ofTag? tag = some .otherwise) : tag.first = "else" := by
  unfold ofTag? at said
  split at said
  · simp at said
  · simp at said
  · assumption
  all_goals cases said

theorem words_of_ends {kind : Option String} (said : ofTag? tag = some (.ends kind)) :
    tag.first = "end" ∧ kind = nonempty? tag.second := by
  unfold ofTag? at said
  split at said
  · simp at said
  · simp at said
  · cases said
  · next word =>
    cases said
    exact ⟨word, rfl⟩
  · cases said

theorem words_of_placeholder {name : String} {recursive : Bool}
    (said : ofTag? tag = some (.placeholder name recursive)) :
    tag.first ∉ keywords ∧ name = tag.first := by
  have free : tag.first ∉ keywords := by
    intro keyword
    simp only [keywords, List.mem_cons, List.not_mem_nil, or_false] at keyword
    unfold ofTag? at said
    rcases keyword with word | word | word | word <;> simp [word] at said
  rw [ofTag?_placeholder free] at said
  cases said
  exact ⟨free, rfl⟩

end Directive

end Stencil
