import Stencil.Text.Html

/-!
# Escaped texts

What an escaped text looks like, and what escaping leaves alone.

1. `escapeHtml_eq_iff`: escaping tells the words that need no escape from all others.
2. `harmless_escaped`: an escaped text holds no markup.
3. `Respects.takeWhile_escaped`, `Respects.dropWhile_escaped`: where entities are cut like the
   characters that they stand for, a text may be cut before it is escaped or afterwards.
-/

namespace Stencil.Text

/-- The characters that are escaped. -/
def specials : List Char := ['&', '<', '>', '"']

def entities : List String := ["&amp;", "&lt;", "&gt;", "&quot;"]

def escaped (text : List Char) : List Char := text.flatMap escapeChar

@[simp] theorem escaped_nil : escaped [] = [] := rfl

@[simp] theorem escaped_cons (c : Char) (text : List Char) :
    escaped (c :: text) = escapeChar c ++ escaped text := rfl

@[simp] theorem escaped_append (front back : List Char) :
    escaped (front ++ back) = escaped front ++ escaped back := List.flatMap_append

/-- A character is left as it is, or an entity stands for it. -/
theorem escapeChar_cases (c : Char) :
    c ∉ specials ∧ escapeChar c = [c] ∨
      c ∈ specials ∧ ∃ entity ∈ entities, escapeChar c = entity.toList := by
  unfold escapeChar entity?
  split
  · exact .inr ⟨by decide, "&amp;", by decide, rfl⟩
  · exact .inr ⟨by decide, "&lt;", by decide, rfl⟩
  · exact .inr ⟨by decide, "&gt;", by decide, rfl⟩
  · exact .inr ⟨by decide, "&quot;", by decide, rfl⟩
  · left
    simp_all [specials]

theorem escapeChar_of_not_special {c : Char} (plain : c ∉ specials) : escapeChar c = [c] :=
  (escapeChar_cases c).elim And.right fun ⟨special, _⟩ => absurd special plain

theorem escapeChar_ne_nil (c : Char) : escapeChar c ≠ [] := by
  rcases escapeChar_cases c with ⟨_, same⟩ | ⟨_, entity, mem, same⟩
  · rw [same]
    exact List.cons_ne_nil c []
  · have nonempty : ∀ entity ∈ entities, entity.toList ≠ [] := by decide
    rw [same]
    exact nonempty entity mem

theorem escaped_eq_nil_iff {text : List Char} : escaped text = [] ↔ text = [] := by
  cases text with
  | nil => simp
  | cons c text => simp [escapeChar_ne_nil]

/-- A text that holds no `&` when it is escaped was left alone. -/
theorem escaped_eq_self {text : List Char} (clean : '&' ∉ escaped text) : escaped text = text := by
  induction text with
  | nil => rfl
  | cons c text ih =>
    rw [escaped_cons, List.mem_append, not_or] at clean
    rcases escapeChar_cases c with ⟨_, same⟩ | ⟨_, entity, mem, same⟩
    · rw [escaped_cons, same, ih clean.2, List.singleton_append]
    · have begins : ∀ entity ∈ entities, '&' ∈ entity.toList := by decide
      rw [same] at clean
      exact absurd (begins entity mem) clean.1

/-- Only a word that needs no escape is its own escaped form, and it is that of no other word. -/
theorem escapeHtml_eq_iff {word : String} (plain : word.toList.all isPlain = true)
    {text : String} : escapeHtml text = word ↔ text = word := by
  have all := List.all_eq_true.mp plain
  constructor
  · rintro rfl
    rw [← String.toList_inj]
    rw [toList_escapeHtml] at all ⊢
    exact (escaped_eq_self fun mem => Bool.false_ne_true (all '&' mem)).symm
  · rintro rfl
    rw [← String.toList_inj, toList_escapeHtml, flatMap_escapeChar_of_all_isPlain all]

theorem escapeHtml_ofList (text : List Char) :
    escapeHtml (String.ofList text) = String.ofList (escaped text) := by
  rw [← String.toList_inj, toList_escapeHtml, String.toList_ofList, String.toList_ofList, escaped]

/-! ## Markup -/

/-- A text without markup: there are no angle brackets and no quotes, and each `&` begins one of the
four entities. -/
structure Harmless (text : List Char) : Prop where
  free : ∀ c ∈ text, c ≠ '<' ∧ c ≠ '>' ∧ c ≠ '"'
  entity : ∀ front back, text = front ++ '&' :: back →
    ∃ entity ∈ entities, entity.toList <+: '&' :: back

theorem harmless_nil : Harmless [] where
  free := List.forall_mem_nil _
  entity := by
    intro front back split
    cases (List.nil_eq_append_iff.mp split).2

/-- Within an entity, `&` stands only at its front. -/
theorem eq_nil_of_entity {entity : String} (mem : entity ∈ entities) {front back : List Char}
    (split : entity.toList = front ++ '&' :: back) : front = [] := by
  cases front with
  | nil => rfl
  | cons d front =>
    have inside : '&' ∈ entity.toList.tail := by
      rw [split]
      exact List.mem_append_right front List.mem_cons_self
    have outside : ∀ entity ∈ entities, '&' ∉ entity.toList.tail := by decide
    exact absurd inside (outside entity mem)

theorem harmless_entity {entity : String} (mem : entity ∈ entities) {rest : List Char}
    (harmless : Harmless rest) : Harmless (entity.toList ++ rest) := by
  constructor
  · intro d within
    rcases List.mem_append.mp within with here | later
    · have all : ∀ entity ∈ entities,
          entity.toList.all (fun d => d != '<' && d != '>' && d != '"') = true := by decide
      simpa [and_assoc] using List.all_eq_true.mp (all entity mem) d here
    · exact harmless.free d later
  · intro front back split
    rcases List.append_eq_append_iff.mp split with ⟨middle, _, later⟩ | ⟨middle, here, behind⟩
    · exact harmless.entity middle back later
    · cases middle with
      | nil => exact harmless.entity [] back behind.symm
      | cons d middle =>
        obtain ⟨rfl, rfl⟩ := List.cons_eq_cons.mp behind
        obtain rfl := eq_nil_of_entity mem here
        exact ⟨entity, mem, rest, by rw [here]; rfl⟩

theorem harmless_cons {c : Char} (plain : c ∉ specials) {rest : List Char}
    (harmless : Harmless rest) : Harmless (c :: rest) := by
  simp only [specials, List.mem_cons, List.not_mem_nil, or_false, not_or] at plain
  obtain ⟨not_amp, free⟩ := plain
  constructor
  · intro d within
    rcases List.mem_cons.mp within with rfl | later
    · exact free
    · exact harmless.free d later
  · intro front back split
    cases front with
    | nil => exact absurd (List.cons_eq_cons.mp split).1 not_amp
    | cons d front => exact harmless.entity front back (List.cons_eq_cons.mp split).2

/-- An escaped text holds no markup. -/
theorem harmless_escaped (text : List Char) : Harmless (escaped text) := by
  induction text with
  | nil => exact harmless_nil
  | cons c text ih =>
    rw [escaped_cons]
    rcases escapeChar_cases c with ⟨plain, same⟩ | ⟨_, entity, mem, same⟩
    · rw [same]
      exact harmless_cons plain ih
    · rw [same]
      exact harmless_entity mem ih

/-! ## Cuts -/

/-- A property of characters that entities share with the characters they stand for. -/
def Respects (p : Char → Bool) : Prop :=
  ∀ c, ∀ d ∈ escapeChar c, p d = p c

theorem respects_of_entities {p : Char → Bool} (value : Bool)
    (special : specials.all (p · == value) = true)
    (entity : ∀ entity ∈ entities, entity.toList.all (p · == value) = true) : Respects p := by
  intro c d mem
  rcases escapeChar_cases c with ⟨_, same⟩ | ⟨listed, text, text_mem, same⟩
  · rw [same] at mem
    rw [List.mem_singleton.mp mem]
  · rw [same] at mem
    have inside := List.all_eq_true.mp (entity text text_mem) d mem
    have outside := List.all_eq_true.mp special c listed
    rw [eq_of_beq inside, eq_of_beq outside]

namespace Respects

variable {p : Char → Bool} (respects : Respects p)
include respects

theorem takeWhile_escaped (text : List Char) :
    (escaped text).takeWhile p = escaped (text.takeWhile p) := by
  induction text with
  | nil => rfl
  | cons c text ih =>
    rw [escaped_cons, List.takeWhile_cons]
    split
    · next holds =>
      have all : ∀ d ∈ escapeChar c, p d = true := fun d mem => (respects c d mem).trans holds
      rw [List.takeWhile_append_of_pos all, ih, escaped_cons]
    · next fails =>
      obtain ⟨d, others, whole⟩ := List.exists_cons_of_ne_nil (escapeChar_ne_nil c)
      have first : ¬ p d = true := by
        rw [respects c d (by rw [whole]; exact List.mem_cons_self)]
        exact fails
      rw [whole, List.cons_append, List.takeWhile_cons, if_neg first, escaped_nil]

theorem dropWhile_escaped (text : List Char) :
    (escaped text).dropWhile p = escaped (text.dropWhile p) := by
  have whole := calc
    escaped (text.takeWhile p) ++ (escaped text).dropWhile p
    _ = escaped text := by
      rw [← respects.takeWhile_escaped, List.takeWhile_append_dropWhile]
    _ = escaped (text.takeWhile p) ++ escaped (text.dropWhile p) := by
      rw [← escaped_append, List.takeWhile_append_dropWhile]
  exact List.append_cancel_left whole

end Respects

end Stencil.Text
