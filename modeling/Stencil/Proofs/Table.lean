import Stencil.Table

/-!
# Tables as maps

A table is known by what is found in it.

1. `Table.find?_eq_some_iff`: what is found under a name is the entry with that name.
2. `Table.find?_insertAll`: a table that another one was put into holds the entries of the other,
   and its own under all other names.
3. `Table.ofList_entries`: a table is made again from its entries.
-/

namespace Stencil

variable {α : Type}

namespace Entries

theorem lookup_eq_none {entries : List (String × α)} {name : String}
    (absent : ∀ entry ∈ entries, name < entry.1) : entries.lookup name = none := by
  rw [List.lookup_eq_none_iff]
  intro entry mem
  have := absent entry mem
  simp only [bne_iff_ne, ne_eq]
  rintro rfl
  exact String.lt_irrefl _ this

theorem lookup_eq_some_iff {entries : List (String × α)} (ordered : Ordered entries)
    {name : String} {value : α} : entries.lookup name = some value ↔ (name, value) ∈ entries := by
  induction entries with
  | nil => simp
  | cons entry entries ih =>
    obtain ⟨other, kept⟩ := entry
    obtain ⟨least, rest_ordered⟩ := List.pairwise_cons.mp ordered
    by_cases same : name = other
    · subst same
      have absent : (name, value) ∉ entries := fun mem =>
        String.lt_irrefl _ (least (name, value) mem)
      simp [absent, eq_comm]
    · simp [List.lookup_cons, beq_false_of_ne same, ih rest_ordered, same]

theorem lookup_insertAll {more : List (String × α)} (ordered : Ordered more)
    (entries : List (String × α)) (name : String) :
    (insertAll entries more).lookup name = (more.lookup name).or (entries.lookup name) := by
  induction more generalizing entries with
  | nil => rfl
  | cons entry more ih =>
    obtain ⟨other, value⟩ := entry
    obtain ⟨least, rest_ordered⟩ := List.pairwise_cons.mp ordered
    have step := ih rest_ordered (insert other value entries)
    rw [lookup_insert] at step
    rw [insertAll, List.foldl_cons, ← insertAll, step]
    by_cases same : name = other
    · subst same
      simp [lookup_eq_none least]
    · simp [List.lookup_cons, beq_false_of_ne same, same]

/-- An entry that comes after all others is put at the end. -/
theorem insert_eq_append {entries : List (String × α)} {name : String} (value : α)
    (last : ∀ entry ∈ entries, entry.1 < name) :
    insert name value entries = entries ++ [(name, value)] := by
  induction entries with
  | nil => rfl
  | cons entry entries ih =>
    obtain ⟨other, kept⟩ := entry
    have before : other < name := last (other, kept) List.mem_cons_self
    have differs : name ≠ other := by
      rintro rfl
      exact String.lt_irrefl _ before
    rw [insert, if_neg (String.lt_asymm before), if_neg differs,
      ih fun entry mem => last entry (List.mem_cons_of_mem _ mem), List.cons_append]

theorem insertAll_eq_append {entries more : List (String × α)}
    (ordered : Ordered (entries ++ more)) :
    insertAll entries more = entries ++ more := by
  induction more generalizing entries with
  | nil => simp [insertAll]
  | cons entry more ih =>
    have last : ∀ other ∈ entries, other.1 < entry.1 := fun other mem =>
      (List.pairwise_append.mp ordered).2.2 other mem entry List.mem_cons_self
    rw [List.append_cons] at ordered
    rw [insertAll, List.foldl_cons, insert_eq_append entry.2 last, ← insertAll, ih ordered,
      ← List.append_cons]

end Entries

namespace Table

theorem find?_eq_some_iff (table : Table α) {name : String} {value : α} :
    table.find? name = some value ↔ (name, value) ∈ table.entries :=
  Entries.lookup_eq_some_iff table.ordered

theorem find?_insertAll (table other : Table α) (name : String) :
    (table.insertAll other.entries).find? name = (other.find? name).or (table.find? name) :=
  Entries.lookup_insertAll other.ordered table.entries name

/-- A table is made again from its entries. -/
theorem ofList_entries (table : Table α) : ofList table.entries = table := by
  have rebuilt : Entries.insertAll [] table.entries = table.entries :=
    Entries.insertAll_eq_append table.ordered
  simp only [ofList, insertAll, empty, rebuilt]

theorem forall_mem_insert {table : Table α} {name : String} {value : α} {P : String × α → Prop}
    (new : P (name, value)) (old : ∀ entry ∈ table.entries, P entry) :
    ∀ entry ∈ (table.insert name value).entries, P entry := by
  intro entry mem
  rcases Entries.mem_insert mem with rfl | mem
  · exact new
  · exact old entry mem

theorem forall_mem_insertAll {table : Table α} {more : List (String × α)} {P : String × α → Prop}
    (new : ∀ entry ∈ more, P entry) (old : ∀ entry ∈ table.entries, P entry) :
    ∀ entry ∈ (table.insertAll more).entries, P entry := by
  induction more generalizing table with
  | nil => exact old
  | cons entry more ih =>
    exact ih (fun other mem => new other (List.mem_cons_of_mem _ mem))
      (forall_mem_insert (new entry List.mem_cons_self) old)

end Table

end Stencil
