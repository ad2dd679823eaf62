/-!
# Named entries

Maps of a template's data, and the tables of an engine, are lists of entries in increasing order
of their names; names compare by code point. Putting in a name that is there already replaces its
entry.

1. `Entries.lookup_insert`: what is found after an entry is put in.
2. `Entries.ordered_insert`: the entries stay in order, so a name has at most one.
-/

namespace Stencil

universe u

namespace Entries

variable {α : Type u}

def Ordered (entries : List (String × α)) : Prop :=
  entries.Pairwise fun a b => a.1 < b.1

/-- Puts an entry in its place, instead of one with the same name. -/
def insert (name : String) (value : α) : List (String × α) → List (String × α)
  | [] => [(name, value)]
  | (other, kept) :: rest =>
    if name < other then (name, value) :: (other, kept) :: rest
    else if name = other then (name, value) :: rest
    else (other, kept) :: insert name value rest

def insertAll (entries more : List (String × α)) : List (String × α) :=
  more.foldl (fun entries entry => insert entry.1 entry.2 entries) entries

/-- Entries in order. Of several with one name, the last counts. -/
def ofList (entries : List (String × α)) : List (String × α) :=
  insertAll [] entries

theorem lookup_insert (name : String) (value : α) (entries : List (String × α)) (key : String) :
    (insert name value entries).lookup key =
      if key = name then some value else entries.lookup key := by
  induction entries with
  | nil =>
    by_cases same : key = name
    · simp [insert, same]
    · simp [insert, same, List.lookup_cons, beq_false_of_ne same]
  | cons entry rest ih =>
    obtain ⟨other, kept⟩ := entry
    rw [insert]
    split
    · by_cases same : key = name
      · simp [same]
      · simp [same, List.lookup_cons, beq_false_of_ne same]
    · split
      · next equal =>
        subst equal
        by_cases same : key = name
        · simp [same]
        · simp [same, List.lookup_cons, beq_false_of_ne same]
      · next different =>
        by_cases same : key = other
        · subst same
          simp [Ne.symm different]
        · simp [List.lookup_cons, beq_false_of_ne same, ih]

theorem mem_insert {name : String} {value : α} {entries : List (String × α)} {entry : String × α}
    (mem : entry ∈ insert name value entries) : entry = (name, value) ∨ entry ∈ entries := by
  induction entries with
  | nil => simpa [insert] using mem
  | cons first rest ih =>
    obtain ⟨other, kept⟩ := first
    rw [insert] at mem
    split at mem
    · simpa using mem
    · split at mem
      · rcases List.mem_cons.mp mem with rfl | mem
        · exact .inl rfl
        · exact .inr (List.mem_cons_of_mem _ mem)
      · rcases List.mem_cons.mp mem with rfl | mem
        · exact .inr List.mem_cons_self
        · exact (ih mem).imp_right (List.mem_cons_of_mem _)

theorem ordered_insert {entries : List (String × α)} (ordered : Ordered entries) (name : String)
    (value : α) : Ordered (insert name value entries) := by
  induction entries with
  | nil => exact List.pairwise_singleton ..
  | cons first rest ih =>
    obtain ⟨other, kept⟩ := first
    obtain ⟨least, rest_ordered⟩ := List.pairwise_cons.mp ordered
    rw [insert]
    split
    · next before =>
      refine List.pairwise_cons.mpr ⟨?_, ordered⟩
      intro entry mem
      rcases List.mem_cons.mp mem with rfl | mem
      · exact before
      · exact String.lt_trans before (least entry mem)
    · next not_before =>
      split
      · next equal =>
        subst equal
        exact List.pairwise_cons.mpr ⟨least, rest_ordered⟩
      · next different =>
        refine List.pairwise_cons.mpr ⟨?_, ih rest_ordered⟩
        intro entry mem
        rcases mem_insert mem with rfl | mem
        · exact Std.lt_of_le_of_ne (String.not_lt.mp not_before) (Ne.symm different)
        · exact least entry mem

theorem ordered_insertAll {entries : List (String × α)} (ordered : Ordered entries)
    (more : List (String × α)) : Ordered (insertAll entries more) := by
  induction more generalizing entries with
  | nil => exact ordered
  | cons entry more ih => exact ih (ordered_insert ordered entry.1 entry.2)

end Entries

/-- Entries in order, at most one for each name. -/
structure Table (α : Type u) where
  entries : List (String × α)
  ordered : Entries.Ordered entries

namespace Table

variable {α : Type u}

def empty : Table α := ⟨[], .nil⟩

def find? (table : Table α) (name : String) : Option α :=
  table.entries.lookup name

/-- The table with an entry put in. -/
def insert (table : Table α) (name : String) (value : α) : Table α :=
  ⟨Entries.insert name value table.entries, Entries.ordered_insert table.ordered name value⟩

def insertAll (table : Table α) (more : List (String × α)) : Table α :=
  ⟨Entries.insertAll table.entries more, Entries.ordered_insertAll table.ordered more⟩

/-- The table of some entries. Of several with one name, the last counts. -/
def ofList (entries : List (String × α)) : Table α :=
  empty.insertAll entries

def names (table : Table α) : List String :=
  table.entries.map Prod.fst

@[simp] theorem find?_empty (name : String) : (empty : Table α).find? name = none := rfl

@[simp] theorem find?_insert (table : Table α) (name : String) (value : α) (key : String) :
    (table.insert name value).find? key = if key = name then some value else table.find? key :=
  Entries.lookup_insert name value table.entries key

end Table

end Stencil
