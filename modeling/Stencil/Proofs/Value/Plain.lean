import Stencil.Context
import Stencil.Value.Evaluate

/-!
# Plain data

Data that the host has no part in. What names lead to in it is a function of the data alone.

1. `Value.settled`: what becomes of a value when it is found.
2. `Value.drilled?`: what segments lead to.
3. `Value.members`: what an iteration goes through.
4. `Value.evaluate_plain`: evaluating plain data does not ask the host for anything.
-/

namespace Stencil

variable {σ : Type}

namespace Value

mutual

/-- Whether there are no computed values and no collections in some data. -/
def plain : Value σ → Bool
  | .null | .bool _ | .integer _ | .float _ | .text _ => true
  | .list items => plainItems items
  | .map entries => plainEntries entries
  | .computed .. | .collection .. => false

def plainItems : List (Value σ) → Bool
  | [] => true
  | item :: items => plain item && plainItems items

def plainEntries : List (String × Value σ) → Bool
  | [] => true
  | (_, value) :: entries => plain value && plainEntries entries

end

/-- Data that the host has no part in. -/
abbrev IsPlain (value : Value σ) : Prop := value.plain = true

/-- A value as it is found: an empty list or map is null. -/
def settled (value : Value σ) : Value σ :=
  if value.isEmptyContainer then .null else value

/-- The member of plain data under a name. -/
def member? (owner : Value σ) (name : String) : Option (Value σ) :=
  (owner.child? name).map settled

/-- What segments lead to in plain data, one after another. -/
def drilled? (owner : Value σ) (segments : List String) : Option (Value σ) :=
  segments.foldlM member? owner

/-- What an iteration over plain data goes through. -/
def members : Value σ → List (Value σ)
  | .list items => items
  | .map entries => entries.map Prod.snd
  | other => if other.truthy then [other] else []

/-! ## Plain parts -/

theorem plain_of_mem_items {items : List (Value σ)} (h : plainItems items = true)
    {item : Value σ} (mem : item ∈ items) : item.plain = true := by
  induction items with
  | nil => cases mem
  | cons first items ih =>
    rw [plainItems, Bool.and_eq_true] at h
    rcases List.mem_cons.mp mem with rfl | mem
    · exact h.1
    · exact ih h.2 mem

theorem plain_of_mem_entries {entries : List (String × Value σ)}
    (h : plainEntries entries = true) {entry : String × Value σ} (mem : entry ∈ entries) :
    entry.2.plain = true := by
  induction entries with
  | nil => cases mem
  | cons first entries ih =>
    obtain ⟨name, value⟩ := first
    rw [plainEntries, Bool.and_eq_true] at h
    rcases List.mem_cons.mp mem with rfl | mem
    · exact h.1
    · exact ih h.2 mem

theorem plain_child {owner value : Value σ} (h : owner.plain = true) {name : String}
    (found : owner.child? name = some value) : value.plain = true := by
  unfold child? at found
  split at found
  · rw [plain] at h
    obtain ⟨front, rest, rfl, _⟩ := List.lookup_eq_some_iff.mp found
    exact plain_of_mem_entries h (List.mem_append_right front List.mem_cons_self)
  · rw [plain] at h
    obtain ⟨position, _, found⟩ := Option.bind_eq_some_iff.mp found
    exact plain_of_mem_items h (List.mem_of_getElem? found)
  · cases found

theorem plain_settled {value : Value σ} (h : value.plain = true) : value.settled.plain = true := by
  unfold settled
  split
  · rfl
  · exact h

theorem plain_member {owner value : Value σ} (h : owner.plain = true) {name : String}
    (found : owner.member? name = some value) : value.plain = true := by
  obtain ⟨child, present, rfl⟩ := Option.map_eq_some_iff.mp found
  exact plain_settled (plain_child h present)

theorem plain_drilled {owner value : Value σ} (h : owner.plain = true) {segments : List String}
    (found : owner.drilled? segments = some value) : value.plain = true := by
  induction segments generalizing owner with
  | nil =>
    cases found
    exact h
  | cons segment segments ih =>
    rw [drilled?, List.foldlM_cons] at found
    obtain ⟨next, present, found⟩ := Option.bind_eq_some_iff.mp found
    exact ih (plain_member h present) found

theorem plain_of_mem_members {value item : Value σ} (h : value.plain = true)
    (mem : item ∈ value.members) : item.plain = true := by
  unfold members at mem
  split at mem
  · rw [plain] at h
    exact plain_of_mem_items h mem
  · rw [plain] at h
    obtain ⟨entry, entry_mem, rfl⟩ := List.mem_map.mp mem
    exact plain_of_mem_entries h entry_mem
  · split at mem
    · rw [List.mem_singleton] at mem
      rwa [mem]
    · cases mem

/-! ## Drilling -/

theorem drilled?_cons (owner : Value σ) (segment : String) (segments : List String) :
    owner.drilled? (segment :: segments) =
      (owner.member? segment).bind fun value => value.drilled? segments := by
  rw [drilled?, List.foldlM_cons]
  rfl

theorem drilled?_append (owner : Value σ) (segments more : List String) :
    owner.drilled? (segments ++ more) =
      (owner.drilled? segments).bind fun value => value.drilled? more := by
  rw [drilled?, List.foldlM_append]
  rfl

theorem drilled?_singleton (owner : Value σ) (segment : String) :
    owner.drilled? [segment] = owner.member? segment := by
  rw [drilled?_cons]
  cases owner.member? segment <;> rfl

/-- What has members is truthy. -/
theorem truthy_of_mem_members {value item : Value σ} (mem : item ∈ value.members) :
    value.truthy = true := by
  unfold members at mem
  split at mem
  · next items =>
    cases items with
    | nil => cases mem
    | cons first items => rfl
  · next entries =>
    cases entries with
    | nil => cases mem
    | cons first entries => rfl
  · next =>
    split at mem
    · assumption
    · cases mem

theorem members_eq_nil_of_not_truthy {value : Value σ} (h : value.truthy = false) :
    value.members = [] := by
  cases members : value.members with
  | nil => rfl
  | cons item items =>
    have mem : item ∈ value.members := by
      rw [members]
      exact List.mem_cons_self
    rw [truthy_of_mem_members mem] at h
    cases h

/-! ## Evaluating -/

mutual

/-- Evaluating plain data gives plain data, and leaves the host alone. -/
theorem evaluate_plain : {value : Value σ} → value.plain = true →
    ∃ result : Value σ, result.plain = true ∧ value.evaluate = pure result
  | .null, _ => ⟨.null, rfl, rfl⟩
  | .bool value, _ => ⟨.bool value, rfl, rfl⟩
  | .integer value, _ => ⟨.integer value, rfl, rfl⟩
  | .float value, _ => by
    refine ⟨if value.isFinite then .float value else .null, ?_, rfl⟩
    split <;> rfl
  | .text value, _ => ⟨.text value, rfl, rfl⟩
  | .list items, h => by
    rw [plain] at h
    obtain ⟨results, results_plain, same⟩ := evaluateItems_plain h
    exact ⟨.list results, by rwa [plain], by rw [evaluate, same, pure_bind]⟩
  | .map entries, h => by
    rw [plain] at h
    obtain ⟨results, results_plain, same⟩ := evaluateEntries_plain h
    exact ⟨.map results, by rwa [plain], by rw [evaluate, same, pure_bind]⟩

theorem evaluateItems_plain : {items : List (Value σ)} → plainItems items = true →
    ∃ results : List (Value σ), plainItems results = true ∧ evaluateItems items = pure results
  | [], _ => ⟨[], rfl, rfl⟩
  | item :: items, h => by
    rw [plainItems, Bool.and_eq_true] at h
    obtain ⟨result, result_plain, first⟩ := evaluate_plain h.1
    obtain ⟨results, results_plain, rest⟩ := evaluateItems_plain h.2
    refine ⟨result :: results, ?_, ?_⟩
    · rw [plainItems, result_plain, results_plain]
      rfl
    · rw [evaluateItems, first, pure_bind, rest, pure_bind]

theorem evaluateEntries_plain : {entries : List (String × Value σ)} →
    plainEntries entries = true → ∃ results : List (String × Value σ),
      plainEntries results = true ∧ evaluateEntries entries = pure results
  | [], _ => ⟨[], rfl, rfl⟩
  | (name, value) :: entries, h => by
    rw [plainEntries, Bool.and_eq_true] at h
    obtain ⟨result, result_plain, first⟩ := evaluate_plain h.1
    obtain ⟨results, results_plain, rest⟩ := evaluateEntries_plain h.2
    refine ⟨(name, result) :: results, ?_, ?_⟩
    · rw [plainEntries, result_plain, results_plain]
      rfl
    · rw [evaluateEntries, first, pure_bind, rest, pure_bind]

end

end Value

def Table.Plain (data : Table (Value σ)) : Prop :=
  ∀ entry ∈ data.entries, entry.2.IsPlain

theorem Table.Plain.find {data : Table (Value σ)} (plain : data.Plain) {name : String}
    {value : Value σ} (found : data.find? name = some value) : value.IsPlain := by
  obtain ⟨front, rest, same, _⟩ := List.lookup_eq_some_iff.mp found
  refine plain (name, value) ?_
  rw [same]
  exact List.mem_append_right front List.mem_cons_self

end Stencil
