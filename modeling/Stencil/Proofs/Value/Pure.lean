import Stencil.Proofs.Table
import Stencil.Proofs.Value.Plain

/-!
# Pure data

Data that leaves the host as it is: what computed values and collections give depends on the state
of the host, and may be a failure, but they do not change the state. So a value is the same whenever
it is asked for again.

1. `Value.IsPure`: pure data, at every nesting.
2. `Value.isPure_of_plain`: plain data is pure.
-/

namespace Stencil

variable {σ : Type}

mutual

/-- Data in which no computed value and no collection changes the host's state. -/
inductive Value.IsPure : Value σ → Prop where
  | null : Value.IsPure .null
  | bool (value : Bool) : Value.IsPure (.bool value)
  | integer (value : Int64) : Value.IsPure (.integer value)
  | float (value : Float) : Value.IsPure (.float value)
  | text (value : String) : Value.IsPure (.text value)
  | list {items : List (Value σ)} (pure : ∀ item ∈ items, Value.IsPure item) :
      Value.IsPure (.list items)
  | map {entries : List (String × Value σ)} (pure : ∀ entry ∈ entries, Value.IsPure entry.2) :
      Value.IsPure (.map entries)
  | computed {id : Nat} {call : σ → Reply σ} (pure : ∀ host, Reply.IsPure (call host) host) :
      Value.IsPure (.computed id call)
  | collection {id : Nat} {kind : CollectionKind} {pull : σ → Pull σ}
      (pure : ∀ host, Pull.IsPure (pull host) host) : Value.IsPure (.collection id kind pull)

/-- A call that was made in a state of the host leaves it at that, and gives pure data. -/
inductive Reply.IsPure : Reply σ → σ → Prop where
  | value {host : σ} {result : Value σ} (pure : Value.IsPure result) :
      Reply.IsPure (.value host result) host
  | failure {host : σ} (error : Error) : Reply.IsPure (.failure host error) host

/-- So does a collection that was asked for a member, and whenever it is asked for the next one. -/
inductive Pull.IsPure : Pull σ → σ → Prop where
  | done {host : σ} : Pull.IsPure (.done host) host
  | failure {host : σ} (error : Error) : Pull.IsPure (.failure host error) host
  | member {host : σ} {item : Value σ} {next : σ → Pull σ} (pure : Value.IsPure item)
      (rest : ∀ host, Pull.IsPure (next host) host) : Pull.IsPure (.member host item next) host

end

/-- Plain data is pure. -/
theorem Value.isPure_of_plain : {value : Value σ} → value.plain = true → value.IsPure
  | .null => fun _ => .null
  | .bool value => fun _ => .bool value
  | .integer value => fun _ => .integer value
  | .float value => fun _ => .float value
  | .text value => fun _ => .text value
  | .list items => fun h => by
    rw [plain] at h
    exact .list fun item mem => isPure_of_plain (plain_of_mem_items h mem)
  | .map entries => fun h => by
    rw [plain] at h
    refine .map ?_
    rintro ⟨name, value⟩ mem
    have smaller : sizeOf value < sizeOf (name, value) := by
      rw [Prod.mk.sizeOf_spec]
      omega
    have := Nat.lt_trans smaller (List.sizeOf_lt_of_mem mem)
    exact isPure_of_plain (plain_of_mem_entries h mem)
  | .computed .. => nofun
  | .collection .. => nofun

def Table.Pure (data : Table (Value σ)) : Prop :=
  ∀ entry ∈ data.entries, entry.2.IsPure

theorem Table.Plain.pure {data : Table (Value σ)} (plain : data.Plain) : data.Pure :=
  fun entry mem => Value.isPure_of_plain (plain entry mem)

theorem Table.Pure.find {data : Table (Value σ)} (pure : data.Pure) {name : String}
    {value : Value σ} (found : data.find? name = some value) : value.IsPure :=
  pure (name, value) ((find?_eq_some_iff data).mp found)

end Stencil
