import Stencil.Proofs.Render.Event
import Stencil.Proofs.Table

/-!
# Data that fails without a place

The errors of the host know nothing of templates, so they do not point anywhere. What the host gives
later on may fail in turn, and these errors do not point anywhere either.

1. `Value.Unlocated`: such data, at every nesting.
2. `Eval.unlocated_of_call`: what a computed value gives is such data.
3. `Eval.unlocated_of_pullFails`: a collection fails with such an error.
-/

namespace Stencil

variable {σ : Type}

mutual

/-- Data in which computed values and collections fail with errors that do not point anywhere. -/
inductive Value.Unlocated : Value σ → Prop where
  | null : Value.Unlocated .null
  | bool (value : Bool) : Value.Unlocated (.bool value)
  | integer (value : Int64) : Value.Unlocated (.integer value)
  | float (value : Float) : Value.Unlocated (.float value)
  | text (value : String) : Value.Unlocated (.text value)
  | list {items : List (Value σ)} (all : ∀ item ∈ items, Value.Unlocated item) :
      Value.Unlocated (.list items)
  | map {entries : List (String × Value σ)} (all : ∀ entry ∈ entries, Value.Unlocated entry.2) :
      Value.Unlocated (.map entries)
  | computed {id : Nat} {call : σ → Reply σ} (replies : ∀ host, Reply.Unlocated (call host)) :
      Value.Unlocated (.computed id call)
  | collection {id : Nat} {kind : CollectionKind} {pull : σ → Pull σ}
      (pulls : ∀ host, Pull.Unlocated (pull host)) : Value.Unlocated (.collection id kind pull)

inductive Reply.Unlocated : Reply σ → Prop where
  | value {host : σ} {result : Value σ} (found : Value.Unlocated result) :
      Reply.Unlocated (.value host result)
  | failure {host : σ} {error : Error} (nowhere : error.location = none) :
      Reply.Unlocated (.failure host error)

/-- So does a collection that was asked for a member, and whenever it is asked for the next one. -/
inductive Pull.Unlocated : Pull σ → Prop where
  | done (host : σ) : Pull.Unlocated (.done host)
  | failure {host : σ} {error : Error} (nowhere : error.location = none) :
      Pull.Unlocated (.failure host error)
  | member {host : σ} {item : Value σ} {next : σ → Pull σ} (handed : Value.Unlocated item)
      (pulls : ∀ host, Pull.Unlocated (next host)) : Pull.Unlocated (.member host item next)

end

theorem Value.unlocated_hereditary : Value.Hereditary (@Value.Unlocated σ) where
  null := .null
  text := .text
  item := by
    rintro items item ⟨⟩ mem
    next all => exact all item mem
  entry := by
    rintro entries entry ⟨⟩ mem
    next all => exact all entry mem

def Table.Unlocated (data : Table (Value σ)) : Prop :=
  ∀ entry ∈ data.entries, entry.2.Unlocated

theorem Table.Unlocated.find {data : Table (Value σ)} (unlocated : data.Unlocated) {name : String}
    {value : Value σ} (found : data.find? name = some value) : value.Unlocated :=
  unlocated (name, value) ((find?_eq_some_iff data).mp found)

namespace Eval

/-- What a call gives fails without a place in turn. -/
theorem unlocated_of_call {id : Nat} {compute : σ → Reply σ}
    (unlocated : (Value.computed id compute).Unlocated) {run moment : Run σ} {result : Value σ}
    (done : call compute run = .ok result moment) : result.Unlocated := by
  cases unlocated with | computed replies
  have reply := replies run.host
  unfold call at done
  generalize compute run.host = given at reply done
  cases reply with
  | value found =>
    cases done
    exact found
  | failure nowhere => cases done

theorem unlocated_of_failed {id : Nat} {compute : σ → Reply σ}
    (unlocated : (Value.computed id compute).Unlocated) {host host' : σ} {error : Error}
    (failed : compute host = .failure host' error) : error.location = none := by
  cases unlocated with | computed replies
  have reply := replies host
  rw [failed] at reply
  cases reply with | failure nowhere
  exact nowhere

/-- A collection that fails does so without a place, however many members it hands out before. -/
theorem unlocated_of_pullFails {step : Value σ → Eval σ Unit} {pull : Pull σ} {run : Run σ}
    {error : Error} (fails : PullFails step pull run error) (unlocated : pull.Unlocated) :
    error.location = none := by
  induction fails with
  | now host error run =>
    cases unlocated with | failure nowhere
    exact nowhere
  | later done rest ih =>
    cases unlocated with | member handed pulls
    exact ih (pulls _)

end Eval

end Stencil
