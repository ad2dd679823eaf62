import Stencil.Proofs.Value.Normal

/-!
# Evaluation by way of a tree

Data is evaluated in two passes. The first writes it as a tree of JSON, in which the host has no
part and numbers are natural, negative or floating. The second reads the tree as data again.

1. `Tree.Number.toInt64?_ofInt64`: a whole number comes back from the tree as it was.
2. `Value.evaluate_eq_serialize`: evaluating is one pass after the other.
-/

namespace Stencil

variable {σ : Type}

/-! ## Trees -/

/-- A number of a tree. Whole numbers are kept apart by their signs. -/
inductive Tree.Number where
  | natural (value : UInt64)
  | negative (value : Int64)
  | floating (value : Float)

/-- Data as a tree of JSON. -/
inductive Tree where
  | null
  | bool (value : Bool)
  | number (value : Tree.Number)
  | text (value : String)
  | array (items : List Tree)
  | object (fields : List (String × Tree))

namespace Tree

def Number.ofInt64 (value : Int64) : Number :=
  if value < 0 then .negative value else .natural value.toUInt64

/-- A number of a tree as a whole number, if it is one that 64 bits can hold with a sign. -/
def Number.toInt64? : Number → Option Int64
  | .natural value => if value ≤ Int64.maxValue.toUInt64 then some value.toInt64 else none
  | .negative value => some value
  | .floating _ => none

def Number.toFloat : Number → Float
  | .natural value => value.toFloat
  | .negative value => value.toFloat
  | .floating value => value

mutual

def toValue : Tree → Value σ
  | .null => .null
  | .bool value => .bool value
  | .number value => value.toInt64?.elim (.float value.toFloat) .integer
  | .text value => .text value
  | .array items => .list (toValues items)
  | .object fields => .map (toEntries fields)

def toValues : List Tree → List (Value σ)
  | [] => []
  | tree :: trees => toValue tree :: toValues trees

def toEntries : List (String × Tree) → List (String × Value σ)
  | [] => []
  | (name, tree) :: fields => (name, toValue tree) :: toEntries fields

end

/-- A whole number comes back from the tree as it was. -/
theorem Number.toInt64?_ofInt64 (value : Int64) : (ofInt64 value).toInt64? = some value := by
  unfold ofInt64
  split
  · rfl
  · next notNegative =>
    have small : value.toUInt64 ≤ Int64.maxValue.toUInt64 :=
      Int64.toUInt64_le (Int64.not_lt.mp notNegative) (Int64.le_maxValue value)
    rw [toInt64?, if_pos small, Int64.toInt64_toUInt64]

end Tree

/-! ## Writing -/

mutual

/-- The tree of a value. Whatever the host supplies is written as what it comes to. -/
def Value.serialize : Value σ → HostM σ Tree
  | .null => pure .null
  | .bool value => pure (.bool value)
  | .integer value => pure (.number (.ofInt64 value))
  | .float value => pure (if value.isFinite then .number (.floating value) else .null)
  | .text value => pure (.text value)
  | .list items => do return .array (← Value.serializeItems items)
  | .map entries => do return .object (← Value.serializeEntries entries)
  | .computed _ call => fun state => (call state).serialize
  | .collection _ _ pull => fun state =>
    match (pull state).serializations with
    | .ok items state => (do return .array (← items) : HostM σ Tree) state
    | .error error state => .error error state

def Value.serializeItems : List (Value σ) → HostM σ (List Tree)
  | [] => pure []
  | item :: items => do return (← item.serialize) :: (← Value.serializeItems items)

def Value.serializeEntries : List (String × Value σ) → HostM σ (List (String × Tree))
  | [] => pure []
  | (name, value) :: entries => do
    return (name, ← value.serialize) :: (← Value.serializeEntries entries)

def Reply.serialize : Reply σ → EStateM.Result Error σ Tree
  | .value state result => result.serialize state
  | .failure state error => .error error.passedOn state

/-- Hands out all members, and gives the computation that writes them. -/
def Pull.serializations : Pull σ → EStateM.Result Error σ (HostM σ (List Tree))
  | .done state => .ok (pure []) state
  | .failure state error => .error error.passedOn state
  | .member state item next =>
    match (next state).serializations with
    | .ok items state => .ok (do return (← item.serialize) :: (← items)) state
    | .error error state => .error error state

end

/-! ## Both passes -/

theorem Value.serialize_computed (id : Nat) (call : σ → Reply σ) (host : σ) :
    (Value.computed id call).serialize host = (call host).serialize := by
  rw [Value.serialize]

theorem map_apply {α β : Type} (f : α → β) (step : HostM σ α) (host : σ) :
    (f <$> step) host =
      match step host with
      | .ok result after => .ok (f result) after
      | .error error after => .error error after := by
  show EStateM.map f step host = _
  rw [EStateM.map]
  cases step host <;> rfl

mutual

/-- Evaluating is writing a tree and reading it. -/
theorem Value.evaluate_eq_serialize :
    (value : Value σ) → value.evaluate = Tree.toValue <$> value.serialize
  | .null | .bool _ | .text _ => rfl
  | .integer value => by
    rw [Value.evaluate, Value.serialize, map_pure, Tree.toValue, Tree.Number.toInt64?_ofInt64]
    rfl
  | .float value => by
    rw [Value.evaluate, Value.serialize, map_pure]
    split <;> rfl
  | .list items => by
    rw [Value.evaluate, Value.serialize, Value.evaluateItems_eq_serializeItems items]
    simp [Tree.toValue]
  | .map entries => by
    rw [Value.evaluate, Value.serialize, Value.evaluateEntries_eq_serializeEntries entries]
    simp [Tree.toValue]
  | .computed _ call => by
    funext state
    rw [Value.evaluate_computed, (call state).evaluate_eq_serialize, map_apply,
      Value.serialize_computed]
    cases (call state).serialize <;> rfl
  | .collection _ _ pull => by
    funext state
    have evaluations := (pull state).evaluations_eq_serializations
    rw [map_apply]
    simp only [Value.evaluate, Value.serialize, evaluations]
    cases (pull state).serializations with
    | ok trees after =>
      have same : (do return .list (← Tree.toValues <$> trees) : HostM σ (Value σ)) =
          Tree.toValue <$> (do return .array (← trees) : HostM σ Tree) := by
        simp [Tree.toValue]
      exact (congrFun same after).trans (map_apply ..)
    | error error after => rfl

theorem Value.evaluateItems_eq_serializeItems : (items : List (Value σ)) →
    Value.evaluateItems items = Tree.toValues <$> Value.serializeItems items
  | [] => rfl
  | item :: items => by
    rw [Value.evaluateItems, Value.serializeItems, item.evaluate_eq_serialize,
      Value.evaluateItems_eq_serializeItems items]
    simp [Tree.toValues]

theorem Value.evaluateEntries_eq_serializeEntries : (entries : List (String × Value σ)) →
    Value.evaluateEntries entries = Tree.toEntries <$> Value.serializeEntries entries
  | [] => rfl
  | (name, value) :: entries => by
    rw [Value.evaluateEntries, Value.serializeEntries, value.evaluate_eq_serialize,
      Value.evaluateEntries_eq_serializeEntries entries]
    simp [Tree.toEntries]

theorem Reply.evaluate_eq_serialize : (reply : Reply σ) → reply.evaluate =
    match reply.serialize with
    | .ok tree after => .ok tree.toValue after
    | .error error after => .error error after
  | .value state result => by
    rw [Reply.evaluate, Reply.serialize, result.evaluate_eq_serialize, map_apply]
    cases result.serialize state <;> rfl
  | .failure .. => rfl

theorem Pull.evaluations_eq_serializations (pull : Pull σ) : pull.evaluations =
    match pull.serializations with
    | .ok trees after => .ok (Tree.toValues <$> trees) after
    | .error error after => .error error after := by
  cases pull with
  | done | failure => rfl
  | member _ item next =>
    rw [Pull.evaluations, Pull.serializations, (next _).evaluations_eq_serializations,
      item.evaluate_eq_serialize]
    cases (next _).serializations with
    | ok trees after => simp [Tree.toValues]
    | error error after => rfl

end

end Stencil
