import Stencil.Value
import Stencil.Json.Message

/-!
# Evaluating values

A value is evaluated by asking the host for everything in it: a computed value becomes what the
host computes, evaluated in turn; a collection becomes the list of its members, all of which are
handed out before the first of them is evaluated; a number that is not finite becomes null. The
result is plain data. The host is asked in the order of lists and of names, and its first failure
is the failure of the whole.
-/

namespace Stencil

/-- A computation in the host's state, which may fail. -/
abbrev HostM (σ : Type) := EStateM Error σ

variable {σ : Type}

def Pull.members : Pull σ → EStateM.Result Error σ (List (Value σ))
  | .done state => .ok [] state
  | .failure state error => .error error state
  | .member state item next =>
    match (next state).members with
    | .ok items state => .ok (item :: items) state
    | .error error state => .error error state

/-- A host's error that leaves the evaluation of a value. -/
def Error.passedOn (error : Error) : Error :=
  .custom (Json.passOn error.display)

mutual

/-- The plain data of a value. All members of a collection are out, and the host's state is past
them, before one of them is evaluated. -/
def Value.evaluate : Value σ → HostM σ (Value σ)
  | .null => pure .null
  | .bool value => pure (.bool value)
  | .integer value => pure (.integer value)
  | .float value => pure (if value.isFinite then .float value else .null)
  | .text value => pure (.text value)
  | .list items => do return .list (← Value.evaluateItems items)
  | .map entries => do return .map (← Value.evaluateEntries entries)
  | .computed _ call => fun state => (call state).evaluate
  | .collection _ _ pull => fun state =>
    match (pull state).evaluations with
    | .ok items state => (do return .list (← items) : HostM σ (Value σ)) state
    | .error error state => .error error state

def Value.evaluateItems : List (Value σ) → HostM σ (List (Value σ))
  | [] => pure []
  | item :: items => do return (← item.evaluate) :: (← Value.evaluateItems items)

def Value.evaluateEntries : List (String × Value σ) → HostM σ (List (String × Value σ))
  | [] => pure []
  | (name, value) :: entries => do
    return (name, ← value.evaluate) :: (← Value.evaluateEntries entries)

def Reply.evaluate : Reply σ → EStateM.Result Error σ (Value σ)
  | .value state result => result.evaluate state
  | .failure state error => .error error.passedOn state

/-- Hands out all members, and gives the computation that evaluates them. -/
def Pull.evaluations : Pull σ → EStateM.Result Error σ (HostM σ (List (Value σ)))
  | .done state => .ok (pure []) state
  | .failure state error => .error error.passedOn state
  | .member state item next =>
    match (next state).evaluations with
    | .ok items state => .ok (do return (← item.evaluate) :: (← items)) state
    | .error error state => .error error state

end

end Stencil
