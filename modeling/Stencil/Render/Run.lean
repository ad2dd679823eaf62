import Stencil.Outline
import Stencil.Value

/-!
# Runs

While a template is rendered, four things change: the host's state, the cache of fragments, the
notices, and the output. This module holds the steps that change them; a render is put together
from these steps.

1. `emit` writes to the output. A writer may refuse a write for lack of room. It sets its reason
   aside, and what the run ends with is an error of formatting.
2. `call` asks the host for a computed value.
3. `fragment` compiles a text that is rendered as a template, once for each text.
4. `capture` keeps what is written meanwhile from the output.
-/

namespace Stencil

/-- Where the text of a write comes from. -/
inductive Origin where
  /-- A text block. -/
  | literal
  /-- The value of a placeholder. -/
  | value
  /-- A placeholder without a value, written again as a tag. -/
  | undefined
  deriving DecidableEq, Repr

structure Write where
  origin : Origin
  text : String
  deriving DecidableEq, Repr

/-- The reason that an output without room gives. -/
def noRoom : String := "no space left"

/-- The output: a text, or a writer. -/
structure Sink where
  writes : Array Write
  /-- The number of bytes that it still takes, if it is limited. -/
  room : Option Nat
  /-- The reason for which a write was refused, set aside. -/
  refusal : Option String

namespace Sink

def unlimited : Sink := ⟨#[], none, none⟩

/-- The output with one more write. A write that does not fit is refused as a whole. -/
def put? (sink : Sink) (write : Write) : Option Sink :=
  match sink.room with
  | none => some { sink with writes := sink.writes.push write }
  | some room =>
    if write.text.utf8ByteSize ≤ room then
      some { sink with
        writes := sink.writes.push write, room := some (room - write.text.utf8ByteSize) }
    else none

/-- The output after it refused a write. -/
def refusing (sink : Sink) : Sink := { sink with refusal := some noRoom }

end Sink

def textOf (writes : List Write) : String :=
  String.join (writes.map Write.text)

/-- All that changes while a template is rendered. -/
structure Run (σ : Type) where
  host : σ
  cache : Table Program
  notices : Array Notice
  sink : Sink

abbrev Eval (σ : Type) := EStateM Error (Run σ)

namespace Eval

variable {σ α : Type}

/-- Writes to the output. That a write is refused is an error of formatting, which tells nothing of
the reason. -/
def emit (origin : Origin) (text : String) : Eval σ Unit := fun run =>
  match run.sink.put? ⟨origin, text⟩ with
  | some sink => .ok () { run with sink }
  | none => .error (.ofCause .format) { run with sink := run.sink.refusing }

def note (notice : Notice) : Eval σ Unit := fun run =>
  .ok () { run with notices := run.notices.push notice }

def raise (cause : Cause) : Eval σ α := fun run =>
  .error (.ofCause cause) run

def call (compute : σ → Reply σ) : Eval σ (Value σ) := fun run =>
  match compute run.host with
  | .value host result => .ok result { run with host }
  | .failure host error => .error error { run with host }

/-- Points the errors of a step to a directive. -/
def locate (source : String) (span : Span) (step : Eval σ α) : Eval σ α := fun run =>
  match step run with
  | .ok result run => .ok result run
  | .error error run => .error (error.locate source span) run

/-- The text that a step writes, which does not reach the output. -/
def capture (step : Eval σ Unit) : Eval σ String := fun run =>
  match step { run with sink := .unlimited } with
  | .ok () inner => .ok (textOf inner.sink.writes.toList) { inner with sink := run.sink }
  | .error error inner => .error error { inner with sink := run.sink }

/-- The template of a text that a value holds. It is compiled when it is not in the cache. -/
def fragment (text : String) : Eval σ Program := fun run =>
  match run.cache.find? text with
  | some program => .ok program run
  | none =>
    let compiled := Program.compile text
    .ok compiled.value { run with
      cache := run.cache.insert text compiled.value
      notices := run.notices.push (.compilingFragment text) ++ compiled.notices.toArray }

/-- Does a step for each member that a collection hands out. -/
def forEachPulled (step : Value σ → Eval σ Unit) : Pull σ → Eval σ Unit
  | .done host => fun run => .ok () { run with host }
  | .failure host error => fun run => .error error { run with host }
  | .member host item next => fun run =>
    match step item { run with host } with
    | .ok () run => forEachPulled step (next run.host) run
    | .error error run => .error error run

/-- Does a step for each member of a value: the items of a list, the values of a map in the order
of their names, what a collection hands out, and any other value itself. -/
def forEachMember (value : Value σ) (step : Value σ → Eval σ Unit) : Eval σ Unit :=
  match value with
  | .list items => items.forM step
  | .map entries => entries.forM fun entry => step entry.2
  | .collection _ _ pull => fun run => forEachPulled step (pull run.host) run
  | other => step other

end Eval

end Stencil
