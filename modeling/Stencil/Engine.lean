import Stencil.Outline
import Stencil.Saved.Encode
import Stencil.Saved.Decode
import Stencil.Value.Shown

/-!
# Engines

An engine keeps what its templates share: templates and data that are found under their names from
anywhere in the data, the limit on nesting, and the fragments that renders have compiled. An
operation that fails leaves the engine as it was.
-/

namespace Stencil

/-- The shared part of a set of templates. -/
structure Engine (σ : Type) where
  /-- Templates that stand in for absent members of values. -/
  templates : Table Program
  /-- Data that names fall back to. -/
  data : Table (Value σ)
  /-- The templates of the texts that values held, as far as they were rendered. -/
  cache : Table Program
  /-- The number of levels that may be open at once while rendering. -/
  maxDepth : Nat

/-- The saved templates that a text holds. They are checked in the order of their names, after later
templates have replaced earlier ones. -/
def Table.load (text : String) : Except LoadFailure (Table Program) := do
  let doc ← Program.readVersioned text
  match Program.tableOfJson? Json.maxDepth doc with
  | none => .error .malformed
  | some entries =>
    let table := Table.ofList entries
    match table.entries.findSome? fun (name, program) => program.misfit?.map (name, ·) with
    | some (name, span) => .error (.misfitIn name span)
    | none => .ok table

/-- A template, shown without its blocks. -/
def Program.shown (program : Program) : String :=
  "Template \x7b source: " ++ Text.quote program.source ++ ", .. \x7d"

namespace Engine

/-- A step that may change an engine, or fail. -/
abbrev Update (σ : Type) := EStateM LoadFailure (Engine σ)

variable {σ : Type}

def new : Engine σ := ⟨.empty, .empty, .empty, 64⟩

def setMaxDepth (engine : Engine σ) (depth : Nat) : Engine σ :=
  { engine with maxDepth := depth }

def registerTemplate (engine : Engine σ) (name source : String) : Noted (Engine σ) :=
  let compiled := Program.compile source
  ⟨{ engine with templates := engine.templates.insert name compiled.value },
    .registeringTemplate name :: compiled.notices⟩

def registerData (engine : Engine σ) (name : String) (value : Value σ) : Noted (Engine σ) :=
  ⟨{ engine with data := engine.data.insert name value }, [.registeringData name]⟩

def registerSaved (name text : String) : Update σ (List Notice) := do
  let program ← MonadExcept.ofExcept (Program.load text)
  modify fun engine => { engine with templates := engine.templates.insert name program }
  return [.registeringSaved name]

/-- Registers saved templates under the names they were saved with. -/
def loadSaved (text : String) : Update σ (List Notice) := do
  let table ← MonadExcept.ofExcept (Table.load text)
  modify fun engine => { engine with templates := engine.templates.insertAll table.entries }
  return [.loadingSaved table.entries.length]

def savedTemplates (engine : Engine σ) : String :=
  (Program.tableToJson engine.templates.entries).toText

def shown (engine : Engine σ) : String :=
  let templates := ", ".intercalate (engine.templates.names.map Text.quote)
  let data := Value.shownMap (Value.shownEntries engine.data.entries)
  "Engine \x7b templates: [" ++ templates ++ "], data: " ++ data ++ ", cache: " ++
    toString engine.cache.entries.length ++ ", max_depth: " ++ toString engine.maxDepth ++ " \x7d"

end Engine

end Stencil
