import Stencil.Proofs.Render.Outcome
import Stencil.Proofs.Table

/-!
# What is done with an engine

An engine begins empty, and changes by the operations that are performed with it. An operation
that fails leaves it as it was.

`Engine.forall_templates_after`: what is true of every template that can be registered is true of
all templates of an engine, whatever was done with it.
-/

namespace Stencil

inductive Operation (σ : Type) where
  | registerTemplate (name source : String)
  | registerData (name : String) (value : Value σ)
  | setMaxDepth (depth : Nat)
  /-- Registers a saved template. -/
  | registerSaved (name text : String)
  /-- Registers the templates saved in one text. -/
  | loadSaved (text : String)
  | render (job : Job σ) (target : Target) (host : σ)

namespace Engine

variable {σ : Type}

/-- The engine as a step leaves it, whether or not the step fails. -/
def left {α : Type} : EStateM.Result LoadFailure (Engine σ) α → Engine σ
  | .ok _ engine => engine
  | .error _ engine => engine

def perform (engine : Engine σ) : Operation σ → Engine σ
  | .registerTemplate name source => (engine.registerTemplate name source).value
  | .registerData name value => (engine.registerData name value).value
  | .setMaxDepth depth => engine.setMaxDepth depth
  | .registerSaved name text => left (registerSaved name text engine)
  | .loadSaved text => left (loadSaved text engine)
  | .render job target host => (engine.render job target host).engine

/-- The engine after some operations, from an empty one on. -/
def after (operations : List (Operation σ)) : Engine σ :=
  operations.foldl perform new

/-! ## Single operations -/

theorem registerSaved_of_ok {text : String} {program : Program}
    (loaded : Program.load text = .ok program) (name : String) (engine : Engine σ) :
    registerSaved name text engine = .ok [.registeringSaved name]
      { engine with templates := engine.templates.insert name program } := by
  rw [registerSaved, loaded]
  rfl

/-- A template that cannot be loaded changes nothing. -/
theorem registerSaved_of_error {text : String} {failure : LoadFailure}
    (failed : Program.load text = .error failure) (name : String) (engine : Engine σ) :
    registerSaved name text engine = .error failure engine := by
  rw [registerSaved, failed]
  rfl

theorem loadSaved_of_ok {text : String} {table : Table Program}
    (loaded : Table.load text = .ok table) (engine : Engine σ) :
    loadSaved text engine = .ok [.loadingSaved table.entries.length]
      { engine with templates := engine.templates.insertAll table.entries } := by
  rw [loadSaved, loaded]
  rfl

/-- Templates that cannot all be loaded change nothing. -/
theorem loadSaved_of_error {text : String} {failure : LoadFailure}
    (failed : Table.load text = .error failure) (engine : Engine σ) :
    loadSaved text engine = .error failure engine := by
  rw [loadSaved, failed]
  rfl

theorem perform_registerSaved (engine : Engine σ) (name text : String) :
    engine.perform (.registerSaved name text) = engine ∨
      ∃ program, Program.load text = .ok program ∧
        engine.perform (.registerSaved name text) =
          { engine with templates := engine.templates.insert name program } := by
  rw [perform]
  cases loaded : Program.load text with
  | error failure =>
    rw [registerSaved_of_error loaded]
    exact .inl rfl
  | ok program =>
    rw [registerSaved_of_ok loaded]
    exact .inr ⟨program, rfl, rfl⟩

theorem perform_loadSaved (engine : Engine σ) (text : String) :
    engine.perform (.loadSaved text) = engine ∨
      ∃ table, Table.load text = .ok table ∧
        engine.perform (.loadSaved text) =
          { engine with templates := engine.templates.insertAll table.entries } := by
  rw [perform]
  cases loaded : Table.load text with
  | error failure =>
    rw [loadSaved_of_error loaded]
    exact .inl rfl
  | ok table =>
    rw [loadSaved_of_ok loaded]
    exact .inr ⟨table, rfl, rfl⟩

/-! ## Templates -/

variable {P : Program → Prop}

theorem forall_templates_perform
    (loaded : ∀ text program, Program.load text = .ok program → P program)
    (restored : ∀ text table, Table.load text = .ok table → ∀ entry ∈ table.entries, P entry.2)
    {engine : Engine σ} (held : ∀ entry ∈ engine.templates.entries, P entry.2)
    (operation : Operation σ)
    (compiled : ∀ name source, operation = .registerTemplate name source →
      P (Program.compile source).value) :
    ∀ entry ∈ (engine.perform operation).templates.entries, P entry.2 := by
  cases operation with
  | registerTemplate name source =>
    exact Table.forall_mem_insert (P := fun entry => P entry.2) (compiled name source rfl) held
  | registerData name value => exact held
  | setMaxDepth depth => exact held
  | registerSaved name text =>
    rcases perform_registerSaved engine name text with same | ⟨program, read, changed⟩
    · rw [same]
      exact held
    · rw [changed]
      exact Table.forall_mem_insert (P := fun entry => P entry.2) (loaded text program read) held
  | loadSaved text =>
    rcases perform_loadSaved engine text with same | ⟨table, read, changed⟩
    · rw [same]
      exact held
    · rw [changed]
      exact Table.forall_mem_insertAll (P := fun entry => P entry.2) (restored text table read) held
  | render job target host =>
    obtain ⟨cache, changed⟩ := render_engine engine job target host
    rw [perform, changed]
    exact held

/-- What is true of every template that can be registered is true of all templates of an engine,
whatever was done with it. -/
theorem forall_templates_after
    (loaded : ∀ text program, Program.load text = .ok program → P program)
    (restored : ∀ text table, Table.load text = .ok table → ∀ entry ∈ table.entries, P entry.2)
    (operations : List (Operation σ))
    (compiled : ∀ name source, Operation.registerTemplate name source ∈ operations →
      P (Program.compile source).value) :
    ∀ entry ∈ (after operations).templates.entries, P entry.2 := by
  suffices ∀ engine : Engine σ, (∀ entry ∈ engine.templates.entries, P entry.2) →
      ∀ entry ∈ (operations.foldl perform engine).templates.entries, P entry.2 from
    this new fun entry mem => by cases mem
  induction operations with
  | nil => exact fun _ held => held
  | cons operation operations ih =>
    intro engine held
    refine ih (fun name source mem => compiled name source (List.mem_cons_of_mem _ mem)) _ ?_
    refine forall_templates_perform loaded restored held operation ?_
    rintro name source rfl
    exact compiled name source List.mem_cons_self

end Engine

end Stencil
