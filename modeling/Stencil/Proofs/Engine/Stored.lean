import Mathlib.Control.Monad.Basic
import Stencil.Proofs.Engine.Cache
import Stencil.Proofs.Outline.Compiled
import Stencil.Proofs.Saved.Accepted

/-!
# What an engine stores

Templates come into an engine in two ways. A source is compiled, when it is registered or when a
render comes to a fragment, and then every span is that of a token. Or a text is decoded, and then
the spans are checked before anything is stored.

1. `Engine.inPlace_templates_after`, `Engine.inPlace_cache_after`: whatever was done with an engine,
   all templates that it holds fit their sources.
2. `Engine.after_append_of_fails`: a load that fails might as well not have been tried.
3. `Engine.stored_inPlace`: both, and which texts can be loaded.
-/

namespace Stencil

variable {σ : Type}

/-- Every block of a compiled template is at a token of the source. -/
theorem Program.inPlace_compile (source : String) : (compile source).value.InPlace :=
  fun _ mem => Span.fits_iff.mp (fits_of_mem_compile mem)

/-- A load that an engine answers with a failure. -/
inductive Operation.Fails (engine : Engine σ) : Operation σ → Prop where
  | registerSaved {name text : String} {failure : LoadFailure} {engine' : Engine σ}
      (failed : Engine.registerSaved name text engine = .error failure engine') :
      Fails engine (.registerSaved name text)
  | loadSaved {text : String} {failure : LoadFailure} {engine' : Engine σ}
      (failed : Engine.loadSaved text engine = .error failure engine') :
      Fails engine (.loadSaved text)

namespace Engine

/-! ## Whatever was done -/

theorem inPlace_templates_after (operations : List (Operation σ)) :
    ∀ entry ∈ (after operations).templates.entries, entry.2.InPlace :=
  forall_templates_after (fun _ _ loaded => (Program.load_eq_ok_iff.mp loaded).2)
    (fun _ _ loaded => (Table.load_eq_ok_iff.mp loaded).2) operations
    fun _ _ _ => Program.inPlace_compile _

/-- Whatever is cached was compiled here, even where the templates were loaded. -/
theorem inPlace_cache_after (operations : List (Operation σ)) :
    ∀ entry ∈ (after operations).cache.entries, entry.2.InPlace := by
  intro entry mem
  rw [compiled_after operations entry.1 entry.2 ((Table.find?_eq_some_iff _).mpr mem)]
  exact Program.inPlace_compile entry.1

theorem after_append (operations more : List (Operation σ)) :
    after (operations ++ more) = more.foldl perform (after operations) :=
  List.foldl_append

/-! ## Loads -/

theorem perform_of_fails {engine : Engine σ} {operation : Operation σ}
    (fails : operation.Fails engine) : engine.perform operation = engine := by
  cases fails with
  | @registerSaved name text _ _ failed =>
    rw [perform]
    cases loaded : Program.load text with
    | error failure => rw [registerSaved_of_error loaded, left]
    | ok program =>
      rw [registerSaved_of_ok loaded] at failed
      cases failed
  | @loadSaved text _ _ failed =>
    rw [perform]
    cases loaded : Table.load text with
    | error failure => rw [loadSaved_of_error loaded, left]
    | ok table =>
      rw [loadSaved_of_ok loaded] at failed
      cases failed

/-- A load that fails might as well not have been tried. -/
theorem after_append_of_fails {operations : List (Operation σ)} {operation : Operation σ}
    (fails : operation.Fails (after operations)) (more : List (Operation σ)) :
    after (operations ++ operation :: more) = after (operations ++ more) := by
  rw [after_append, after_append, List.foldl_cons, perform_of_fails fails]

theorem registerSaved_accepts_iff (engine : Engine σ) (name text : String) :
    (∃ notices engine', registerSaved name text engine = .ok notices engine') ↔
      ∃ program, Program.load text = .ok program := by
  cases loaded : Program.load text with
  | error failure => simp [registerSaved_of_error loaded]
  | ok program => simp [registerSaved_of_ok loaded]

theorem loadSaved_accepts_iff (engine : Engine σ) (text : String) :
    (∃ notices engine', loadSaved text engine = .ok notices engine') ↔
      ∃ table, Table.load text = .ok table := by
  cases loaded : Table.load text with
  | error failure => simp [loadSaved_of_error loaded]
  | ok table => simp [loadSaved_of_ok loaded]

end Engine

/-- A template that is decoded is loaded exactly if every block is in place. -/
theorem Program.load_accepts_iff {text : String} {program : Program}
    (decoded : decode? text = some program) :
    (∃ loaded, load text = .ok loaded) ↔ program.InPlace := by
  simp [load_eq_ok_iff, decoded]

theorem Table.load_accepts_iff {text : String} {table : Table Program}
    (decoded : decode? text = some table) :
    (∃ loaded, load text = .ok loaded) ↔ ∀ entry ∈ table.entries, entry.2.InPlace := by
  simp [load_eq_ok_iff, decoded]

namespace Engine

/-- Stored templates fit their sources, and loads that fail change nothing. Whatever was done with
an engine, every block of its templates and of its cached fragments is at a region of the source. A
load that fails leaves the engine as it was, so whatever is done next goes as without it. A text
that decodes to a template, or to several ones, is accepted exactly if every block is in place. -/
theorem stored_inPlace (operations : List (Operation σ)) :
    (∀ entry ∈ (after operations).templates.entries, entry.2.InPlace) ∧
      (∀ entry ∈ (after operations).cache.entries, entry.2.InPlace) ∧
      (∀ operation, Operation.Fails (after operations) operation → ∀ more,
        after (operations ++ operation :: more) = after (operations ++ more)) ∧
      (∀ text program, Program.decode? text = some program →
        ((∃ loaded, Program.load text = .ok loaded) ↔ program.InPlace) ∧
          ∀ name, (∃ notices engine,
            registerSaved name text (after operations) = .ok notices engine) ↔ program.InPlace) ∧
      ∀ text table, Table.decode? text = some table →
        ((∃ notices engine, loadSaved text (after operations) = .ok notices engine) ↔
          ∀ entry ∈ table.entries, entry.2.InPlace) := by
  refine ⟨inPlace_templates_after operations, inPlace_cache_after operations,
    fun _ => after_append_of_fails, fun text program decoded => ?_, fun text table decoded => ?_⟩
  · refine ⟨Program.load_accepts_iff decoded, fun name => ?_⟩
    rw [registerSaved_accepts_iff]
    exact Program.load_accepts_iff decoded
  · rw [loadSaved_accepts_iff]
    exact Table.load_accepts_iff decoded

/-- The second template is decoded, but the placeholder in its condition begins inside a
character. -/
theorem stored_inPlace_misfit :
    let text := "\x7b\"version\":1,\"source\":\"\u00e9\",\"blocks\":[\x7b\"Condition\":[\"a\",false," ++
      "[\x7b\"Placeholder\":[\"b\",false,true,[1,2]]\x7d],[],[0,2]]\x7d]\x7d"
    let program : Program :=
      ⟨"\u00e9", [.condition "a" false [.placeholder ⟨"b", false, true, ⟨1, 2⟩⟩] [] ⟨0, 2⟩]⟩
    let shared := "\x7b\"version\":1,\"templates\":\x7b\"t\":\x7b\"source\":\"x\",\"blocks\":[" ++
      "\x7b\"Text\":[\"x\",[0,1]]\x7d]\x7d\x7d\x7d"
    let table : Table Program := .ofList [("t", ⟨"x", [.text "x" ⟨0, 1⟩]⟩)]
    let operations : List (Operation Unit) := [.registerTemplate "t" "\x7b\x7bx /r\x7d\x7d",
      .render ⟨(Program.compile "\x7b\x7ba /r\x7d\x7d").value, .map [("a", .text "\x7b\x7bb\x7d\x7d")],
        false, none, false, none⟩ .text ()]
    (Operation.Fails (after operations) (.registerSaved "t" text) ∧
        Program.decode? text = some program ∧ Table.decode? shared = some table ∧
        (after operations).cache.names = ["\x7b\x7bb\x7d\x7d"]) ∧
      after (operations ++ [.registerSaved "t" text]) = after operations ∧
      ((∃ loaded, Program.load text = .ok loaded) ↔ program.InPlace) ∧
      ((∃ notices engine, loadSaved shared (after operations) = .ok notices engine) ↔
        ∀ entry ∈ table.entries, entry.2.InPlace) := by
  intro text program shared table operations
  have decoded : Program.decode? text = some program := by decide +kernel
  have shared_decoded : Table.decode? shared = some table := by
    have entries : (Program.document? shared).bind (Program.tableOfJson? Json.maxDepth) =
        some [("t", ⟨"x", [.text "x" ⟨0, 1⟩]⟩)] := by decide +kernel
    rw [Table.decode?, entries]
    rfl
  have failed : Program.load text = .error (.misfit ⟨1, 2⟩) := by decide +kernel
  have fails : Operation.Fails (after operations) (.registerSaved "t" text) :=
    .registerSaved (registerSaved_of_error failed "t" _)
  obtain ⟨_, _, unchanged, loads, loads_all⟩ := stored_inPlace operations
  refine ⟨⟨fails, decoded, shared_decoded, by decide +kernel⟩, ?_, (loads text program decoded).1,
    loads_all shared table shared_decoded⟩
  have same := unchanged _ fails []
  rwa [List.append_nil] at same

end Engine

end Stencil
