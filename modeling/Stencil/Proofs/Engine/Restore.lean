import Stencil.Proofs.Engine.Operations
import Stencil.Proofs.Outline.Compiled
import Stencil.Proofs.Saved.Accepted
import Stencil.Proofs.Saved.RoundTrip

/-!
# Saved engines

The templates of an engine can be saved together, and any engine can load what was saved. Saved
together, a template stands two levels deeper than alone. Levels come in threes, so a template
that can be loaded alone still fits: 125 levels are left for its blocks there and 123 here, and
the greatest multiple of three below either number is the same.

1. `Program.Exportable`: what a template needs to be saved with others and read back.
2. `Program.exportable_compile`, `Program.exportable_of_load`, `Table.exportable_of_load`: every
   template that can be registered has it.
3. `Table.load_toText`: a table of such templates is read back as it was.
4. `Engine.loadSaved_savedTemplates`: any engine loads what any other one has saved.
-/

namespace Stencil

namespace Program

/-- The levels that are left for the blocks of a template that is saved with others. -/
def sharedDepth : Nat := Json.maxDepth - 4

/-- A template that can be saved with others and read back. -/
structure Exportable (program : Program) : Prop where
  portable : Block.Portable sharedDepth program.blocks
  fits : program.misfit? = none

theorem exportable_of_portable {program : Program}
    (portable : Block.Portable (Json.maxDepth - 2) program.blocks)
    (fits : program.misfit? = none) : Exportable program := by
  refine ⟨⟨?_, portable.bounded⟩, fits⟩
  have threes := Block.three_dvd_levelsList program.blocks
  have levels := portable.levels
  simp only [sharedDepth, Json.maxDepth] at levels ⊢
  omega

/-! ## Templates that can be registered -/

theorem exportable_of_load {text : String} {program : Program} (h : load text = .ok program) :
    Exportable program := by
  obtain ⟨decoded, inPlace⟩ := load_eq_ok_iff.mp h
  obtain ⟨doc, _, read⟩ := Option.bind_eq_some_iff.mp decoded
  exact exportable_of_portable (portable_of_ofJson? read) (misfit?_eq_none_iff_inPlace.mpr inPlace)

/-- A compiled template is exportable, if its source is no longer than 64 bits can count. -/
theorem exportable_compile {source : String} (sized : source.utf8ByteSize < UInt64.size) :
    Exportable (compile source).value := by
  have shallow := levelsList_compile_le source
  refine exportable_of_portable ⟨?_, fun span mem => ?_⟩ ?_
  · simp only [Json.maxDepth, maxNesting] at shallow ⊢
    omega
  · obtain ⟨token, token_mem, rfl⟩ := exists_token_of_mem_compile mem
    have last := Token.stop_le_of_mem_ofSource token_mem
    have ordered := ((Token.covers_ofSource source).within token_mem).2.1
    exact ⟨by omega, by omega⟩
  · rw [misfit?_eq_none_iff]
    exact fun span mem => fits_of_mem_compile mem

end Program

namespace Table

theorem exportable_of_load {text : String} {table : Table Program} (h : load text = .ok table) :
    ∀ entry ∈ table.entries, entry.2.Exportable := by
  obtain ⟨decoded, inPlace⟩ := load_eq_ok_iff.mp h
  obtain ⟨entries, found, rfl⟩ := Option.map_eq_some_iff.mp decoded
  obtain ⟨doc, _, read⟩ := Option.bind_eq_some_iff.mp found
  have portable : ∀ entry ∈ entries, Block.Portable Program.sharedDepth entry.2.blocks :=
    Program.portable_of_tableOfJson? read
  intro entry mem
  refine ⟨?_, Program.misfit?_eq_none_iff_inPlace.mpr (inPlace entry mem)⟩
  exact forall_mem_insertAll (P := fun entry => Block.Portable Program.sharedDepth entry.2.blocks)
    portable (fun _ none => by cases none) entry mem

/-! ## Reading back -/

/-- A table of exportable templates is read back as it was. -/
theorem load_toText {table : Table Program}
    (exportable : ∀ entry ∈ table.entries, entry.2.Exportable) :
    load (Program.tableToJson table.entries).toText = .ok table := by
  have versioned : Program.readVersioned (Program.tableToJson table.entries).toText =
      .ok (Program.tableToJson table.entries) := by
    rw [Program.readVersioned, Json.ofText?_toText _ (Program.whole_tableToJson _)]
    simp only [Program.version?_tableToJson, if_pos]
  have read : Program.tableOfJson? Json.maxDepth (Program.tableToJson table.entries) =
      some table.entries :=
    Program.tableOfJson?_tableToJson fun entry mem => (exportable entry mem).portable
  have fits : table.entries.findSome? (fun entry => entry.2.misfit?.map (entry.1, ·)) = none := by
    rw [List.findSome?_eq_none_iff]
    intro entry mem
    rw [(exportable entry mem).fits]
    rfl
  rw [load, versioned]
  simp only [bind, Except.bind, read, ofList_entries, fits]

end Table

/-! ## Engines -/

/-- A source that is registered is no longer than 64 bits can count. -/
def Operation.Sized {σ : Type} : Operation σ → Prop
  | .registerTemplate _ source => source.utf8ByteSize < UInt64.size
  | _ => True

instance {σ : Type} : DecidablePred (@Operation.Sized σ)
  | .registerTemplate _ source => inferInstanceAs (Decidable (source.utf8ByteSize < UInt64.size))
  | .registerData .. | .setMaxDepth _ | .registerSaved .. | .loadSaved _ | .render .. =>
    inferInstanceAs (Decidable True)

namespace Engine

variable {σ τ : Type}

theorem exportable_of_mem_after {operations : List (Operation σ)}
    (sized : ∀ operation ∈ operations, operation.Sized) :
    ∀ entry ∈ (after operations).templates.entries, entry.2.Exportable :=
  forall_templates_after (fun _ _ loaded => Program.exportable_of_load loaded)
    (fun _ _ loaded => Table.exportable_of_load loaded) operations
    fun _ _ mem => Program.exportable_compile (sized _ mem)

/-- What an engine has saved can be loaded into any engine. The loaded templates go before those
that were there, and nothing else is changed. An engine without templates gets the same table. -/
theorem loadSaved_savedTemplates {operations : List (Operation σ)}
    (sized : ∀ operation ∈ operations, operation.Sized) (other : Engine τ) :
    ∃ templates notices,
      loadSaved (after operations).savedTemplates other =
        .ok notices { other with templates } ∧
      (∀ name, templates.find? name =
        ((after operations).templates.find? name).or (other.templates.find? name)) ∧
      (other.templates = .empty → templates = (after operations).templates) := by
  have restored := Table.load_toText (exportable_of_mem_after sized)
  refine ⟨other.templates.insertAll (after operations).templates.entries,
    [.loadingSaved (after operations).templates.entries.length], ?_,
    Table.find?_insertAll _ _, ?_⟩
  · rw [savedTemplates, loadSaved_of_ok restored]
  · intro empty
    rw [empty]
    exact Table.ofList_entries _

/-- Two templates, one of them registered twice, are restored after a failed load. -/
theorem loadSaved_savedTemplates_greeting :
    let operations : List (Operation Unit) := [
      .registerTemplate "greeting" "Hello",
      .loadSaved "no document",
      .registerTemplate "greeting" "Hello \x7b\x7bname\x7d\x7d!",
      .registerTemplate "farewell" "Bye"]
    ∃ templates notices,
      loadSaved (after operations).savedTemplates (new : Engine Unit) =
        .ok notices { (new : Engine Unit) with templates } ∧
      templates = (after operations).templates := by
  intro operations
  have sized : ∀ operation ∈ operations, operation.Sized := by decide
  obtain ⟨templates, notices, loaded, _, same⟩ := loadSaved_savedTemplates sized (new : Engine Unit)
  exact ⟨templates, notices, loaded, same rfl⟩

end Engine

end Stencil
