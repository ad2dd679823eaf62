import Mathlib.Control.Monad.Basic
import Stencil.Proofs.Engine.Restore

/-!
# Saving templates one by one

A template that is saved alone is loaded as it was, with its source and its blocks. This holds of
every template that can be there: those that are compiled, and those that were loaded from any
text. What the text of a loaded template held beside it, such as fields that are passed over, is
gone when the template is saved, and from then on the saved text stays the same.

1. `Program.load_toText`: a template is read back, where its blocks and spans can be.
2. `Program.load_saved`: so is every template that is compiled or loaded.
-/

namespace Stencil

namespace Program

/-- The fields of a template are found behind the version. -/
theorem ofJson?_toJson {program : Program} {depth : Nat}
    (portable : Block.Portable depth program.blocks) :
    ofJson? (depth + 2) program.toJson = some program := by
  have found := Json.fields?_record (("version", .nat savedVersion) :: program.fields)
    (by simp [fields]) fun field (mem : field ∈ program.fields) => List.mem_cons_of_mem _ mem
  have read := Block.mapM_ofJson?_listToJson program.blocks portable.levels portable.bounded
  simp only [fields, List.map_cons, List.map_nil] at found
  rw [toJson, fields, ofJson?, found]
  simp only [read, bind, Option.bind, Json.text, Json.text?]

theorem version?_toJson (program : Program) : version? program.toJson = some savedVersion := by
  have found := Json.fields?_record (("version", .nat savedVersion) :: program.fields)
    (by simp [fields]) fun field (mem : field ∈ [("version", .nat savedVersion)]) =>
      List.mem_cons.mpr (.inl (List.mem_singleton.mp mem))
  simp only [List.map_cons, List.map_nil] at found
  rw [toJson, version?, found]
  rfl

theorem whole_toJson (program : Program) : program.toJson.whole = true := by
  simp [toJson, fields, Json.whole_record, Json.whole_nat, Json.text, Json.whole,
    Block.whole_listToJson]

/-- The version of a saved template is the one that can be read. -/
theorem readVersioned_toText (program : Program) :
    readVersioned program.toJson.toText = .ok program.toJson := by
  rw [readVersioned, Json.ofText?_toText _ program.whole_toJson]
  simp only [version?_toJson, if_pos]

theorem Exportable.portable_alone {program : Program} (exportable : Exportable program) :
    Block.Portable (Json.maxDepth - 2) program.blocks := by
  have less : sharedDepth ≤ Json.maxDepth - 2 := by decide
  exact ⟨Nat.le_trans exportable.portable.levels less, exportable.portable.bounded⟩

/-- A template whose blocks can be read back is loaded as it was saved. -/
theorem load_toText {program : Program} (exportable : Exportable program) :
    load program.toJson.toText = .ok program := by
  have read : ofJson? Json.maxDepth program.toJson = some program :=
    ofJson?_toJson exportable.portable_alone
  rw [load, readVersioned_toText]
  simp only [bind, Except.bind, read, exportable.fits]

/-- Saving a template and loading it loses nothing. A compiled template is loaded with its source
and its blocks, if the source is no longer than 64 bits can count. Whatever text a template was
loaded from, it is loaded again from the text that it is saved as. -/
theorem load_saved :
    (∀ source : String, source.utf8ByteSize < UInt64.size →
      load (compile source).value.toJson.toText = .ok ⟨source, (compile source).value.blocks⟩) ∧
    ∀ text program, load text = .ok program → load program.toJson.toText = .ok program :=
  ⟨fun _ sized => load_toText (exportable_compile sized),
    fun _ _ loaded => load_toText (exportable_of_load loaded)⟩

/-- The compiled template has a character of two bytes before a tag. The loaded one is written with
a field that is passed over, with arrays in place of objects, and with a tree that no source has. -/
theorem load_saved_arrays :
    let source := "\u00e9\x7b\x7ba\x7d\x7d"
    let text := "\x7b\"blocks\":[\x7b\"Iterator\":[\"a\",[\x7b\"Text\":[\"b\",[2,2]]\x7d],[0,2]]\x7d]," ++
      "\"note\":null,\"source\":\"\\u00e9\",\"version\":1\x7d"
    let program : Program := ⟨"\u00e9", [.iteration "a" [.text "b" ⟨2, 2⟩] ⟨0, 2⟩]⟩
    (source.utf8ByteSize < UInt64.size ∧ load text = .ok program) ∧
      load (compile source).value.toJson.toText = .ok ⟨source, (compile source).value.blocks⟩ ∧
      load program.toJson.toText = .ok program := by
  intro source text program
  have sized : source.utf8ByteSize < UInt64.size := by decide +kernel
  have loaded : load text = .ok program := by decide +kernel
  exact ⟨⟨sized, loaded⟩, load_saved.1 source sized, load_saved.2 text program loaded⟩

end Program

end Stencil
