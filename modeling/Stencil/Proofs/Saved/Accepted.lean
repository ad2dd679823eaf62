import Stencil.Engine
import Stencil.Proofs.Block.Tree

/-!
# Which saved templates are accepted

A text is decoded if it is a document of the version that can be read, with all fields of a template
or of several ones. What is decoded is accepted exactly if every block, at any nesting, was written
at a region of its source. Of several templates with one name a document decodes to the last one.

1. `Span.fits_iff`: a span selects a region if its ends are in order, within the source, and on
   boundaries between characters.
2. `Program.load_eq_ok_iff`, `Table.load_eq_ok_iff`: what is loaded from a text.
-/

namespace Stencil

/-! ## Regions -/

/-- A span of a source. Its ends are in order and within the source, and they lie between
characters. -/
structure Span.Within (span : Span) (source : String) : Prop where
  ordered : span.start ≤ span.stop
  inside : span.stop ≤ source.utf8ByteSize
  start_between : String.Pos.Raw.IsValid source ⟨span.start⟩
  stop_between : String.Pos.Raw.IsValid source ⟨span.stop⟩

/-- A position is between characters where some characters fill the source up to it. -/
theorem isValid_iff_exists_front {source : String} {position : Nat} :
    String.Pos.Raw.IsValid source ⟨position⟩ ↔
      ∃ front back, source.toList = front ++ back ∧ byteLength front = position := by
  rw [String.Pos.Raw.isValid_iff_exists_append]
  constructor
  · rintro ⟨front, back, rfl, at_end⟩
    refine ⟨front.toList, back.toList, String.toList_append, ?_⟩
    rw [byteLength_toList]
    exact (congrArg String.Pos.Raw.byteIdx at_end).symm
  · rintro ⟨front, back, split, length⟩
    refine ⟨.ofList front, .ofList back, ?_, ?_⟩
    · rw [← String.ofList_append, ← split, String.ofList_toList]
    · rw [String.Pos.Raw.ext_iff, ← length, String.byteIdx_rawEndPos, ← byteLength_toList,
        String.toList_ofList]

theorem Span.fits_iff {span : Span} {source : String} :
    span.fits source = true ↔ span.Within source := by
  rw [fits, Option.isSome_iff_exists]
  simp only [select?_eq_some_iff]
  constructor
  · rintro ⟨region, before, after, split, start_eq, stop_eq⟩
    have size := congrArg byteLength split
    rw [byteLength_toList, byteLength_append, stop_eq] at size
    refine ⟨?_, by omega, isValid_iff_exists_front.mpr ⟨before, region ++ after, ?_, start_eq⟩,
      isValid_iff_exists_front.mpr ⟨before ++ region, after, split, stop_eq⟩⟩
    · rw [byteLength_append] at stop_eq
      omega
    · rw [split, List.append_assoc]
  · rintro ⟨ordered, _, start_between, stop_between⟩
    obtain ⟨before, rest, split, start_eq⟩ := isValid_iff_exists_front.mp start_between
    obtain ⟨front, after, split', stop_eq⟩ := isValid_iff_exists_front.mp stop_between
    have shorter : before <+: front := by
      have both : before ++ rest = front ++ after := split.symm.trans split'
      rcases List.append_eq_append_iff.mp both with ⟨region, rfl, _⟩ | ⟨region, rfl, _⟩
      · exact List.prefix_append before region
      · rw [byteLength_append] at start_eq
        have empty : region = [] := byteLength_eq_zero_iff.mp (by omega)
        simp [empty]
    obtain ⟨region, rfl⟩ := shorter
    exact ⟨region, before, after, split', start_eq, stop_eq⟩

/-- Every block of a template, at every nesting, was written at a region of the source. -/
def Program.InPlace (program : Program) : Prop :=
  ∀ span ∈ Block.spansList program.blocks, span.Within program.source

theorem Program.misfit?_eq_none_iff_inPlace {program : Program} :
    program.misfit? = none ↔ program.InPlace := by
  rw [misfit?_eq_none_iff]
  exact forall₂_congr fun _ _ => Span.fits_iff

/-! ## Loading -/

namespace Program

/-- The document in a text, if it is of the version that can be read. -/
def document? (text : String) : Option Json :=
  (Json.ofText? text).filter fun doc => version? doc == some savedVersion

def decode? (text : String) : Option Program :=
  (document? text).bind (ofJson? Json.maxDepth)

theorem readVersioned_eq_ok_iff {text : String} {doc : Json} :
    readVersioned text = .ok doc ↔ document? text = some doc := by
  rw [readVersioned, document?, Option.filter_eq_some_iff]
  cases Json.ofText? text with
  | none => simp
  | some other => grind

/-- A text is loaded exactly if it is decoded and every block is in place. -/
theorem load_eq_ok_iff {text : String} {program : Program} :
    load text = .ok program ↔ decode? text = some program ∧ program.InPlace := by
  rw [load, decode?, Option.bind_eq_some_iff, ← misfit?_eq_none_iff_inPlace]
  simp only [← readVersioned_eq_ok_iff]
  cases readVersioned text with
  | error failure => simp [bind, Except.bind]
  | ok doc =>
    simp only [bind, Except.bind, Except.ok.injEq, exists_eq_left']
    cases ofJson? Json.maxDepth doc with
    | none => simp
    | some found => grind

end Program

namespace Table

def decode? (text : String) : Option (Table Program) :=
  ((Program.document? text).bind (Program.tableOfJson? Json.maxDepth)).map ofList

/-- Templates are loaded together exactly if they are decoded and every block of each is in
place. -/
theorem load_eq_ok_iff {text : String} {table : Table Program} :
    load text = .ok table ↔
      decode? text = some table ∧ ∀ entry ∈ table.entries, entry.2.InPlace := by
  have checked : ∀ table : Table Program,
      table.entries.findSome? (fun entry => entry.2.misfit?.map (entry.1, ·)) = none ↔
        ∀ entry ∈ table.entries, entry.2.InPlace := by
    intro table
    rw [List.findSome?_eq_none_iff]
    simp only [Option.map_eq_none_iff, Program.misfit?_eq_none_iff_inPlace]
  rw [load, decode?, Option.map_eq_some_iff, ← checked]
  simp only [Option.bind_eq_some_iff, ← Program.readVersioned_eq_ok_iff]
  cases Program.readVersioned text with
  | error failure => simp [bind, Except.bind]
  | ok doc =>
    simp only [bind, Except.bind, Except.ok.injEq, exists_eq_left']
    cases Program.tableOfJson? Json.maxDepth doc with
    | none => simp
    | some entries => grind

end Table

end Stencil
