import Stencil.Proofs.Engine.Stored
import Stencil.Proofs.Saved.RoundTrip

/-!
# Saved templates of another version

The version of a saved document is looked at before anything else. What another version put into the
other fields can be anything, so it must not matter: not for a template, not for several ones, and
not for the engine that was to hold them.

1. `Program.version?_record`: the version of an object with any other fields.
2. `Program.readVersioned_eq_unsupported_iff`: which texts are refused for their version.
3. `Engine.refuses_version`: every load of a document of another version fails for its version, and
   the engine stays as it was.
-/

namespace Stencil

variable {σ : Type}

/-! ## The version of a document -/

namespace Program

/-- The version of an object that has one. Its other fields are not looked at. -/
theorem version?_record {before after : List (String × Json)} {version : Nat}
    (single : "version" ∉ (before ++ after).map Prod.fst) (small : version < UInt32.size) :
    version? (.record (before ++ ("version", .nat version) :: after)) = some version := by
  rw [version?, Json.fields?_record_eq, List.mapM_cons,
    Json.field?_of_single (.nat version) single]
  simp [Json.nat, Json.nat?, small]

/-- A text is refused for its version exactly if it is a document with a version, and this version
cannot be read. -/
theorem readVersioned_eq_unsupported_iff {text : String} {version : Nat} :
    readVersioned text = .error (.unsupportedVersion version) ↔
      ∃ doc, Json.ofText? text = some doc ∧ version? doc = some version ∧
        version ≠ savedVersion := by
  rw [readVersioned]
  cases Json.ofText? text with
  | none => simp
  | some doc => cases found : version? doc <;> grind

theorem load_of_readVersioned {text : String} {failure : LoadFailure}
    (refused : readVersioned text = .error failure) : load text = .error failure := by
  rw [load, refused]
  rfl

end Program

theorem Table.load_of_readVersioned {text : String} {failure : LoadFailure}
    (refused : Program.readVersioned text = .error failure) : load text = .error failure := by
  rw [load, refused]
  rfl

/-! ## Loading -/

theorem Error.display_unsupportedVersion (version : Nat) :
    (ofCause (.load (.unsupportedVersion version))).display =
      "failed to load template: unsupported version " ++ toString version ++ ", expected 1" := by
  have front : "failed to load template: " ++ "unsupported version " =
      "failed to load template: unsupported version " := by decide +kernel
  have back : ", expected " ++ toString savedVersion = ", expected 1" := by decide +kernel
  calc (ofCause (.load (.unsupportedVersion version))).display
    _ = "failed to load template: " ++ ("unsupported version " ++ toString version ++
          ", expected " ++ toString savedVersion) := rfl
    _ = "failed to load template: " ++ "unsupported version " ++ toString version ++
          (", expected " ++ toString savedVersion) := by simp only [String.append_assoc]
    _ = _ := by rw [front, back]

namespace Engine

/-- The version comes first. A text spells an object in which `version` stands once and is a number
of 32 bits other than one. Whatever the other fields are called and hold, in whatever order, with
white space and escapes wherever JSON has them, and nested to any depth: it is not loaded as a
template, not registered under a name, and not loaded as several templates, each time for its
version, and the engine stays as it was. -/
theorem refuses_version (engine : Engine σ) (name : String) {before after : List (String × Json)}
    {version : Nat} {text : String}
    (document : (Json.record (before ++ ("version", .nat version) :: after)).Document text)
    (single : "version" ∉ (before ++ after).map Prod.fst) (small : version < UInt32.size)
    (other : version ≠ 1) :
    Program.load text = .error (.unsupportedVersion version) ∧
      registerSaved name text engine = .error (.unsupportedVersion version) engine ∧
      loadSaved text engine = .error (.unsupportedVersion version) engine ∧
      engine.perform (.registerSaved name text) = engine ∧
      engine.perform (.loadSaved text) = engine ∧
      (Error.ofCause (.load (.unsupportedVersion version))).display =
        "failed to load template: unsupported version " ++ toString version ++ ", expected 1" := by
  have refused : Program.readVersioned text = .error (.unsupportedVersion version) :=
    Program.readVersioned_eq_unsupported_iff.mpr
      ⟨_, Json.ofText?_of_document document, Program.version?_record single small, other⟩
  have registering := registerSaved_of_error (Program.load_of_readVersioned refused) name engine
  have loading := loadSaved_of_error (Table.load_of_readVersioned refused) engine
  exact ⟨Program.load_of_readVersioned refused, registering, loading,
    perform_of_fails (.registerSaved registering), perform_of_fails (.loadSaved loading),
    Error.display_unsupportedVersion version⟩

def nestedArrays : Nat → Json
  | 0 => .null
  | depth + 1 => .array [nestedArrays depth]

/-- The blocks are there twice, once with a span that fits no source, the source is no text, and
another field is nested deeper than any template may be. -/
theorem refuses_version_two :
    let block := Json.record [("Text", .array [.text "x", .array [.nat 5, .nat 2]])]
    let before := [("blocks", .array [block]), ("source", .bool false), ("blocks", .null)]
    let after := [("deep", nestedArrays 130), ("half", .string none)]
    let doc := Json.record (before ++ ("version", .nat 2) :: after)
    let text := String.ofList (' ' :: (doc.print ++ ['\n']))
    let engine : Engine Unit := (new.registerTemplate "t" "x").value
    (doc.Document text ∧ "version" ∉ (before ++ after).map Prod.fst ∧ 2 < UInt32.size ∧ 2 ≠ 1) ∧
      Program.load text = .error (.unsupportedVersion 2) ∧
      registerSaved "t" text engine = .error (.unsupportedVersion 2) engine ∧
      loadSaved text engine = .error (.unsupportedVersion 2) engine ∧
      engine.perform (.registerSaved "t" text) = engine ∧
      engine.perform (.loadSaved text) = engine ∧
      (Error.ofCause (.load (.unsupportedVersion 2))).display =
        "failed to load template: unsupported version 2, expected 1" := by
  intro block before after doc text engine
  have document : doc.Document text :=
    .intro ⟨[' '], doc.print, ['\n'], rfl, rfl⟩ (Json.spelled_print doc (by decide +kernel))
  have single : "version" ∉ (before ++ after).map Prod.fst := by decide +kernel
  obtain ⟨load, register, loadAll, kept, kept', message⟩ :=
    refuses_version engine "t" document single (by decide) (by decide)
  refine ⟨⟨document, single, by decide, by decide⟩, load, register, loadAll, kept, kept', ?_⟩
  rw [message]
  decide +kernel

end Engine

end Stencil
