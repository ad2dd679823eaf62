import Stencil.Proofs.Outline.Rewritten
import Stencil.Proofs.Token.Single

/-!
# Placeholders that are reconstructed

An undefined placeholder can be written to the output as a tag, for a later pass to fill in.

1. `Token.ofSource_text_unbalanced`: an unbalanced tag by itself is text.
2. `Placeholder.Named.leads_alone`: written as a tag, a placeholder keeps its shape, unless its name
   begins with a brace that is taken for a third one in front of it.
3. `Program.compile_toSource`: so the tag compiles to the placeholder, and to text where the shape
   is lost.
-/

namespace Stencil

open Text

/-! ## Tags by themselves -/

/-- An unbalanced tag by itself is text. -/
theorem Token.ofSource_text_unbalanced {shape : Shape} (leads : shape.Leads shape.text)
    (unbalanced : shape.opening ≠ shape.closing) :
    ofSource (String.ofList shape.text) =
      [.raw (String.ofList shape.text) ⟨0, byteLength shape.text⟩ [String.ofList shape.text]] := by
  obtain ⟨rest, split, here⟩ := Candidate.at?_of_leads leads
  obtain rfl : rest = [] := List.self_eq_append_right.mp split
  have missing : Candidate.find? (shape.candidate []).rest = none := rfl
  have nonempty : shape.text ≠ [] := by
    intro empty
    rw [empty] at here
    cases here
  rw [ofSource, String.toList_ofList,
    scan_of_unbalanced (Candidate.find?_of_at? here) unbalanced, scan_of_none missing]
  show ofRaw 0 ([] ++ [] ++ shape.text ++ []) [String.ofList shape.text] = _
  rw [List.append_nil, List.nil_append, List.nil_append, ofRaw, if_neg (by simpa using nonempty),
    Nat.zero_add]

/-! ## Reconstructions -/

namespace Placeholder

/-- The name begins with a brace, and there are only two braces in front of it. -/
def Swallowed (p : Placeholder) : Prop :=
  p.escape = true ∧ p.name.toList.head? = some '\x7b'

variable {p : Placeholder}

theorem ofList_text_shape (p : Placeholder) : String.ofList p.shape.text = p.toSource := by
  rw [← p.toList_toSource, String.ofList_toList]

namespace Named

variable (named : p.Named)
include named

/-- Written as a tag, a placeholder keeps its shape. -/
theorem leads_alone (kept : ¬ p.Swallowed) : p.shape.Leads p.shape.text := by
  have nothing : ∀ c ∈ ([] : List Char).head?, c ≠ '\x7d' := by simp
  exact (named.leads (not_and.mp kept) nothing).alone

/-- The brace that the name begins with is read as the third one in front of the rest of it. -/
theorem leads_swallowed (swallowed : p.Swallowed) :
    ∃ rest, Shape.text ⟨3, rest, 2⟩ = p.shape.text ∧
      Shape.Leads ⟨3, rest, 2⟩ (Shape.text ⟨3, rest, 2⟩) := by
  obtain ⟨escape, begins⟩ := swallowed
  obtain ⟨rest, name⟩ := List.head?_eq_some_iff.mp begins
  have two : p.braces = 2 := if_pos escape
  have unclosed : '\x7d' ∉ rest := fun mem =>
    (named.ne_of_mem (by rw [name]; exact List.mem_cons_of_mem _ mem)).1 rfl
  have few : (wordsOf rest).length ≤ 3 := by
    have longer := length_wordsOf_le_cons isBlank_brace.1 rest
    rw [← name] at longer
    exact Nat.le_trans longer (Nat.le_trans named.length_wordsOf_le (by decide))
  have nothing : ∀ c ∈ ([] : List Char).head?, c ≠ '\x7d' := by simp
  refine ⟨rest, ?_, (Shape.leads_wide (Nat.le_refl 2) (Nat.le_succ 2) unclosed few nothing).alone⟩
  rw [shape, two, name]
  rfl

/-- The tag of a placeholder is one token. -/
theorem ofSource_toSource (kept : ¬ p.Swallowed) :
    Token.ofSource p.toSource = [.tag (p.shape.tag 0)] := by
  rw [← p.ofList_text_shape]
  exact Token.ofSource_text (named.leads_alone kept) rfl

theorem ofSource_toSource_swallowed (swallowed : p.Swallowed) :
    Token.ofSource p.toSource = [.raw p.toSource ⟨0, p.toSource.utf8ByteSize⟩ [p.toSource]] := by
  obtain ⟨rest, same, leads⟩ := named.leads_swallowed swallowed
  have different : (Shape.mk 3 rest 2).opening ≠ (Shape.mk 3 rest 2).closing :=
    show 3 ≠ 2 by decide
  rw [← byteLength_toList, p.toList_toSource, ← p.ofList_text_shape, ← same]
  exact Token.ofSource_text_unbalanced leads different

end Named

end Placeholder

/-! ## Compiling -/

namespace Program

/-- By itself the tag of a placeholder compiles to the placeholder without its recursion flag,
except where the name begins with a brace behind two others. There it is an unbalanced tag, so
text. -/
theorem compile_toSource {source : String} {p : Placeholder}
    (mem : .placeholder p ∈ Block.headsList (compile source).value.blocks) :
    let whole : Span := ⟨0, p.toSource.utf8ByteSize⟩
    ((compile p.toSource).value.blocks = [.placeholder ⟨p.name, false, p.escape, whole⟩] ↔
        ¬ p.Swallowed) ∧
      (p.Swallowed → compile p.toSource =
        ⟨⟨p.toSource, [.text p.toSource whole]⟩, [.unbalanced p.toSource]⟩) := by
  intro whole
  have named := named_of_mem_compile mem
  have lost (swallowed : p.Swallowed) : compile p.toSource =
      ⟨⟨p.toSource, [.text p.toSource whole]⟩, [.unbalanced p.toSource]⟩ := by
    rw [compile, named.ofSource_toSource_swallowed swallowed]
    rfl
  have found (kept : ¬ p.Swallowed) :
      (compile p.toSource).value.blocks = [.placeholder ⟨p.name, false, p.escape, whole⟩] := by
    have tokens := named.ofSource_toSource kept
    have size : (p.shape.tag 0).span = whole := by
      rw [Shape.tag, Shape.stop_eq, ← p.toList_toSource, byteLength_toList, Nat.zero_add]
    rw [blocks_compile_of_free, tokens, List.map_singleton, Token.leaf_tag_of_named named, size]
    intro tag among
    rw [tokens, List.mem_singleton] at among
    obtain rfl := Token.tag.inj among
    rw [named.first_tag]
    exact named.free
  refine ⟨⟨fun same swallowed => ?_, found⟩, lost⟩
  rw [lost swallowed] at same
  cases same

/-- A recursive placeholder in a condition, with a name that begins with a brace behind three. -/
theorem compile_toSource_wide :
    let p : Placeholder := ⟨"\x7ba", true, false, ⟨8, 20⟩⟩
    .placeholder p ∈ Block.headsList (compile
        "\x7b\x7bif b\x7d\x7d\x7b\x7b\x7b \x7ba /r\x7d\x7d\x7d\x7b\x7bend\x7d\x7d").value.blocks ∧
      (compile p.toSource).value.blocks = [.placeholder ⟨"\x7ba", false, false, ⟨0, 8⟩⟩] := by
  intro p
  have mem : .placeholder p ∈ Block.headsList (compile
      "\x7b\x7bif b\x7d\x7d\x7b\x7b\x7b \x7ba /r\x7d\x7d\x7d\x7b\x7bend\x7d\x7d").value.blocks := by
    decide +kernel
  exact ⟨mem, (compile_toSource mem).1.mpr fun swallowed => Bool.noConfusion swallowed.1⟩

/-- White space separates the name from two braces in front of it, and is left out of the tag. -/
theorem compile_toSource_swallowed :
    let p : Placeholder := ⟨"\x7bx", false, true, ⟨0, 8⟩⟩
    (compile "\x7b\x7b \x7bx \x7d\x7d").value.blocks = [.placeholder p] ∧
      (compile p.toSource).value.blocks ≠
        [.placeholder ⟨p.name, false, p.escape, ⟨0, p.toSource.utf8ByteSize⟩⟩] := by
  decide +kernel

end Program

end Stencil
