import Stencil.Proofs.Outline.Append
import Stencil.Proofs.Outline.Markup
import Stencil.Proofs.Outline.Notices

/-!
# Missing ends

A directive that is never ended is closed at the end of the template, as if the `end` tags that are
missing stood there.

1. `Outline.read_bareEnd`: an `end` that does not say what it ends closes the innermost directive,
   of whatever kind it is.
2. `Outline.foldl_read_bareEnds`: as many of them as there are open directives leave the blocks that
   closing the directives leaves.
3. `Program.compile_bareEnds`: so a template may be ended explicitly, unless a brace that is left at
   its end could be taken for a part of the first `end`.
-/

namespace Stencil

/-! ## The tag -/

/-- An `end` that does not say what it ends, without white space. -/
def Ending.bare : Ending := ⟨⟨false, ⟨[], rfl⟩, ⟨[], rfl⟩⟩, none⟩

namespace Piece

def bareEnd : Piece := .tag (.ending .bare .ofEnd)

/-- The word for a kind is left out, so it does not matter. -/
theorem bareEnd_eq (kind : Word) : bareEnd = .tag (.ending .bare kind) := rfl

theorem write_bareEnd : bareEnd.write = "\x7b\x7bend\x7d\x7d".toList := by decide

theorem writeAll_bareEnds (count : Nat) : String.ofList (writeAll (List.replicate count bareEnd)) =
    String.join (List.replicate count "\x7b\x7bend\x7d\x7d") := by
  rw [← String.toList_inj, String.toList_ofList, String.toList_join]
  induction count with
  | zero => rfl
  | succ count ih =>
    rw [List.replicate_succ, List.replicate_succ, writeAll, List.flatMap_cons, ← writeAll, ih,
      write_bareEnd, List.flatMap_cons]

theorem apart_bareEnds (count : Nat) : Apart (List.replicate count bareEnd) := by
  induction count with
  | zero => exact .nil
  | succ count ih =>
    rw [List.replicate_succ]
    exact apart_tag _ ih

theorem tagFirst_bareEnds (count : Nat) : TagFirst (List.replicate count bareEnd) := by
  cases count with
  | zero => exact nofun
  | succ count => exact tagFirst_tag _ _

end Piece

/-! ## Reading -/

namespace Outline

variable {limit start : Nat} {outline : Outline} {frame : Frame}

/-- A bare `end` closes the innermost directive, of whatever kind it is. -/
theorem read_bareEnd (inside : outline.overflow = 0) :
    (outline.enter frame).read limit (Piece.bareEnd.token start) = outline.add frame.close := by
  cases opened : frame.opening with
  | condition name recursive =>
    rw [Piece.bareEnd_eq .ofIf]
    exact read_ending .bare inside (by rw [opened]; rfl)
  | iteration name =>
    rw [Piece.bareEnd_eq .ofForeach]
    exact read_ending .bare inside (by rw [opened]; rfl)

/-- A bare `end` for each open directive leaves the blocks that closing the directives leaves. -/
theorem foldl_read_bareEnds (limit start : Nat) {count : Nat} (inside : outline.overflow = 0)
    (opened : outline.frames.length = count) :
    let ended := (Piece.tokens start (List.replicate count .bareEnd)).foldl (read limit) outline
    ended.closed = outline.closed ∧ ended.Settled ∧ ended.notices = outline.notices := by
  induction count generalizing start outline with
  | zero => exact ⟨rfl, ⟨List.length_eq_zero_iff.mp opened, inside⟩, rfl⟩
  | succ count ih =>
    obtain ⟨top, frames, overflow, notices⟩ := outline
    obtain ⟨frame, frames, rfl⟩ := List.exists_cons_of_length_eq_add_one opened
    have within_limit : (Outline.mk top frames overflow notices).overflow = 0 := inside
    have ended : read limit ⟨top, frame :: frames, overflow, notices⟩
        (Piece.bareEnd.token start) = (Outline.mk top frames overflow notices).add frame.close :=
      read_bareEnd within_limit
    have fewer : ((Outline.mk top frames overflow notices).add frame.close).frames.length =
        count := by
      rw [length_frames_add]
      exact Nat.succ.inj opened
    have same : Outline.closed ⟨top, frame :: frames, overflow, notices⟩ =
        ((Outline.mk top frames overflow notices).add frame.close).closed := closed_eq rfl
    rw [List.replicate_succ, foldl_read_cons, ended, same]
    obtain ⟨blocks, settled, noted⟩ := ih _ (by rw [overflow_add]; exact inside) fewer
    exact ⟨blocks, settled, noted.trans (notices_add ..)⟩

/-- The directives that are open come last among the notices, in one. -/
theorem allNotices_eq (outline : Outline) :
    let missing := outline.frames.reverse.map Frame.tag
    outline.allNotices =
      outline.notices.reverse ++ if missing = [] then [] else [.missingEnd missing] := by
  obtain ⟨top, frames, overflow, notices⟩ := outline
  cases frames <;> simp [allNotices]

end Outline

/-! ## Compiling -/

namespace Program

/-- Where no directive is open past the limit and no opening brace is left behind the last tag, a
template compiles to the same blocks with an `end` for each directive that is open at its end. Only
the notice that they are missing is gone. -/
theorem compile_bareEnds (source : String)
    (inside : (Outline.ofTokens maxNesting (Token.ofSource source)).overflow = 0)
    (unopened : '\x7b' ∉ (Token.trailing (Token.ofSource source)).toList) :
    let frames := (Outline.ofTokens maxNesting (Token.ofSource source)).frames
    let ended := source ++ String.join (List.replicate frames.length "\x7b\x7bend\x7d\x7d")
    let missing := frames.reverse.map Frame.tag
    (compile ended).value.blocks = (compile source).value.blocks ∧
      (compile source).notices =
        (compile ended).notices ++ if missing = [] then [] else [.missingEnd missing] := by
  intro frames ended missing
  have tokens := Token.ofSource_append_writeAll unopened (Piece.apart_bareEnds frames.length)
    (Piece.tagFirst_bareEnds frames.length)
  rw [Piece.writeAll_bareEnds] at tokens
  obtain ⟨blocks, settled, noted⟩ :=
    Outline.foldl_read_bareEnds maxNesting source.utf8ByteSize inside rfl
  have whole : Outline.ofTokens maxNesting (Token.ofSource ended) =
      (Piece.tokens source.utf8ByteSize (List.replicate frames.length .bareEnd)).foldl
        (Outline.read maxNesting) (Outline.ofTokens maxNesting (Token.ofSource source)) := by
    rw [tokens, Outline.ofTokens, List.foldl_append]
    rfl
  rw [← whole] at blocks settled noted
  have all : (compile ended).notices =
      (Outline.ofTokens maxNesting (Token.ofSource source)).notices.reverse := by
    rw [← noted]
    show (Outline.ofTokens maxNesting (Token.ofSource ended)).allNotices = _
    rw [Outline.allNotices, settled.frames]
    rfl
  rw [all]
  exact ⟨blocks, Outline.allNotices_eq _⟩

/-- An iteration in the second branch of a condition, with a closing brace behind its last tag. -/
theorem compile_bareEnds_branch :
    let source := "a\x7b\x7bif b\x7d\x7d\x7b\x7belse\x7d\x7d\x7b\x7bforeach c\x7d\x7d \x7d"
    (compile (source ++ "\x7b\x7bend\x7d\x7d\x7b\x7bend\x7d\x7d")).value.blocks =
        [.text "a" ⟨0, 1⟩, .condition "b" false []
          [.iteration "c" [.text " \x7d" ⟨30, 32⟩] ⟨17, 30⟩] ⟨1, 9⟩] ∧
      (compile source).notices =
        [.missingEnd ["\x7b\x7bif b\x7d\x7d", "\x7b\x7bforeach c\x7d\x7d"]] := by
  intro source
  obtain ⟨blocks, noted⟩ := compile_bareEnds source (by decide +kernel) (by decide +kernel)
  have count : (Outline.ofTokens maxNesting (Token.ofSource source)).frames.length = 2 := by
    decide +kernel
  rw [count] at blocks noted
  exact ⟨blocks.trans (by decide +kernel), noted.trans (by decide +kernel)⟩

end Program

end Stencil
