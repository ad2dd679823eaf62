import Stencil.Proofs.Outline.Compiled
import Stencil.Proofs.Outline.Escaped
import Stencil.Proofs.Render.Cache
import Stencil.Proofs.Render.Limited

/-!
# Escaping placeholders

A template whose placeholders escape their values lets no markup out of the data, however a value
was found and wherever the render ends. Where such a placeholder is recursive, the text of its value
is escaped before it is compiled, which leaves its directives as they are.

1. `Reaches.harmless`: what such a template comes to write is a text of the template, or harmless.
2. `Engine.render_escaping`: the same for whole renders, to outputs of any size.
3. `Level.placeholder_of_escaping`: an escaping recursive placeholder renders the escaped template
   of its text, which `Program.compile_escapeHtml` compares with the template of the text.
-/

namespace Stencil

variable {σ : Type}

/-! ## Escaping templates -/

/-- Whether a block, if it is a placeholder, escapes its value and takes it for no template. -/
def Block.isEscaping : Block → Bool
  | .placeholder p => p.escape && !p.recursive
  | _ => true

/-- All placeholders in some blocks escape their values, and take none of them for a template. -/
def Block.Escaping (blocks : List Block) : Prop :=
  ∀ head ∈ Block.headsList blocks, head.isEscaping = true

theorem Block.Escaping.head {p : Placeholder} {rest : List Block}
    (escaping : Block.Escaping (.placeholder p :: rest)) :
    p.escape = true ∧ p.recursive = false := by
  have first := escaping (.placeholder p) List.mem_cons_self
  simpa [isEscaping] using first

/-- A write of a text that stands in a template, or of a text without markup. -/
def Write.Harmless (write : Write) (blocks : List Block) : Prop :=
  write.origin = .literal ∧ (∃ span, .text write.text span ∈ Block.headsList blocks) ∨
    Text.Harmless write.text.toList

/-- What is harmless among blocks that stand in a template is harmless in the template. -/
theorem Write.Harmless.of_inner {write : Write} {blocks inner : List Block}
    (escaping : Block.Escaping blocks)
    (among : Block.headsList inner ⊆ Block.headsList blocks)
    (harmless : Block.Escaping inner → write.Harmless inner) : write.Harmless blocks := by
  have inner_escaping : Block.Escaping inner := fun head mem => escaping head (among mem)
  exact (harmless inner_escaping).imp_left fun ⟨literal, span, mem⟩ => ⟨literal, span, among mem⟩

/-- Whatever is written while such a template is rendered is harmless. A value is escaped where it
is written, so it does not matter how it was found. -/
theorem Reaches.harmless {setting : Setting σ} {depth : Nat} {place : Place σ}
    {blocks : List Block} {run moment : Run σ} {write : Write}
    (reached : Reaches setting depth place blocks run write moment)
    (escaping : Block.Escaping blocks) (leaving : place.keepUndefined = false) :
    write.Harmless blocks := by
  induction reached with
  | text content span rest run => exact .inl ⟨rfl, span, List.mem_cons_self⟩
  | undefined resolved kept =>
    rw [kept] at leaving
    cases leaving
  | @value _ _ p _ _ _ value resolved present ready =>
    right
    show Text.Harmless (p.textOf value).toList
    rw [Placeholder.textOf, if_pos escaping.head.1, Text.toList_escapeHtml]
    exact Text.harmless_escaped _
  | @fragment _ _ p _ _ _ _ _ _ _ _ resolved present tagged =>
    rw [escaping.head.2] at tagged
    cases tagged
  | absent resolved inner ih =>
    refine .of_inner escaping ?_ fun inner => ih inner leaving
    exact List.subset_append_of_subset_left _ (Block.headsList_branch_subset false)
  | @branch _ _ _ _ _ _ _ _ _ _ _ _ _ selected _ resolved held inner ih =>
    refine .of_inner escaping ?_ fun inner => ih inner leaving
    exact List.subset_append_of_subset_left _ (Block.headsList_branch_subset selected)
  | body resolved truthy met written ih =>
    refine .of_inner escaping ?_ fun inner => ih inner leaving
    exact List.subset_append_of_subset_left _ Block.headsList_body_subset
  | later done inner ih =>
    refine .of_inner escaping ?_ fun inner => ih inner leaving
    exact List.subset_append_right _ _

namespace Engine

/-- Escaping placeholders let no markup through. If all placeholders of a template escape their
values and none is recursive, whatever is registered, whatever the data, and wherever the render
starts and ends, each write is that of a text of this template, or it holds no angle bracket, no
quote and no `&` but at the front of an entity. -/
theorem render_escaping (engine : Engine σ) {job : Job σ} (target : Target) (host : σ)
    (escaping : Block.Escaping job.program.blocks) (leaving : job.keepUndefined = false) :
    ∀ write ∈ (engine.render job target host).writes, write.Harmless job.program.blocks := by
  intro write mem
  obtain ⟨moment, data, host', _, reached⟩ := engine.reaches_of_mem_writes mem
  exact reached.harmless escaping leaving

/-- The raw template that stands in for a member writes a quote and markup, and the value of its
fragment comes from the host. The second render ends at the limit on depth. -/
theorem render_escaping_standIn :
    let engine : Engine Nat :=
      (Engine.new.registerTemplate "t" "<i>\x7b\x7b\x7bv /r\x7d\x7d\x7d</i>").value
    let value : Value Nat := .computed 0 fun calls =>
      .value (calls + 1) (.text "\x7b\x7b\x7bw\x7d\x7d\x7d&amp;")
    let program := (Program.compile
      "<p>\x7b\x7bt\x7d\x7d\x7b\x7bif v /r\x7d\x7d\x7b\x7bw\x7d\x7d\x7b\x7bend\x7d\x7d</p>").value
    let job : Job Nat :=
      ⟨program, .map [("v", value), ("w", .text "\"")], false, none, false, none⟩
    let shallow : Job Nat := { job with maxDepth := some 1 }
    (Block.Escaping program.blocks ∧
        (engine.render job .text 0).written = "<p>&lt;i&gt;&quot;&amp;amp;&lt;/i&gt;&quot;</p>" ∧
        (engine.render shallow .text 0).written = "<p>") ∧
      (∀ write ∈ (engine.render job .text 0).writes, write.Harmless program.blocks) ∧
      ∀ write ∈ (engine.render shallow .text 0).writes, write.Harmless program.blocks := by
  intro engine value program job shallow
  have escaping : Block.Escaping program.blocks := by
    show ∀ head ∈ Block.headsList program.blocks, head.isEscaping = true
    decide +kernel
  exact ⟨⟨escaping, by decide +kernel, by decide +kernel⟩,
    engine.render_escaping .text 0 escaping rfl, engine.render_escaping .text 0 escaping rfl⟩

end Engine

/-! ## Escaping recursive placeholders -/

theorem hasTag_cons (c : Char) (text : List Char) :
    hasTag (c :: text) = (decide (2 ≤ runLength '\x7b' (c :: text)) || hasTag text) := by
  cases text with
  | nil => by_cases c = '\x7b' <;> simp_all [hasTag, runLength]
  | cons d text =>
    by_cases c = '\x7b' <;> by_cases d = '\x7b' <;> simp_all [hasTag, runLength_cons]

/-- Whether a text holds a tag can be asked before it is escaped, or afterwards. -/
theorem hasTag_escaped (text : List Char) : hasTag (Text.escaped text) = hasTag text := by
  have passed : ∀ front rest : List Char, '\x7b' ∉ front →
      hasTag (front ++ rest) = hasTag rest := by
    intro front rest free
    induction front with
    | nil => rfl
    | cons c front ih =>
      rw [List.mem_cons, not_or] at free
      rw [List.cons_append, hasTag_cons, ih free.2, runLength_cons, if_neg (Ne.symm free.1)]
      rfl
  induction text with
  | nil => rfl
  | cons c text ih =>
    rcases Text.escapeChar_cases c with ⟨_, same⟩ | ⟨special, entity, mem, same⟩
    · have whole : c :: Text.escaped text = Text.escaped (c :: text) := by
        rw [Text.escaped_cons, same, List.singleton_append]
      rw [← whole, hasTag_cons, ih, whole, runLength_escaped (.inl rfl), ← hasTag_cons]
    · have free : ∀ entity ∈ Text.entities, '\x7b' ∉ entity.toList := by decide
      have other : c ≠ '\x7b' := by
        rintro rfl
        exact absurd special (by decide)
      rw [Text.escaped_cons, same, passed _ _ (free entity mem), ih, hasTag_cons, runLength_cons,
        if_neg other]
      rfl

/-- An escaping recursive placeholder renders the escaped template of its text, if the text holds a
tag. -/
theorem Level.placeholder_of_escaping {setting : Setting σ} {depth : Nat} {place : Place σ}
    {p : Placeholder} {run run' : Run σ} {value : Value σ} (escape : p.escape = true)
    (recursive : p.recursive = true) (compiled : run.cache.Compiled)
    (resolved : (ofDepth setting (depth + 1)).resolve place.context p.name run =
      .ok (some value) run') (tagged : hasTag value.toText.toList = true) :
    ∃ inner : Run σ, inner.host = run'.host ∧ inner.sink = run'.sink ∧
      run'.LookedUp [Text.escapeHtml value.toText] inner ∧
      (ofDepth setting (depth + 1)).placeholder place p run =
        renderBlocks setting depth { place with source := Text.escapeHtml value.toText }
          (Program.compile value.toText).value.escaped.blocks inner := by
  have resolves := Eval.transparent_closed.resolve setting (depth + 1) place.context p.name
  have still := resolves.compiled compiled
  rw [Eval.after_of_ok resolved] at still
  obtain ⟨inner, fetched, host, sink, lookedUp⟩ :=
    Eval.fragment_eq_ok (Text.escapeHtml value.toText) still
  have tagged_escaped : hasTag (Text.escapeHtml value.toText).toList = true := by
    rw [Text.toList_escapeHtml]
    exact (hasTag_escaped _).trans tagged
  refine ⟨inner, host, sink, lookedUp, ?_⟩
  rw [placeholder, Eval.bind_of_ok resolved]
  cases value with
  | null => cases tagged
  | _ =>
    simp only [escape, recursive, tagged_escaped, if_true, Bool.and_self, descend_bind_succ]
    rw [Eval.bind_of_ok fetched, (Program.compile_eq_escaped _).1]
    rfl

namespace Program

/-- Escaping commutes with compiling. The template of an escaped text is that of the text, with its
texts and names escaped and with its spans between the escaped positions of their ends, and it has
the same mistakes. Each of its spans has such ends. So an escaping recursive placeholder whose text
holds a tag renders the directives of this text. -/
theorem compile_escapeHtml (text : String) :
    (compile (Text.escapeHtml text)).value = (compile text).value.escaped ∧
      (compile (Text.escapeHtml text)).notices = (compile text).notices.map Notice.escaped ∧
      (∀ span ∈ Block.spansList (compile text).value.blocks, ∃ before region after,
        text.toList = before ++ region ++ after ∧
          span = ⟨byteLength before, byteLength (before ++ region)⟩ ∧
          span.escaped text.toList =
            ⟨byteLength (Text.escaped before), byteLength (Text.escaped (before ++ region))⟩) ∧
      ∀ (setting : Setting σ) (depth : Nat) (place : Place σ) (p : Placeholder) (run run' : Run σ)
        (value : Value σ), p.escape = true → p.recursive = true → run.cache.Compiled →
        (Level.ofDepth setting (depth + 1)).resolve place.context p.name run =
          .ok (some value) run' → value.toText = text → hasTag text.toList = true →
        ∃ inner : Run σ, inner.host = run'.host ∧ inner.sink = run'.sink ∧
          run'.LookedUp [Text.escapeHtml text] inner ∧
          (Level.ofDepth setting (depth + 1)).placeholder place p run =
            renderBlocks setting depth { place with source := Text.escapeHtml text }
              (compile text).value.escaped.blocks inner := by
  obtain ⟨same, noted⟩ := compile_eq_escaped text
  refine ⟨same, noted, fun span mem => Span.exists_of_fits (fits_of_mem_compile mem), ?_⟩
  rintro setting depth place p run run' value escape recursive compiled resolved rfl tagged
  exact Level.placeholder_of_escaping escape recursive compiled resolved tagged

/-- The names hold characters that are escaped, one directive is never ended, and the last tag is
unbalanced. The fragment looks its escaped names up. -/
theorem compile_escapeHtml_names :
    let text := "<\x7b\x7bif >\x7d\x7d\x7b\x7b\x7bé\" /r\x7d\x7d\x7d\x7b\x7b\x7by\x7d\x7d"
    let root : Value Nat :=
      .map [("v", .text text), ("&gt;", .text "x"), ("é&quot;", .text "<>")]
    let engine : Engine Nat := .new
    let job : Job Nat := ⟨⟨"", [.placeholder ⟨"v", true, true, ⟨0, 0⟩⟩]⟩, root, false, none, false,
      none⟩
    let setting : Setting Nat := ⟨engine.templates, engine.data, 2⟩
    let place : Place Nat := ⟨"", false, .atRoot root⟩
    let run := engine.begin .text 0
    ((compile (Text.escapeHtml text)).value.blocks =
        [.text "&lt;" ⟨0, 4⟩, .condition "&gt;" false
          [.placeholder ⟨"é&quot;", true, false, ⟨15, 32⟩⟩,
            .text "\x7b\x7b\x7by\x7d\x7d" ⟨32, 38⟩] [] ⟨4, 15⟩] ∧
        (engine.render job .text 0).written = "&lt;<>\x7b\x7b\x7by\x7d\x7d") ∧
      (compile (Text.escapeHtml text)).value = (compile text).value.escaped ∧
      ∃ inner : Run Nat, inner.sink = run.sink ∧
        (Level.ofDepth setting 2).placeholder place ⟨"v", true, true, ⟨0, 0⟩⟩ run =
          renderBlocks setting 1 { place with source := Text.escapeHtml text }
            (compile text).value.escaped.blocks inner := by
  intro text root engine job setting place run
  have compiled : run.cache.Compiled := fun _ _ found => by cases found
  obtain ⟨same, _, _, renders⟩ := @compile_escapeHtml Nat text
  obtain ⟨inner, _, sink, _, opened⟩ := renders setting 1 place ⟨"v", true, true, ⟨0, 0⟩⟩ run run
    (.text text) rfl rfl compiled rfl rfl (by decide +kernel)
  exact ⟨by decide +kernel, same, inner, sink, opened⟩

end Program

end Stencil
