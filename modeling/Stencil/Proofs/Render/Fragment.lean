import Stencil.Proofs.Engine.Cache
import Stencil.Proofs.Render.Iterate
import Stencil.Proofs.Render.Pure
import Stencil.Proofs.Render.Text

/-!
# Fragments

A recursive directive takes the text of its value for a template. In pure data, what this fragment
gives is what its template gives when it is rendered by itself, at the same position and with one
level less.

1. `Level.gives_fragment`: a recursive placeholder gives what the template of its text gives.
2. `Level.holds_fragment_iff`: the test of a recursive condition asks whether the template gives any
   text, and placeholders without a value are left out of that.
3. `Level.gives_condition_fragment_iff`: the condition then gives what the branch gives.
4. `Engine.render_fragment`: the same for whole renders.
-/

namespace Stencil

variable {σ : Type}

namespace Eval

theorem inert_fragment (text : String) : Inert (fragment text : Eval σ Program) := by
  refine ⟨fun run compiled => ?_, fun _ _ mem => nomatch mem⟩
  obtain ⟨run', fetched, host, sink, lookedUp⟩ := fragment_eq_ok text compiled
  rw [after_of_ok fetched]
  exact ⟨host, sink, lookedUp.compiled compiled, compiled⟩

/-- A step that such a step left the run for gives what it would have given before. -/
theorem Inert.gives_next {α : Type} [Carries σ α] {first : Eval σ α} (inert : Inert first)
    {run run' : Run σ} (compiled : run.cache.Compiled) {result : α}
    (done : first run = .ok result run') {step : Eval σ Unit} (transparent : Transparent step) :
    gives step run' = gives step run :=
  transparent.gives (inert.alike compiled done)

end Eval

def renderText (setting : Setting σ) (depth : Nat) (place : Place σ) (text : String) :
    Eval σ Unit :=
  renderBlocks setting depth { place with source := (Program.compile text).value.source }
    (Program.compile text).value.blocks

theorem transparent_renderText (setting : Setting σ) (depth : Nat) (place : Place σ)
    (text : String) : Eval.Transparent (renderText setting depth place text) :=
  Eval.transparent_closed.renderBlocks _ _ _ _

namespace Level

variable {setting : Setting σ} {depth : Nat} {run : Run σ} {text : String}

/-- A branch is rendered one level further down, and an empty one writes nothing. -/
theorem branch_succ (place : Place σ) (blocks : List Block) :
    (ofDepth setting (depth + 1)).branch place blocks =
      renderBlocks setting depth place blocks := by
  cases blocks with
  | nil =>
    rw [renderBlocks_eq]
    rfl
  | cons block rest => exact descend_bind_succ setting depth _

/-! ## The test of a condition -/

theorem holds_of_tagged (context : Context σ) (tagged : isTagged text.toList = true)
    (compiled : run.cache.Compiled) :
    ∃ run', run'.Alike run ∧
      (ofDepth setting (depth + 1)).holds context true (.text text) run =
        ((· != "") <$> Eval.capture (renderText setting depth ⟨"", false, context⟩ text)) run' := by
  obtain ⟨run', fetched, host, sink, lookedUp⟩ := Eval.fragment_eq_ok text compiled
  refine ⟨run', ⟨host, sink, lookedUp.compiled compiled, compiled⟩, ?_⟩
  rw [holds, tagged, descend_bind_succ]
  exact Eval.bind_of_ok fetched _

/-- The test of a recursive condition asks whether the template of the text gives any text. -/
theorem holds_fragment_iff (context : Context σ) (tagged : isTagged text.toList = true)
    (compiled : run.cache.Compiled) (fresh : run.sink = .unlimited) {selected : Bool} :
    (∃ run', (ofDepth setting (depth + 1)).holds context true (.text text) run =
        .ok selected run') ↔
      ∃ test, Eval.gives (renderText setting depth ⟨"", false, context⟩ text) run = .ok test ∧
        selected = (test != "") := by
  let step := renderText setting depth ⟨"", false, context⟩ text
  obtain ⟨inner, alike, opened⟩ := holds_of_tagged context tagged compiled
  have same : Eval.gives step inner = Eval.gives step run :=
    (transparent_renderText _ _ _ _).gives alike
  have captured : ∀ test, (∃ run', Eval.capture step inner = .ok test run') ↔
      Eval.gives step run = .ok test := by
    intro test
    rw [Eval.capture_eq_ok_iff (alike.sink.trans fresh), same]
  rw [opened, map_eq_pure_bind]
  constructor
  · rintro ⟨run', held⟩
    cases ran : Eval.capture step inner with
    | ok test run'' =>
      rw [Eval.bind_of_ok ran] at held
      cases held
      exact ⟨test, (captured test).mp ⟨_, ran⟩, rfl⟩
    | error error run'' =>
      rw [Eval.bind_of_error ran] at held
      cases held
  · rintro ⟨test, given, rfl⟩
    obtain ⟨run'', ran⟩ := (captured test).mpr given
    exact ⟨run'', Eval.bind_of_ok ran _⟩

theorem inert_holds (registered : setting.data.Pure) {context : Context σ}
    (known : context.All Value.IsPure) (recursive : Bool) (value : Value σ) :
    Eval.Inert ((ofDepth setting (depth + 1)).holds context recursive value) := by
  have decided : ∀ selected : Bool, Eval.Inert (pure selected : Eval σ Bool) :=
    fun selected => Eval.inert_sequential.pure selected fun _ mem => nomatch mem
  unfold holds
  split
  · split
    · rw [descend_bind_succ]
      refine Eval.inert_bind (Eval.inert_fragment _) fun program _ => ?_
      refine Eval.inert_bind ?_ fun _ _ => decided _
      exact Eval.inert_capture (renderBlocks_keepsHost registered depth known _)
        (Eval.transparent_closed.renderBlocks _ _ _ _)
    · exact decided _
  · exact decided _

/-! ## Recursive directives -/

section

variable (registered : setting.data.Pure) (compiled : run.cache.Compiled)
include registered compiled

/-- A raw recursive placeholder gives what the template of its text gives in the same place. -/
theorem gives_fragment (place : Place σ) (known : place.context.All Value.IsPure)
    {p : Placeholder} (recursive : p.recursive = true) (raw : p.escape = false)
    {run' : Run σ} (resolved : (ofDepth setting (depth + 1)).resolve place.context p.name run =
      .ok (some (.text text)) run') (tagged : hasTag text.toList = true) :
    Eval.gives ((ofDepth setting (depth + 1)).placeholder place p) run =
      Eval.gives (renderText setting depth place text) run := by
  have transparent := transparent_renderText setting depth place text
  have alike := (inert_resolve registered (depth + 1) known p.name).alike compiled resolved
  obtain ⟨run'', fetched, _⟩ := Eval.fragment_eq_ok text alike.compiled
  have opened : (ofDepth setting (depth + 1)).placeholder place p run =
      renderText setting depth place text run'' := by
    rw [placeholder, Eval.bind_of_ok resolved]
    simp only [raw, recursive, Value.toText, tagged, descend_bind_succ, Bool.false_eq_true,
      if_false, Bool.and_self, if_true]
    exact Eval.bind_of_ok fetched _
  rw [Eval.gives_congr opened,
    (Eval.inert_fragment text).gives_next alike.compiled fetched transparent,
    transparent.gives alike]

/-- It makes no difference to the test that the value was found just before. -/
theorem holds_resolved_iff {context : Context σ} (known : context.All Value.IsPure) {name : String}
    {run' : Run σ} (resolved : (ofDepth setting (depth + 1)).resolve context name run =
      .ok (some (.text text)) run') (tagged : isTagged text.toList = true)
    (fresh : run.sink = .unlimited) {selected : Bool} :
    (∃ run'', (ofDepth setting (depth + 1)).holds context true (.text text) run' =
        .ok selected run'') ↔
      ∃ test, Eval.gives (renderText setting depth ⟨"", false, context⟩ text) run = .ok test ∧
        selected = (test != "") := by
  have alike := (inert_resolve registered (depth + 1) known name).alike compiled resolved
  rw [← (transparent_renderText _ _ _ _).gives alike]
  exact holds_fragment_iff context tagged alike.compiled (alike.sink.trans fresh)

/-- A recursive condition gives a text if its test gives one, and the branch that is selected by
that gives the text. -/
theorem gives_condition_fragment_iff (place : Place σ)
    (known : place.context.All Value.IsPure) {name : String} {yes no : List Block} {run' : Run σ}
    (resolved : (ofDepth setting (depth + 1)).resolve place.context name run =
      .ok (some (.text text)) run') (tagged : isTagged text.toList = true)
    (fresh : run.sink = .unlimited) {written : String} :
    Eval.gives ((ofDepth setting (depth + 1)).condition place name true yes no) run =
        .ok written ↔
      ∃ test, Eval.gives (renderText setting depth ⟨"", false, place.context⟩ text) run =
          .ok test ∧
        Eval.gives (renderBlocks setting depth place (if test != "" then yes else no)) run =
          .ok written := by
  have alike := (inert_resolve registered (depth + 1) known name).alike compiled resolved
  have opened : (ofDepth setting (depth + 1)).condition place name true yes no run =
      ((ofDepth setting (depth + 1)).holds place.context true (.text text) >>= fun selected =>
        renderBlocks setting depth place (if selected then yes else no)) run' := by
    rw [condition_eq, decision, bind_assoc, Eval.bind_of_ok resolved]
    simp only [branch_succ]
  have branch_same : ∀ {selected run''},
      (ofDepth setting (depth + 1)).holds place.context true (.text text) run' =
        .ok selected run'' → ∀ blocks, Eval.gives (renderBlocks setting depth place blocks) run'' =
          Eval.gives (renderBlocks setting depth place blocks) run := by
    intro selected run'' held blocks
    have transparent : Eval.Transparent (renderBlocks setting depth place blocks) :=
      Eval.transparent_closed.renderBlocks _ _ _ _
    rw [(inert_holds registered known true _).gives_next alike.compiled held transparent,
      transparent.gives alike]
  rw [Eval.gives_congr opened, Eval.gives_bind_eq_ok_iff]
  constructor
  · rintro ⟨selected, run'', held, given⟩
    obtain ⟨test, tested, rfl⟩ :=
      (holds_resolved_iff registered compiled known resolved tagged fresh).mp ⟨run'', held⟩
    rw [branch_same held] at given
    exact ⟨test, tested, given⟩
  · rintro ⟨test, tested, given⟩
    obtain ⟨run'', held⟩ :=
      (holds_resolved_iff registered compiled known resolved tagged fresh).mpr ⟨test, tested, rfl⟩
    refine ⟨test != "", run'', held, ?_⟩
    rwa [branch_same held]

end

end Level

namespace Engine

/-- A recursive fragment is its text, rendered in place. In pure data, a name leads to a text where a
render starts. If the text holds a tag, the raw recursive placeholder with this name gives what the
template of the text gives, with one level less. If the text begins and ends like a tag, the test of
a recursive condition with this name ends well if the template gives a text while placeholders
without a value are left out; it selects the first branch if this text is not empty; and the
condition gives what the selected branch gives, with one level less. -/
theorem render_fragment (operations : List (Operation σ))
    (registered : (after operations).data.Pure) {job : Job σ} {host host' : σ} {data : Value σ}
    (ready : job.prepared host = .ok data host') (known : (job.start data).All Value.IsPure)
    {limit : Nat} {name text : String} {run : Run σ}
    (resolved : (Level.ofDepth ⟨(after operations).templates, (after operations).data, limit + 1⟩
      (limit + 1)).resolve (job.start data) name ((after operations).begin .text host') =
        .ok (some (.text text)) run) :
    let engine := after operations
    let level := Level.ofDepth ⟨engine.templates, engine.data, limit + 1⟩ (limit + 1)
    let rendered (program : Program) (keepUndefined : Bool) (limit : Nat) :=
      (engine.render { job with program, keepUndefined, maxDepth := some limit } .text host).text
    let fragment := (Program.compile text).value
    (hasTag text.toList = true → ∀ source span keepUndefined written,
      rendered ⟨source, [.placeholder ⟨name, true, false, span⟩]⟩ keepUndefined (limit + 1) =
          .ok written ↔
        rendered fragment keepUndefined limit = .ok written) ∧
    (isTagged text.toList = true →
      (∀ selected,
        (∃ run', level.holds (job.start data) true (.text text) run = .ok selected run') ↔
          ∃ test, rendered fragment false limit = .ok test ∧ selected = (test != "")) ∧
      ∀ source span yes no keepUndefined written,
        rendered ⟨source, [.condition name true yes no span]⟩ keepUndefined (limit + 1) =
            .ok written ↔
          ∃ test, rendered fragment false limit = .ok test ∧
            rendered ⟨source, if test != "" then yes else no⟩ keepUndefined limit =
              .ok written) := by
  intro engine level rendered fragment
  let setting : Setting σ := ⟨engine.templates, engine.data, limit + 1⟩
  let start := job.start data
  have compiled : (engine.begin .text host').cache.Compiled := compiled_after operations
  have rendered_iff : ∀ {program keepUndefined depth written},
      rendered program keepUndefined depth = .ok written ↔
        Eval.gives (renderBlocks setting depth ⟨program.source, keepUndefined, start⟩
          program.blocks) (engine.begin .text host') = .ok written :=
    engine.text_render_eq_ok_iff ready _ _ _ _
  constructor
  · intro tagged source span keepUndefined written
    have given := Level.gives_fragment registered compiled ⟨source, keepUndefined, start⟩ known
      (p := ⟨name, true, false, span⟩) rfl rfl resolved tagged
    rw [rendered_iff, rendered_iff, renderBlocks_eq, Eval.forM_singleton, Level.block,
      Eval.gives_locate, given]
    rfl
  · intro tagged
    constructor
    · intro selected
      simp only [rendered_iff]
      exact Level.holds_resolved_iff registered compiled known resolved tagged rfl
    · intro source span yes no keepUndefined written
      simp only [rendered_iff]
      rw [renderBlocks_eq, Eval.forM_singleton, Level.block, Eval.gives_locate]
      exact Level.gives_condition_fragment_iff registered compiled ⟨source, keepUndefined, start⟩
        known resolved tagged rfl

/-- The text comes from a computed value, and its template uses a registered one. -/
theorem render_fragment_computed :
    let engine : Engine Nat := after [.registerTemplate "t" "<\x7b\x7bn\x7d\x7d>"]
    let text := "\x7b\x7b?\x7d\x7d\x7b\x7b\x7bt\x7d\x7d\x7d"
    let value : Value Nat := .computed 0 fun calls => .value calls (.text text)
    let root : Value Nat := .map [("n", .text "&"), ("v", value)]
    let job : Job Nat := ⟨⟨"", []⟩, root, false, none, false, none⟩
    let rendered (program : Program) (keepUndefined : Bool) (limit : Nat) :=
      (engine.render { job with program, keepUndefined, maxDepth := some limit } .text 0).text
    let placeholder : Program := ⟨"", [.placeholder ⟨"v", true, false, ⟨0, 0⟩⟩]⟩
    let branches (test : String) : List Block := if test != "" then [.text "yes" ⟨0, 0⟩] else []
    let condition : Program := ⟨"", [.condition "v" true (branches "?") (branches "") ⟨0, 0⟩]⟩
    let fragment := (Program.compile text).value
    ((rendered placeholder true 2).toOption = some "\x7b\x7b?\x7d\x7d<&amp;>" ∧
        (rendered condition true 2).toOption = some "yes" ∧
        (rendered placeholder true 1).toOption = none) ∧
      ∀ keepUndefined written,
        (rendered placeholder keepUndefined 2 = .ok written ↔
          rendered fragment keepUndefined 1 = .ok written) ∧
        (rendered condition keepUndefined 2 = .ok written ↔
          ∃ test, rendered fragment false 1 = .ok test ∧
            rendered ⟨"", branches test⟩ keepUndefined 1 = .ok written) := by
  intro engine text value root job rendered placeholder branches condition fragment
  have registered : engine.data.Pure := fun _ mem => nomatch mem
  have pure : root.IsPure := by
    refine .map fun entry mem => ?_
    rcases List.mem_cons.mp mem with rfl | mem
    · exact .text "&"
    · cases List.mem_singleton.mp mem
      exact .computed fun _ => .value (.text text)
  have ready : job.prepared 0 = .ok root 0 := rfl
  have resolved : (Level.ofDepth ⟨engine.templates, engine.data, 2⟩ 2).resolve (job.start root) "v"
      (engine.begin .text 0) = .ok (some (.text text)) (engine.begin .text 0) := rfl
  obtain ⟨placed, tested⟩ := render_fragment [.registerTemplate "t" "<\x7b\x7bn\x7d\x7d>"]
    registered ready ⟨pure, pure⟩ resolved
  refine ⟨by decide +kernel, fun keepUndefined written => ⟨?_, ?_⟩⟩
  · exact placed (by decide +kernel) "" ⟨0, 0⟩ keepUndefined written
  · exact (tested (by decide +kernel)).2 "" ⟨0, 0⟩ _ _ keepUndefined written

end Engine

end Stencil
