import Stencil.Proofs.Outline.Rewritten
import Stencil.Proofs.Render.Iterate
import Stencil.Proofs.Render.Limited

/-!
# Rendering in two stages

What a render writes may be compiled and rendered again. Where placeholders without a value are
written again, the first stage puts in the values that it has, and leaves the other placeholders to
the second one.

1. `Eval.Rejoins`: two steps that give the same text, in whatever pieces they write it.
2. `Level.rejoins_joined`: texts that stand side by side may be joined before they are rendered.
3. `Level.exists_staged`: a first stage that succeeds writes the source of the blocks that it leaves.
4. `Engine.render_staged`: the second stage renders these blocks.
-/

namespace Stencil

variable {σ : Type}

/-! ## Texts in pieces -/

/-- Two runs that differ in nothing but the pieces that their text was written in. Their outputs
take everything. -/
structure Run.SameText (run other : Run σ) : Prop where
  host : run.host = other.host
  cache : run.cache = other.cache
  notices : run.notices = other.notices
  text : textOf run.sink.writes.toList = textOf other.sink.writes.toList
  unlimited : run.sink.room = none
  other_unlimited : other.sink.room = none

namespace Run.SameText

variable {run between other : Run σ}

theorem refl (unlimited : run.sink.room = none) : run.SameText run :=
  ⟨rfl, rfl, rfl, rfl, unlimited, unlimited⟩

theorem symm (same : run.SameText other) : other.SameText run where
  host := same.host.symm
  cache := same.cache.symm
  notices := same.notices.symm
  text := same.text.symm
  unlimited := same.other_unlimited
  other_unlimited := same.unlimited

theorem trans (first : run.SameText between) (second : between.SameText other) :
    run.SameText other where
  host := first.host.trans second.host
  cache := first.cache.trans second.cache
  notices := first.notices.trans second.notices
  text := first.text.trans second.text
  unlimited := first.unlimited
  other_unlimited := second.other_unlimited

theorem withSink_eq (same : run.SameText other) : run.withSink other.sink = other := by
  obtain ⟨host, cache, notices, _⟩ := same
  cases run
  cases other
  simp_all [withSink]

/-- The same text may be added to both, in whatever pieces. -/
theorem adding (same : run.SameText other) {writes writes' : List Write}
    (text : textOf writes = textOf writes') :
    (run.withSink (run.sink.adding writes)).SameText
      (other.withSink (other.sink.adding writes')) where
  host := same.host
  cache := same.cache
  notices := same.notices
  text := by
    show textOf (run.sink.writes ++ writes.toArray).toList =
      textOf (other.sink.writes ++ writes'.toArray).toList
    simp only [Array.toList_append, textOf_append, same.text, text]
  unlimited := same.unlimited
  other_unlimited := same.other_unlimited

end Run.SameText

namespace Eval

variable {α β : Type}

/-- Two steps end with the same text and the same result, or they fail for the same cause. -/
inductive EndsSame : EStateM.Result Error (Run σ) α → EStateM.Result Error (Run σ) α → Prop where
  | ok {result : α} {run other : Run σ} (same : run.SameText other) :
      EndsSame (.ok result run) (.ok result other)
  | error {error error' : Error} {run other : Run σ} (cause : error.cause = error'.cause)
      (same : run.SameText other) :
      EndsSame (.error error run) (.error error' other)

theorem EndsSame.symm {ended ended' : EStateM.Result Error (Run σ) α}
    (same : EndsSame ended ended') : EndsSame ended' ended := by
  cases same with
  | ok same => exact .ok same.symm
  | error cause same => exact .error cause.symm same.symm

theorem EndsSame.trans {ended between ended' : EStateM.Result Error (Run σ) α}
    (first : EndsSame ended between) (second : EndsSame between ended') :
    EndsSame ended ended' := by
  cases first with
  | ok same =>
    cases second with
    | ok same' => exact .ok (same.trans same')
  | error cause same =>
    cases second with
    | error cause' same' => exact .error (cause.trans cause') (same.trans same')

/-- Two steps that give the same text behind the same text, in whatever pieces they write it. -/
def Rejoins (step step' : Eval σ α) : Prop :=
  ∀ run other : Run σ, run.SameText other → EndsSame (step run) (step' other)

namespace Rejoins

variable {step between step' : Eval σ α}

theorem trans (first : Rejoins step between) (second : Rejoins between step') :
    Rejoins step step' :=
  fun run other same => (first run run (.refl same.unlimited)).trans (second run other same)

theorem symm (rejoins : Rejoins step step') : Rejoins step' step :=
  fun run other same => (rejoins other run same.symm).symm

theorem refl_right (rejoins : Rejoins step step') : Rejoins step' step' :=
  rejoins.symm.trans rejoins

theorem bind {next next' : α → Eval σ β} (first : Rejoins step step')
    (second : ∀ result, Rejoins (next result) (next' result)) :
    Rejoins (step >>= next) (step' >>= next') := by
  intro run other same
  have now := first run other same
  generalize ran : step run = ended, ran' : step' other = ended' at now
  cases now with
  | @ok result run' other' same =>
    rw [bind_of_ok ran, bind_of_ok ran']
    exact second result run' other' same
  | error cause same =>
    rw [bind_of_error ran, bind_of_error ran']
    exact .error cause same

/-- Where failures are pointed to makes no difference. -/
theorem locate (rejoins : Rejoins step step') (source source' : String) (span span' : Span) :
    Rejoins (locate source span step) (locate source' span' step') := by
  intro run other same
  have ended := rejoins run other same
  unfold Eval.locate
  generalize step run = result, step' other = result' at ended
  cases ended with
  | ok same => exact .ok same
  | error cause same =>
    exact .error (by rw [Error.cause_locate, Error.cause_locate, cause]) same

theorem forM {step step' : α → Eval σ Unit} {items : List α}
    (each : ∀ item ∈ items, Rejoins (step item) (step' item)) :
    Rejoins (items.forM step) (items.forM step') := by
  induction items with
  | nil => exact fun _ _ same => .ok same
  | cons item items ih =>
    obtain ⟨here, later⟩ := List.forall_mem_cons.mp each
    exact here.bind fun _ => ih later

end Rejoins

theorem ok_of_locate {source : String} {span : Span} {step : Eval σ α} {result : α}
    {run ended : Run σ} (done : locate source span step run = .ok result ended) :
    step run = .ok result ended := by
  unfold locate at done
  cases ran : step run with
  | ok result' run' => rwa [ran] at done
  | error error run' =>
    rw [ran] at done
    cases done

/-- A step that leaves the output alone goes the same behind the same text. -/
theorem Quiet.rejoins {step : Eval σ α} (quiet : Quiet step) : Rejoins step step := by
  intro run other same
  have moved := quiet run other.sink
  have kept := quiet.sink_after run
  have left : (after step run).SameText ((after step run).withSink other.sink) := by
    refine ⟨rfl, rfl, rfl, ?_, ?_, same.other_unlimited⟩
    · rw [kept]
      exact same.text
    · rw [kept]
      exact same.unlimited
  rw [same.withSink_eq] at moved
  rw [moved]
  cases ran : step run with
  | ok result run' =>
    rw [after_of_ok ran] at left
    exact .ok left
  | error error run' =>
    rw [after_of_error ran] at left
    exact .error rfl left

def emits (writes : List Write) : Eval σ Unit :=
  writes.forM fun write => emit write.origin write.text

theorem emits_cons (write : Write) (writes : List Write) :
    (emits (write :: writes) : Eval σ Unit) =
      emit write.origin write.text >>= fun _ => emits writes :=
  forM_cons _ _ _

theorem emits_singleton (write : Write) :
    (emits [write] : Eval σ Unit) = emit write.origin write.text :=
  forM_singleton _ _

theorem emits_of_unlimited (writes : List Write) {run : Run σ} (unlimited : run.sink.room = none) :
    emits writes run = .ok () (run.withSink (run.sink.adding writes)) := by
  induction writes generalizing run with
  | nil =>
    rw [Sink.adding_nil]
    rfl
  | cons write writes ih =>
    have still : (run.withSink (run.sink.adding [write])).sink.room = none := unlimited
    rw [emits_cons, bind_of_ok (emit_of_unlimited write.origin write.text unlimited), ih still]
    exact congrArg (fun sink => EStateM.Result.ok () (run.withSink sink))
      (run.sink.adding_adding [write] writes)

/-- The same text may be written in any pieces. -/
theorem rejoins_emits {writes writes' : List Write} (text : textOf writes = textOf writes') :
    Rejoins (emits writes : Eval σ Unit) (emits writes') := by
  intro run other same
  rw [emits_of_unlimited writes same.unlimited, emits_of_unlimited writes' same.other_unlimited]
  exact .ok (same.adding text)

theorem rejoins_emit (origin origin' : Origin) (text : String) :
    Rejoins (emit origin text : Eval σ Unit) (emit origin' text) := by
  have same : Rejoins (emits [⟨origin, text⟩] : Eval σ Unit) (emits [⟨origin', text⟩]) :=
    rejoins_emits rfl
  rwa [emits_singleton, emits_singleton] at same

/-- To write nothing makes no difference. -/
theorem rejoins_emit_empty (origin : Origin) :
    Rejoins (emit origin "" : Eval σ Unit) (pure ()) := by
  have same : Rejoins (emits [⟨origin, ""⟩] : Eval σ Unit) (emits []) := rejoins_emits rfl
  rwa [emits_singleton] at same

/-- A text may be written at once, or in two pieces. -/
theorem rejoins_emit_append (origin : Origin) (front back : String) :
    Rejoins (emit origin (front ++ back) : Eval σ Unit)
      (emit origin front >>= fun _ => emit origin back) := by
  have same : Rejoins (emits [⟨origin, front ++ back⟩] : Eval σ Unit)
      (emits [⟨origin, front⟩, ⟨origin, back⟩]) := rejoins_emits (by simp [textOf])
  rwa [emits_singleton, emits_cons, emits_singleton] at same

theorem Rejoins.of_emit_empty {step step' : Eval σ Unit} {origin : Origin}
    (rejoins : Rejoins step (emit origin "" >>= fun _ => step')) (again : Rejoins step' step') :
    Rejoins step step' := by
  have nothing := (rejoins_emit_empty origin).bind fun _ => again
  rw [pure_bind] at nothing
  exact rejoins.trans nothing

end Eval

/-! ## Joined texts -/

namespace Level

open Eval

variable {setting : Setting σ} {depth : Nat} {place place' : Place σ}

/-- What a render finds where it is: the data, and whether placeholders without a value are written
again. -/
structure SamePlace (place place' : Place σ) : Prop where
  context : place.context = place'.context
  keeps : place.keepUndefined = place'.keepUndefined

/-- The raw text in front of a tag is a text block, unless it is empty. -/
theorem rejoins_ofRaw (start : Nat) (pending : List Char) :
    Rejoins (((Token.ofRaw start pending []).map Token.leaf).forM
      ((ofDepth setting depth).block place)) (emit .literal (String.ofList pending)) := by
  unfold Token.ofRaw
  split
  · next empty =>
    rw [List.isEmpty_iff.mp empty]
    exact (rejoins_emit_empty .literal).symm
  · rw [List.map_singleton, forM_singleton]
    exact rejoins_emit _ _ _

variable (same : SamePlace place place')
include same

/-- A placeholder that is not recursive gives the same wherever it stands. -/
theorem rejoins_placeholder {p : Placeholder} (once : p.recursive = false) (span : Span) :
    Rejoins ((ofDepth setting depth).block place (.placeholder { p with span }))
      ((ofDepth setting depth).block place' (.placeholder p)) := by
  refine Rejoins.locate ?_ _ _ _ _
  unfold placeholder
  rw [same.context, same.keeps]
  refine (quiet_resolve _ _ _).rejoins.bind fun found => ?_
  simp only [once, Bool.false_and]
  cases found with
  | none =>
    show Rejoins (if place'.keepUndefined = true then _ else _) (if _ then _ else _)
    split
    · exact rejoins_emit _ _ _
    · exact Quiet.rejoins fun _ _ => rfl
  | some value =>
    cases value with
    | null => exact Quiet.rejoins fun _ _ => rfl
    | _ => exact rejoins_emit _ _ _

theorem rejoins_block {block : Block} (legible : block.Legible) :
    Rejoins ((ofDepth setting depth).block place block)
      ((ofDepth setting depth).block place' block) := by
  cases block with
  | text content span => exact rejoins_emit _ _ _
  | placeholder p => exact rejoins_placeholder same legible.once p.span
  | condition | iteration => cases legible

theorem rejoins_blocks {blocks : List Block} (legible : ∀ block ∈ blocks, block.Legible) :
    Rejoins (blocks.forM ((ofDepth setting depth).block place))
      (blocks.forM ((ofDepth setting depth).block place')) :=
  Rejoins.forM fun block mem => rejoins_block same (legible block mem)

/-- Rendering what the blocks compile to writes the pending text, and then renders the blocks. -/
theorem rejoins_joined {blocks : List Block} (legible : ∀ block ∈ blocks, block.Legible)
    (start : Nat) (pending : List Char) :
    Rejoins
      (((Token.joined start pending blocks).map Token.leaf).forM
        ((ofDepth setting depth).block place))
      (emit .literal (String.ofList pending) >>= fun _ =>
        blocks.forM ((ofDepth setting depth).block place')) := by
  induction blocks generalizing start pending with
  | nil =>
    have ended : (emit .literal (String.ofList pending) >>= fun _ =>
        [].forM ((ofDepth setting depth).block place')) =
          (emit .literal (String.ofList pending) : Eval σ Unit) := bind_pure_unit
    rw [ended]
    exact rejoins_ofRaw start pending
  | cons block blocks ih =>
    obtain ⟨here, later⟩ := List.forall_mem_cons.mp legible
    have again : Rejoins (blocks.forM ((ofDepth setting depth).block place'))
        (blocks.forM ((ofDepth setting depth).block place')) :=
      (rejoins_blocks same later).refl_right
    rw [forM_cons]
    cases block with
    | text content span =>
      have whole : String.ofList (pending ++ content.toList) =
          String.ofList pending ++ content := by
        rw [String.ofList_append, String.ofList_toList]
      have joined := ih later start (pending ++ content.toList)
      have apart := (rejoins_emit_append .literal (String.ofList pending) content).bind
        fun _ => again
      rw [whole] at joined
      rw [bind_assoc] at apart
      exact joined.trans apart
    | placeholder p =>
      have behind := ih later (p.shape.stop (start + byteLength pending)) []
      rw [Token.joined, List.map_append, List.map_cons, Token.leaf_tag here, forM_append, forM_cons]
      refine (rejoins_ofRaw start pending).bind fun _ => ?_
      refine (rejoins_placeholder same here.once _).bind fun _ => ?_
      exact behind.of_emit_empty again
    | condition | iteration => cases here

end Level

/-! ## Stages -/

namespace Block

/-- Text without braces, or a placeholder that is not recursive and whose name does not begin with an
opening brace. -/
def isSimple : Block → Bool
  | .text content _ => content.toList.all (!isBrace ·)
  | .placeholder p => !p.recursive && p.name.toList.head? != some '\x7b'
  | .condition .. | .iteration .. => false

/-- The simple blocks of a compiled template can be written again. -/
theorem legible_of_isSimple {source : String} {block : Block}
    (mem : block ∈ (Program.compile source).value.blocks) (simple : block.isSimple = true) :
    block.Legible := by
  cases block with
  | text content span =>
    show ∀ c ∈ content.toList, isBrace c = false
    simpa [isSimple] using simple
  | placeholder p =>
    have parts : p.recursive = false ∧ ¬ p.name.toList.head? = some '\x7b' := by
      simpa [isSimple] using simple
    refine Program.legible_of_mem_compile mem parts.1 ?_
    rintro c first rfl
    exact parts.2 first
  | condition | iteration => cases simple

end Block

namespace Placeholder

variable (p : Placeholder)

/-- What a placeholder that is not recursive writes, where those without a value are written
again. -/
def writes : Option (Value σ) → List Write
  | none => [⟨.undefined, p.toSource⟩]
  | some .null => []
  | some value => [⟨.value, p.textOf value⟩]

/-- What a first stage leaves of a placeholder: the text that it has, or else the placeholder
itself. -/
def left : Option (Value σ) → Block
  | none => .placeholder p
  | some value => .text (p.textOf value) p.span

theorem textOf_null : p.textOf (.null : Value σ) = "" := by
  unfold textOf
  split <;> rfl

/-- A placeholder writes the source of what the stage leaves of it. -/
theorem textOf_writes (found : Option (Value σ)) :
    Stencil.textOf (p.writes found) = (p.left found).source := by
  cases found with
  | none => simp [writes, left, Stencil.textOf, Block.source]
  | some value =>
    cases value with
    | null => exact p.textOf_null.symm
    | _ => simp [writes, left, Stencil.textOf, Block.source]

end Placeholder

namespace Level

open Eval

/-- What a first stage leaves of a block. -/
def stage (level : Level σ) (context : Context σ) : Block → Eval σ Block
  | .placeholder p => p.left <$> level.resolve context p.name
  | block => pure block

theorem quiet_stage (level : Level σ) (context : Context σ) (block : Block) :
    Quiet (level.stage context block) := by
  cases block with
  | placeholder p =>
    rw [stage, map_eq_pure_bind]
    exact quiet_bind (quiet_resolve _ _ _) fun _ _ _ => rfl
  | text | condition | iteration => exact fun _ _ => rfl

theorem quiet_mapM_stage (level : Level σ) (context : Context σ) (blocks : List Block) :
    Quiet (blocks.mapM (level.stage context)) := by
  induction blocks with
  | nil => exact fun _ _ => rfl
  | cons block blocks ih =>
    rw [List.mapM_cons]
    refine quiet_bind (level.quiet_stage context block) fun _ => ?_
    exact quiet_bind ih fun _ _ _ => rfl

/-- What a stage left of a block is the block, or text that the stage wrote. -/
def LeftBy (writes : List Write) (block left : Block) : Prop :=
  left = block ∨ ∃ text span, left = .text text span ∧ (text = "" ∨ ⟨.value, text⟩ ∈ writes)

theorem LeftBy.mono {writes more : List Write} {block left : Block} (among : writes ⊆ more)
    (by_stage : LeftBy writes block left) : LeftBy more block left := by
  rcases by_stage with same | ⟨text, span, same, empty | wrote⟩
  · exact .inl same
  · exact .inr ⟨text, span, same, .inl empty⟩
  · exact .inr ⟨text, span, same, .inr (among wrote)⟩

theorem leftBy_placeholder (p : Placeholder) (found : Option (Value σ)) :
    LeftBy (p.writes found) (.placeholder p) (p.left found) := by
  cases found with
  | none => exact .inl rfl
  | some value =>
    cases value with
    | null => exact .inr ⟨_, _, rfl, .inl p.textOf_null⟩
    | _ => exact .inr ⟨_, _, rfl, .inr List.mem_cons_self⟩

section

variable {level : Level σ} {place : Place σ} (keeps : place.keepUndefined = true)
include keeps

/-- A placeholder that is not recursive finds its value, and then makes its writes. -/
theorem placeholder_of_once {p : Placeholder} (once : p.recursive = false) :
    level.placeholder place p =
      level.resolve place.context p.name >>= fun found => emits (p.writes found) := by
  refine bind_congr fun found => ?_
  cases found with
  | none =>
    show (if place.keepUndefined = true then _ else _) = _
    rw [if_pos keeps, Placeholder.writes, emits_singleton]
  | some value =>
    cases value with
    | null => rfl
    | _ => simp [once, Placeholder.writes, Placeholder.textOf, emits_singleton]

/-- A simple block that is rendered well writes the source of what the stage leaves of it. -/
theorem exists_stage {block : Block} (simple : block.isSimple = true) {run ended : Run σ}
    (unlimited : run.sink.room = none) (done : level.block place block run = .ok () ended) :
    ∃ left run' writes, level.stage place.context block run = .ok left run' ∧
      run'.sink = run.sink ∧ ended = run'.withSink (run.sink.adding writes) ∧
      textOf writes = left.source ∧ LeftBy writes block left := by
  cases block with
  | text content span =>
    have wrote := emit_of_unlimited .literal content unlimited
    obtain ⟨_, rfl⟩ := EStateM.Result.ok.inj (wrote.symm.trans done)
    exact ⟨.text content span, run, [⟨.literal, content⟩], rfl, rfl, rfl,
      by simp [textOf, Block.source], .inl rfl⟩
  | placeholder p =>
    have once : p.recursive = false := by
      simp only [Block.isSimple, Bool.and_eq_true, Bool.not_eq_true'] at simple
      exact simple.1
    have rendered := ok_of_locate done
    rw [placeholder_of_once keeps once] at rendered
    obtain ⟨found, run', resolved, wrote⟩ := exists_of_bind_eq_ok rendered
    have kept : run'.sink = run.sink := by
      have same := (level.quiet_resolve place.context p.name).sink_after run
      rwa [after_of_ok resolved] at same
    have still : run'.sink.room = none := by rwa [kept]
    rw [emits_of_unlimited _ still, kept] at wrote
    obtain ⟨_, rfl⟩ := EStateM.Result.ok.inj wrote
    have staged : level.stage place.context (.placeholder p) run = .ok (p.left found) run' := by
      rw [stage, map_eq_pure_bind, bind_of_ok resolved]
      rfl
    exact ⟨p.left found, run', p.writes found, staged, kept, rfl, p.textOf_writes found,
      leftBy_placeholder p found⟩
  | condition | iteration => cases simple

/-- Simple blocks that are rendered well write the source of what the stage leaves of them. -/
theorem exists_staged {blocks : List Block} (simple : ∀ block ∈ blocks, block.isSimple = true)
    {run ended : Run σ} (unlimited : run.sink.room = none)
    (done : blocks.forM (level.block place) run = .ok () ended) :
    ∃ staged run' writes, blocks.mapM (level.stage place.context) run = .ok staged run' ∧
      run'.sink = run.sink ∧ ended = run'.withSink (run.sink.adding writes) ∧
      textOf writes = Block.sourceOf staged ∧
      ∀ left ∈ staged, ∃ block ∈ blocks, LeftBy writes block left := by
  induction blocks generalizing run with
  | nil =>
    obtain ⟨_, rfl⟩ := EStateM.Result.ok.inj done
    refine ⟨[], run, [], rfl, rfl, ?_, rfl, List.forall_mem_nil _⟩
    rw [Sink.adding_nil]
    rfl
  | cons block blocks ih =>
    obtain ⟨here, later⟩ := List.forall_mem_cons.mp simple
    obtain ⟨_, between, first, rest⟩ := exists_of_bind_eq_ok done
    obtain ⟨left, run', writes, staged_here, kept, rfl, written, by_stage⟩ :=
      exists_stage keeps here unlimited first
    have still : (run'.withSink (run.sink.adding writes)).sink.room = none := unlimited
    obtain ⟨others, run'', more, staged_later, kept', rfl, written', by_stages⟩ :=
      ih later still rest
    have moved := level.quiet_mapM_stage place.context blocks
      (run'.withSink (run.sink.adding writes)) run.sink
    have back : (run'.withSink (run.sink.adding writes)).withSink run.sink = run' := by
      rw [← kept]
      rfl
    rw [back, staged_later] at moved
    refine ⟨left :: others, run''.withSink run.sink, writes ++ more, ?_, rfl, ?_, ?_, ?_⟩
    · rw [List.mapM_cons, bind_of_ok staged_here, bind_of_ok moved]
      rfl
    · rw [← Sink.adding_adding]
      rfl
    · rw [textOf_append, written, written', Block.sourceOf, Block.sourceOf, List.map_cons,
        String.join_cons]
    · rw [List.forall_mem_cons]
      constructor
      · exact ⟨block, List.mem_cons_self, by_stage.mono (List.subset_append_left writes more)⟩
      · intro other mem
        obtain ⟨origin, among, by_later⟩ := by_stages other mem
        exact ⟨origin, List.mem_cons_of_mem _ among,
          by_later.mono (List.subset_append_right writes more)⟩

end

end Level

/-! ## Renders -/

/-- Two outcomes that differ in nothing but the pieces of their text and the place that an error
points to. -/
structure Outcome.SameText (outcome other : Outcome σ) : Prop where
  written : outcome.written = other.written
  result : outcome.result.mapError Error.cause = other.result.mapError Error.cause
  notices : outcome.notices = other.notices
  engine : outcome.engine = other.engine
  host : outcome.host = other.host

namespace Engine

theorem sameText_outcome (engine : Engine σ) {ended ended' : EStateM.Result Error (Run σ) Unit}
    (same : Eval.EndsSame ended ended') :
    (engine.outcome .text ended).SameText (engine.outcome .text ended') := by
  cases same with
  | ok same =>
    refine ⟨same.text, rfl, congrArg Array.toList same.notices, ?_, same.host⟩
    exact congrArg (fun cache => { engine with cache }) same.cache
  | error cause same =>
    refine ⟨same.text, congrArg Except.error cause, congrArg Array.toList same.notices, ?_,
      same.host⟩
    exact congrArg (fun cache => { engine with cache }) same.cache

/-- Renders of programs that rejoin have the same text. -/
theorem sameText_render (engine : Engine σ) (job : Job σ) (program : Program)
    (rejoins : ∀ data, Eval.Rejoins (engine.run job (job.start data))
      (engine.run { job with program } (job.start data))) (host : σ) :
    (engine.render job .text host).SameText (engine.render { job with program } .text host) := by
  let changed : Job σ := { job with program }
  cases ready : job.prepared host with
  | error error host' =>
    have changed_ready : changed.prepared host = .error error host' := ready
    rw [engine.render_of_error .text ready, engine.render_of_error .text changed_ready]
    exact ⟨rfl, rfl, rfl, rfl, rfl⟩
  | ok data host' =>
    have changed_ready : changed.prepared host = .ok data host' := ready
    rw [engine.render_of_ok .text ready, engine.render_of_ok .text changed_ready]
    exact engine.sameText_outcome (rejoins data _ _ (.refl rfl))

/-- A render that succeeds prepared its data and ran all its blocks. -/
theorem exists_of_render_eq_ok (engine : Engine σ) {job : Job σ} {host : σ}
    (succeeded : (engine.render job .text host).result = .ok ()) :
    ∃ data prepared ended, job.prepared host = .ok data prepared ∧
      engine.run job (job.start data) (engine.begin .text prepared) = .ok () ended ∧
      engine.render job .text host = engine.outcome .text (.ok () ended) := by
  cases ready : job.prepared host with
  | error error host' =>
    rw [engine.render_of_error .text ready] at succeeded
    cases succeeded
  | ok data prepared =>
    have rendered := engine.render_of_ok .text ready
    cases ran : engine.run job (job.start data) (engine.begin .text prepared) with
    | ok result ended =>
      rw [ran] at rendered
      exact ⟨data, prepared, ended, rfl, ran, rendered⟩
    | error error ended =>
      rw [rendered, ran] at succeeded
      cases succeeded

/-- Rendering in two stages. A source compiles to text without braces and to placeholders that are
not recursive and whose names do not begin with a brace. A first stage that writes placeholders
without a value again succeeds, and the values that it writes hold no brace. Then what it writes is
the source of the blocks that it leaves: the text of each placeholder that has one, and all other
blocks themselves. Compiled and rendered with any engine and any data, it gives what these blocks
give there, one behind the other, with the same calls of the host, and it fails for the same cause
if they fail. -/
theorem render_staged {τ : Type} (engine : Engine σ) (later : Engine τ) (source : String)
    {job : Job σ} {host : σ} (compiled : job.program = (Program.compile source).value)
    (simple : ∀ block ∈ job.program.blocks, block.isSimple = true)
    (keeps : job.keepUndefined = true)
    (succeeded : (engine.render job .text host).result = .ok ())
    (braceFree : ∀ write ∈ (engine.render job .text host).writes, write.origin = .value →
      write.text.toList.all (!isBrace ·) = true) :
    let first := engine.render job .text host
    let level := Level.ofDepth (engine.setting job) (engine.setting job).maxDepth
    ∃ data prepared staged run, job.prepared host = .ok data prepared ∧
      job.program.blocks.mapM (level.stage (job.start data)) (engine.begin .text prepared) =
        .ok staged run ∧
      first.written = Block.sourceOf staged ∧ first.host = run.host ∧
      ∀ (next : Job τ) (host' : τ),
        (later.render { next with program := (Program.compile first.written).value } .text
          host').SameText (later.render { next with program := ⟨source, staged⟩ } .text host') := by
  intro first level
  obtain ⟨data, prepared, ended, ready, ran, rendered⟩ := engine.exists_of_render_eq_ok succeeded
  have done : job.program.blocks.forM (level.block
      ⟨job.program.source, job.keepUndefined, job.start data⟩) (engine.begin .text prepared) =
        .ok () ended := by
    rw [← ran, Engine.run, renderBlocks_eq]
  obtain ⟨staged, run, writes, left, _, rfl, text, origins⟩ :=
    Level.exists_staged keeps simple rfl done
  have wrote : first.writes = writes := by
    show (engine.render job .text host).writes = writes
    rw [rendered]
    exact engine.writes_begin_adding .text prepared writes
  have written : first.written = Block.sourceOf staged := by
    rw [Outcome.written, wrote, text]
  have legible : ∀ block ∈ staged, block.Legible := by
    intro block mem
    obtain ⟨origin, among, rfl | ⟨content, span, rfl, from_value⟩⟩ := origins block mem
    · have simple_here := simple _ among
      rw [compiled] at among
      exact Block.legible_of_isSimple among simple_here
    · rcases from_value with rfl | value
      · exact List.forall_mem_nil _
      · rw [← wrote] at value
        show ∀ c ∈ content.toList, isBrace c = false
        simpa using braceFree _ value rfl
  refine ⟨data, prepared, staged, run, ready, left, written, ?_, fun next host' => ?_⟩
  · show (engine.render job .text host).host = run.host
    rw [rendered]
    rfl
  · let second : Job τ := { next with program := (Program.compile first.written).value }
    refine later.sameText_render second ⟨source, staged⟩ (fun data => ?_) host'
    have blocks := Program.blocks_compile_sourceOf legible
    rw [← written] at blocks
    rw [Engine.run, renderBlocks_eq, Engine.run, renderBlocks_eq]
    show Eval.Rejoins ((Program.compile first.written).value.blocks.forM _) (staged.forM _)
    rw [blocks]
    have same : Level.SamePlace
        ⟨(Program.compile first.written).value.source, next.keepUndefined, next.start data⟩
        ⟨source, next.keepUndefined, next.start data⟩ := ⟨rfl, rfl⟩
    exact (Level.rejoins_joined same legible 0 []).of_emit_empty
      (Level.rejoins_blocks same legible).refl_right

/-- The first stage knows a computed value, a registered template and a null. It leaves a name with a
brace in it, an empty name, and a name whose value fails in the second stage. -/
theorem render_staged_names :
    let x : Value Nat := .computed 0 fun calls => .value (calls + 1) (.text "<")
    let engine : Engine Nat := (Engine.new.registerTemplate "t" "<\x7b\x7bx\x7d\x7d>").value
    let source := "a\x7b\x7bx\x7d\x7d\x7b\x7b\x7bb\x7bc\x7d\x7d\x7d\x7b\x7b\x7d\x7d" ++
      "\x7b\x7b\x7bt y\x7d\x7d\x7d\x7b\x7bn\x7d\x7dz\x7b\x7b ? \x7d\x7d"
    let job : Job Nat := ⟨(Program.compile source).value, .map [("x", x), ("n", .null)], false, none,
      true, none⟩
    let first := engine.render job .text 0
    let y : Value String := .computed 0 fun log => .value (log ++ "y") (.text "\x7b\x7b>")
    let broken : Value String := .computed 0 fun log => .failure (log ++ "?") ⟨.custom "no", none⟩
    let later : Engine String := .new
    let next : Job String := ⟨(Program.compile first.written).value,
      .map [("b\x7bc", y), ("", .text "&"), ("?", broken)], false, none, false, none⟩
    let second := later.render next .text ""
    (first.written = "a&lt;\x7b\x7b\x7bb\x7bc\x7d\x7d\x7d\x7b\x7b\x7d\x7d<&lt;>z" ++
          "\x7b\x7b?\x7d\x7d" ∧ first.host = 2 ∧
        second.written = "a&lt;\x7b\x7b>&amp;<&lt;>z" ∧ second.host = "y?") ∧
      ∃ staged, first.written = Block.sourceOf staged ∧
        second.SameText (later.render { next with program := ⟨source, staged⟩ } .text "") := by
  intro x engine source job first y broken later next second
  have simple : ∀ block ∈ job.program.blocks, block.isSimple = true := by decide +kernel
  have succeeded : first.result = .ok () := by decide +kernel
  have braceFree : ∀ write ∈ first.writes, write.origin = .value →
      write.text.toList.all (!isBrace ·) = true := by decide +kernel
  obtain ⟨_, _, staged, _, _, _, written, _, same⟩ :=
    engine.render_staged later source rfl simple rfl succeeded braceFree
  exact ⟨by decide +kernel, staged, written, same next ""⟩

end Engine

end Stencil
