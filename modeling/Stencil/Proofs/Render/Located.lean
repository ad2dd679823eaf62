import Stencil.Proofs.Engine.Cache
import Stencil.Proofs.Outline.Account
import Stencil.Proofs.Render.Trail
import Stencil.Proofs.Token.Single
import Stencil.Proofs.Value.Unlocated

/-!
# Errors point to the innermost directive

In compiled templates every directive was written as a tag, so wherever a render of them fails, each
directive on the trail is at a tag of its source. Errors that point nowhere are pointed to the first
of them, and the others leave that as it is.

1. `Location.IsTag`: the place of a directive in a compiled source.
2. `Place.Known`, `Act.Known`: what is known of everything that a render of compiled templates comes
   to, where the host fails without a place.
3. `FailsAt.known`: the places on a trail are tags.
4. `Engine.render_located`: the errors of a render point to the first place on the trail.
-/

namespace Stencil

variable {σ : Type}

/-! ## Places in compiled templates -/

def Program.IsCompiled (program : Program) : Prop :=
  (Program.compile program.source).value = program

/-- The place of a directive in the template that a source compiles to. -/
structure Location.IsTag (location : Location) : Prop where
  directive : ∃ head ∈ Block.headsList (Program.compile location.source).value.blocks,
    head.name?.isSome = true ∧ head.span = location.span
  /-- The source has a tag there, which is a single tag by itself, from brace to brace. -/
  tag : ∃ tag, .tag tag ∈ Token.ofSource location.source ∧ tag.span = location.span ∧
    location.span.select? location.source.toList = some tag.text.toList ∧
    (∃ alone, Token.ofSource tag.text = [.tag alone]) ∧
    ['\x7b', '\x7b'] <+: tag.text.toList ∧ ['\x7d', '\x7d'] <:+ tag.text.toList

theorem Location.IsTag.source_ne_empty {location : Location} (isTag : location.IsTag) :
    location.source ≠ "" := by
  obtain ⟨tag, mem, _⟩ := isTag.tag
  intro empty
  have none : Token.ofSource "" = [] := by decide +kernel
  rw [empty, none] at mem
  cases mem

/-- A directive is in its own tree, without what it holds. -/
theorem Block.exists_head (block : Block) :
    ∃ head ∈ block.heads, head.name? = block.name? ∧ head.span = block.span := by
  cases block <;> exact ⟨_, List.mem_cons_self, rfl, rfl⟩

theorem Location.isTag_of_mem {source : String} {block : Block} {blocks : List Block}
    (compiled : Block.headsList blocks ⊆ Block.headsList (Program.compile source).value.blocks)
    (mem : block ∈ blocks) (named : block.name?.isSome = true) :
    (⟨source, block.span⟩ : Location).IsTag := by
  obtain ⟨head, head_mem, same_name, same_span⟩ := block.exists_head
  have in_source := compiled (Block.heads_subset_headsList mem head_mem)
  have head_named : head.name?.isSome = true := by rw [same_name, named]
  refine ⟨⟨head, in_source, head_named, same_span⟩, ?_⟩
  have stands := Program.stands_compile in_source
  cases head with
  | text content span => cases head_named
  | placeholder | condition | iteration =>
    obtain ⟨tag, tag_mem, tag_span, _⟩ := stands
    have selected := (Token.covers_ofSource source).select?_span tag_mem byteLength_nil
    refine ⟨tag, tag_mem, tag_span.trans same_span, ?_, Token.single_of_mem tag_mem⟩
    rwa [← same_span, ← tag_span]

/-! ## What a render finds -/

namespace Eval

variable {α β : Type} [Carries σ α] [Carries σ β]

/-- A step that finds data which fails without a place. -/
def Finds (step : Eval σ α) : Prop :=
  ∀ run result moment, step run = .ok result moment → Carries.All (@Value.Unlocated σ) result

theorem finds_sequential : Eval.Sequential (@Value.Unlocated σ) fun step _ => Finds step where
  toHereditary := Value.unlocated_hereditary
  pure := by
    rintro _ _ result known _ _ _ ⟨⟩
    exact known
  bind := by
    intro α β _ _ step _ next _ first second run result moment done
    obtain ⟨between, middle, ran, later⟩ := exists_of_bind_eq_ok done
    exact second between (first run between middle ran) middle result moment later
  note := fun _ _ _ _ _ _ _ mem => nomatch mem
  call := by
    intro id compute known run result moment done value mem
    rw [List.mem_singleton.mp mem]
    exact unlocated_of_call known done

end Eval

/-- An engine with compiled templates, and with data that fails without a place. -/
structure Setting.Known (setting : Setting σ) : Prop where
  templates : ∀ name program, setting.templates.find? name = some program → program.IsCompiled
  data : setting.data.Unlocated

namespace Level

variable {setting : Setting σ} {depth : Nat} {context owner : Context σ} {run moment : Run σ}

theorem unlocated_of_settle {value settled : Value σ} (unlocated : value.Unlocated)
    (settles : settle value run = .ok settled moment) : settled.Unlocated :=
  Eval.finds_sequential.settle unlocated run settled moment settles settled List.mem_cons_self

section

variable (known : setting.Known)
include known

/-- Finding a value finds data that fails without a place, however it is found. The text of a
template is no data that could fail, whatever fails while it is rendered. -/
theorem finds_agree (depth : Nat) :
    Agree (@Value.Unlocated σ) (fun step _ => Eval.Finds step) (ofDepth setting depth)
      (ofDepth setting depth) where
  templates := rfl
  data := rfl
  registered := by
    rw [setting_ofDepth]
    exact fun _ _ found => known.data.find found
  standIn := fun _ _ _ _ _ _ _ _ _ _ mem => nomatch mem

theorem unlocated_of_resolve (unlocated : context.All Value.Unlocated) {text : String}
    {value : Value σ}
    (resolved : (ofDepth setting depth).resolve context text run = .ok (some value) moment) :
    value.Unlocated := by
  have finds := (finds_agree known depth).resolve Eval.finds_sequential unlocated text
  exact finds run (some value) moment resolved value List.mem_cons_self

theorem unlocated_of_leads (unlocated : owner.All Value.Unlocated) {segments : List String}
    {value : Value σ}
    (leads : (ofDepth setting depth).Leads owner segments run (some value) moment) :
    value.Unlocated := by
  have finds := (finds_agree known depth).drill Eval.finds_sequential unlocated segments
  exact finds run (some value) moment (leads_iff.mp leads) value List.mem_cons_self

theorem unlocated_of_ancestor (unlocated : context.All Value.Unlocated) {text : String}
    {ancestor : Context σ}
    (reached : (ofDepth setting depth).ancestor context text run = .ok (some ancestor) moment) :
    ancestor.All Value.Unlocated := by
  have at_root : (Context.atRoot context.root).All Value.Unlocated :=
    ⟨unlocated.root, unlocated.root⟩
  rw [Level.ancestor] at reached
  obtain ⟨_, noted, silent, reached⟩ := Eval.exists_of_bind_eq_ok reached
  dsimp only at reached
  split at reached
  · cases reached
    exact at_root
  · obtain ⟨found, between, resolved, reached⟩ := Eval.exists_of_bind_eq_ok reached
    cases found with
    | none => cases reached
    | some value =>
      have found := unlocated_of_resolve known at_root resolved
      cases reached
      exact ⟨found, unlocated.root⟩

end

end Level

/-! ## Acts -/

/-- Blocks of a compiled template, in data that fails without a place. -/
structure Place.Known (place : Place σ) (blocks : List Block) : Prop where
  context : place.context.All Value.Unlocated
  compiled : Block.headsList blocks ⊆
    Block.headsList (Program.compile place.source).value.blocks

theorem Program.IsCompiled.known {program : Program} (compiled : program.IsCompiled)
    (keepUndefined : Bool) {context : Context σ} (unlocated : context.All Value.Unlocated) :
    (⟨program.source, keepUndefined, context⟩ : Place σ).Known program.blocks where
  context := unlocated
  compiled := by
    show _ ⊆ Block.headsList (Program.compile program.source).value.blocks
    rw [compiled]
    exact List.Subset.refl _

theorem Place.Known.inside {place : Place σ} {block : Block} {rest inner : List Block}
    (known : place.Known (block :: rest)) (inside : Block.headsList inner ⊆ block.heads) :
    place.Known inner where
  context := known.context
  compiled := List.Subset.trans (List.subset_append_of_subset_left _ inside) known.compiled

theorem Place.Known.rest {place : Place σ} {block : Block} {rest : List Block}
    (known : place.Known (block :: rest)) : place.Known rest where
  context := known.context
  compiled := List.Subset.trans (List.subset_append_right _ _) known.compiled

/-- An act in compiled templates and in data that fails without a place. -/
def Act.Known : Act σ → Prop
  | .fails error => error.location = none
  | .opens place blocks => place.Known blocks
  | .iterates value placed blocks =>
    value.Unlocated ∧ ∀ item : Value σ, item.Unlocated → (placed item).Known blocks

namespace Level

variable {setting : Setting σ} {depth : Nat} {context owner : Context σ} {run moment : Run σ}
  {act : Act σ} {text : String} {segments : List String}

section

variable (known : setting.Known)
include known

theorem known_of_drills (unlocated : owner.All Value.Unlocated)
    (drills : (ofDepth setting depth).Drills owner segments run act moment) : act.Known := by
  induction drills with
  | call segments present failed =>
    have child := Value.unlocated_hereditary.child unlocated.current present
    exact Eval.unlocated_of_failed child failed
  | standIn segments run standsIn =>
    have registered := standsIn.registered
    rw [setting_ofDepth] at registered
    exact (known.templates _ _ registered).known false unlocated
  | further leads drills ih => exact ih ⟨unlocated_of_leads known unlocated leads, unlocated.root⟩

theorem known_of_drillsData {root : Value σ} (unlocated : root.Unlocated)
    (drills : (ofDepth setting depth).DrillsData root segments run act moment) : act.Known := by
  cases drills with
  | call segments present failed =>
    rw [setting_ofDepth] at present
    exact Eval.unlocated_of_failed (known.data.find present) failed
  | further present settles drills =>
    rw [setting_ofDepth] at present
    have found := unlocated_of_settle (known.data.find present) settles
    exact known_of_drills known ⟨found, unlocated⟩ drills

theorem known_of_resolves (unlocated : context.All Value.Unlocated)
    (resolves : (ofDepth setting depth).Resolves context text run act moment) : act.Known := by
  induction resolves with
  | drill _ drills => exact known_of_drills known unlocated drills
  | data _ _ drills => exact known_of_drillsData known unlocated.root drills
  | path _ _ _ ih => exact ih ⟨unlocated.root, unlocated.root⟩
  | ancestor _ reached drills =>
    exact known_of_drills known (unlocated_of_ancestor known unlocated reached) drills

end

/-- A fragment is compiled, where whatever is cached is. -/
theorem isCompiled_of_fragment (cached : run.cache.Compiled) {program : Program}
    (done : Eval.fragment text run = .ok program moment) : program.IsCompiled := by
  obtain ⟨after, gives, _⟩ := Eval.fragment_eq_ok text cached
  cases gives.symm.trans done
  rfl

theorem known_of_begins (known : setting.Known) {place : Place σ} {block : Block}
    {rest : List Block} (placed : place.Known (block :: rest)) (cached : run.cache.Compiled)
    (begins : (ofDepth setting depth).Begins place block run act moment) : act.Known := by
  have resolved_cached {name : String} {found : Option (Value σ)} {between : Run σ}
      (resolved : (ofDepth setting depth).resolve place.context name run = .ok found between) :
      between.cache.Compiled :=
    (Eval.transparent_closed.resolve setting depth _ _).compiled_of_ok cached resolved
  cases begins with
  | lookup _ resolves => exact known_of_resolves known placed.context resolves
  | fragment resolved _ _ compiled =>
    exact (isCompiled_of_fragment (resolved_cached resolved) compiled).known _ placed.context
  | test resolved _ compiled =>
    exact (isCompiled_of_fragment (resolved_cached resolved) compiled).known _ placed.context
  | @branch _ _ selected => exact placed.inside (Block.headsList_branch_subset selected)
  | body resolved _ _ =>
    have inside := placed.inside Block.headsList_body_subset
    refine ⟨unlocated_of_resolve known placed.context resolved, fun item found => ?_⟩
    exact ⟨⟨found, placed.context.root⟩, inside.compiled⟩

theorem name?_of_begins {level : Level σ} {place : Place σ} {block : Block}
    (begins : level.Begins place block run act moment) : block.name?.isSome = true := by
  cases begins with
  | lookup named => rw [named]; rfl
  | _ => rfl

end Level

/-! ## Members -/

namespace Eval

variable {run moment : Run σ}

theorem mem_of_comesTo {α : Type} {step : α → Eval σ Unit} {items : List α} {item : α}
    (comes : ComesTo step items run item moment) : item ∈ items := by
  induction comes with
  | first => exact List.mem_cons_self
  | later done rest ih => exact List.mem_cons_of_mem _ ih

theorem unlocated_of_pullsTo {step : Value σ → Eval σ Unit} {pull : Pull σ} {item : Value σ}
    (comes : PullsTo step pull run item moment) (unlocated : pull.Unlocated) :
    item.Unlocated := by
  induction comes with
  | first =>
    cases unlocated with | member handed pulls
    exact handed
  | later done rest ih =>
    cases unlocated with | member handed pulls
    exact ih (pulls _)

/-- A member that a render comes to fails without a place, if the value does. -/
theorem unlocated_of_meetsMember {step : Value σ → Eval σ Unit} {value item : Value σ}
    (meets : MeetsMember value step run item moment) (unlocated : value.Unlocated) :
    item.Unlocated := by
  cases value with
  | list items => exact Value.unlocated_hereditary.item unlocated (mem_of_comesTo meets)
  | map entries =>
    obtain ⟨name, comes⟩ := meets
    exact Value.unlocated_hereditary.entry unlocated (mem_of_comesTo comes)
  | collection id kind pull =>
    cases unlocated with | collection pulls
    exact unlocated_of_pullsTo meets (pulls _)
  | _ =>
    obtain ⟨rfl, rfl⟩ := meets
    exact unlocated

end Eval

/-! ## Trails -/

section

variable {setting : Setting σ} {depth : Nat} {place : Place σ} {blocks : List Block}
  {run moment : Run σ} {trail : List Location} {mishap : Mishap}

/-- One level further down, an act comes to blocks of compiled templates. -/
theorem Act.Opens.known {act : Act σ}
    (opens : act.Opens (renderBlocks setting depth) run place blocks moment)
    (known : act.Known) : place.Known blocks := by
  cases opens with
  | blocks => exact known
  | member meets => exact known.2 _ (Eval.unlocated_of_meetsMember meets known.1)

/-- Where compiled templates fail, the error does not point anywhere yet, and each directive on the
trail is at a tag of its source. -/
theorem FailsAt.known (fails : FailsAt setting depth place blocks run mishap trail)
    (known : setting.Known) (placed : place.Known blocks) (cached : run.cache.Compiled) :
    (mishap.error setting.maxDepth).location = none ∧ ∀ location ∈ trail, location.IsTag := by
  have tag {depth : Nat} {place : Place σ} {block : Block} {rest : List Block} {run moment : Run σ}
      {act : Act σ} (placed : place.Known (block :: rest))
      (begins : (Level.ofDepth setting depth).Begins place block run act moment) :
      ∀ location ∈ [(⟨place.source, block.span⟩ : Location)], location.IsTag := by
    have named := Level.name?_of_begins begins
    exact List.forall_mem_singleton.mpr
      (Location.isTag_of_mem placed.compiled List.mem_cons_self named)
  induction fails with
  | host begins => exact ⟨Level.known_of_begins known placed cached begins, tag placed begins⟩
  | pull begins fails =>
    obtain ⟨unlocated, _⟩ := Level.known_of_begins known placed cached begins
    cases unlocated with | collection pulls
    exact ⟨Eval.unlocated_of_pullFails fails (pulls _), tag placed begins⟩
  | limit begins goesDown => exact ⟨rfl, tag placed begins⟩
  | inside begins opens fails ih =>
    have invariant := @Eval.compiled_invariant σ
    have inner_cached := invariant.of_opens opens (invariant.of_begins begins cached)
    obtain ⟨nowhere, tags⟩ :=
      ih (opens.known (Level.known_of_begins known placed cached begins)) inner_cached
    refine ⟨nowhere, fun location mem => ?_⟩
    exact (List.mem_append.mp mem).elim (tags location) (tag placed begins location)
  | @later depth place block _ _ _ _ _ done fails ih =>
    have transparent := Eval.transparent_closed.block setting depth place block
    exact ih placed.rest (transparent.compiled_of_ok cached done)

/-- A trail begins with the innermost directive. -/
theorem FailsAt.trail_ne_nil (fails : FailsAt setting depth place blocks run mishap trail) :
    trail ≠ [] := by
  induction fails with
  | inside => exact List.append_ne_nil_of_right_ne_nil _ (List.cons_ne_nil _ _)
  | later _ _ ih => exact ih
  | _ => exact List.cons_ne_nil _ _

end

/-- An error that does not point anywhere is pointed to the first place, whatever follows. -/
theorem Error.locateAll_cons {error : Error} (nowhere : error.location = none)
    {location : Location} (shown : location.source ≠ "") (outer : List Location) :
    error.locateAll (location :: outer) = ⟨error.cause, some location⟩ := by
  have kept : outer.foldl (fun error location => error.locate location.source location.span)
      (error.locate location.source location.span) =
        error.locate location.source location.span := by
    induction outer with
    | nil => rfl
    | cons other outer ih => rw [List.foldl_cons, locate_locate error _ shown, ih]
  rw [locateAll, List.foldl_cons, kept]
  simp [locate, nowhere, shown]

/-! ## Renders -/

namespace Engine

/-- A render of a job, with data as it is given, fails with a trail. -/
def Fails (engine : Engine σ) (job : Job σ) (host : σ) (mishap : Mishap) (trail : List Location) :
    Prop :=
  let setting := engine.setting job
  FailsAt setting setting.maxDepth
    ⟨job.program.source, job.keepUndefined, job.start job.data⟩ job.program.blocks
    (engine.begin .text host) mishap trail

/-- Where the templates are compiled and the host fails with errors that do not point anywhere, a
render gives exactly the errors that arise where it fails, with the cause as it is, pointed to the
innermost directive that is being evaluated. This directive, like all others on the trail, is at a
tag of the source that it belongs to. -/
theorem render_located (operations : List (Operation σ)) (job : Job σ) (host : σ)
    (known : ((after operations).setting job).Known) (compiled : job.program.IsCompiled)
    (unlocated : job.data.Unlocated) (placed : ∀ context ∈ job.context, context.All Value.Unlocated)
    (asGiven : job.evaluated = false) :
    let engine := after operations
    let limit := (engine.setting job).maxDepth
    (∀ error, (engine.render job .text host).text = .error error ↔
        ∃ mishap location outer, engine.Fails job host mishap (location :: outer) ∧
          error = ⟨(mishap.error limit).cause, some location⟩) ∧
      ∀ mishap trail, engine.Fails job host mishap trail → ∀ location ∈ trail, location.IsTag := by
  intro engine limit
  have cached : (engine.begin .text host).cache.Compiled := compiled_after operations
  have start : (job.start job.data).All Value.Unlocated := by
    unfold Job.start
    cases given : job.context with
    | none => exact ⟨unlocated, unlocated⟩
    | some context => exact placed context given
  have inside {mishap : Mishap} {trail : List Location}
      (fails : engine.Fails job host mishap trail) :
      (mishap.error limit).location = none ∧ ∀ location ∈ trail, location.IsTag :=
    fails.known known (compiled.known _ start) cached
  have pointed {mishap : Mishap} {location : Location} {outer : List Location}
      (fails : engine.Fails job host mishap (location :: outer)) :
      (mishap.error limit).locateAll (location :: outer) =
        ⟨(mishap.error limit).cause, some location⟩ := by
    obtain ⟨nowhere, tags⟩ := inside fails
    exact Error.locateAll_cons nowhere (tags location List.mem_cons_self).source_ne_empty outer
  refine ⟨fun error => ?_, fun mishap trail fails => (inside fails).2⟩
  have ready : job.prepared host = .ok job.data host := by
    rw [Job.prepared, asGiven]
    rfl
  rw [engine.text_eq_error_iff ready]
  refine (renderBlocks_raises_iff rfl).trans ⟨?_, ?_⟩
  · rintro ⟨mishap, trail, fails, rfl⟩
    obtain ⟨location, outer, rfl⟩ := List.exists_cons_of_ne_nil fails.trail_ne_nil
    exact ⟨mishap, location, outer, fails, pointed fails⟩
  · rintro ⟨mishap, location, outer, fails, rfl⟩
    exact ⟨mishap, location :: outer, fails, (pointed fails).symm⟩

/-- The host fails in the second row, in a template that stands in for a member of the row. The
error points into this template. -/
theorem render_located_stand_in :
    let operations : List (Operation Nat) := [.registerTemplate "cell" "(\x7b\x7bn\x7d\x7d)"]
    let failing : Value Nat := .computed 0 fun calls => .failure (calls + 1) (.custom "no cell")
    let data : Value Nat :=
      .map [("rows", .list [.map [("n", .text "7")], .map [("n", failing)]])]
    let program := (Program.compile
      "\x7b\x7bforeach rows\x7d\x7d\x7b\x7bcell\x7d\x7d\x7b\x7bend\x7d\x7d").value
    let job : Job Nat := ⟨program, data, false, none, false, none⟩
    let location : Location := ⟨"(\x7b\x7bn\x7d\x7d)", ⟨1, 6⟩⟩
    ((after operations).render job .text 0).text = .error ⟨.custom "no cell", some location⟩ ∧
      location.IsTag := by
  intro operations failing data program job location
  have known : ((after operations).setting job).Known := by
    constructor
    · intro name program found
      have inserted : (after operations).templates.find? name =
        if name = "cell" then some (Program.compile "(\x7b\x7bn\x7d\x7d)").value else none :=
        Table.find?_insert .empty "cell" _ name
      have registered := inserted.symm.trans found
      split at registered <;> cases registered
      rfl
    · exact fun entry mem => nomatch mem
  have unlocated : data.Unlocated := by
    have row : (Value.map [("n", failing)]).Unlocated :=
      .map (List.forall_mem_singleton.mpr (.computed fun _ => .failure rfl))
    have rows : (Value.list [.map [("n", .text "7")], .map [("n", failing)]]).Unlocated :=
      .list (List.forall_mem_cons.mpr
        ⟨.map (List.forall_mem_singleton.mpr (.text "7")), List.forall_mem_singleton.mpr row⟩)
    exact .map (List.forall_mem_singleton.mpr rows)
  have failed : ((after operations).render job .text 0).text =
      .error ⟨.custom "no cell", some location⟩ := by decide +kernel
  obtain ⟨pointed, tags⟩ := render_located operations job 0 known rfl unlocated nofun rfl
  obtain ⟨mishap, innermost, outer, fails, same⟩ := (pointed _).mp failed
  obtain rfl : location = innermost := by
    injection same with _ same
    exact Option.some.inj same
  exact ⟨failed, tags mishap _ fails location List.mem_cons_self⟩

end Engine

end Stencil
