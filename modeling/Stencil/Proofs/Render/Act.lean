import Stencil.Proofs.Block.Tree
import Stencil.Proofs.Render.Event
import Stencil.Proofs.Render.Lookup

/-!
# What a directive comes to

Evaluating a directive calls computed values and renders blocks: those that it selects, those of a
template that stands in for a member, or those of a text that is a template. It also looks such a
text up. Nothing else happens in it.

1. `Act`, `Level.Begins`: what a directive comes to, with the moment of the run.
2. `Level.Asks`: a directive looks up the template of a text.
3. `Eval.Event.directive_iff`: an event happens in a directive if it happens in an act that the
   directive comes to, or with a text that it looks up.
4. `Eval.Event.renderBlocks_cons_iff`: an event happens in the first of some blocks, or behind it.
-/

namespace Stencil

variable {σ : Type}

/-! ## Acts -/

/-- What evaluating a directive comes to: a failure of the host, or blocks. -/
inductive Act (σ : Type) where
  /-- The host fails. -/
  | fails (error : Error)
  /-- Blocks are rendered one level further down. -/
  | opens (place : Place σ) (blocks : List Block)
  /-- Blocks are rendered for each member of a value, one level further down. -/
  | iterates (value : Value σ) (placed : Value σ → Place σ) (blocks : List Block)

namespace Act

def goesDown : Act σ → Bool
  | .fails _ => false
  | .opens .. | .iterates .. => true

/-- One level further down, an act comes to blocks that are to be rendered. -/
inductive Opens (body : Body σ) : Act σ → Run σ → Place σ → List Block → Run σ → Prop where
  | blocks (place : Place σ) (blocks : List Block) (run : Run σ) :
      Opens body (.opens place blocks) run place blocks run
  | member {value item : Value σ} {placed : Value σ → Place σ} {blocks : List Block}
      {run moment : Run σ}
      (met : Eval.MeetsMember value (fun item => body (placed item) blocks) run item moment) :
      Opens body (.iterates value placed blocks) run (placed item) blocks moment

/-- An event happens in an act at some level. -/
def Has (onError : Error → Prop) (Happens : Eval σ Unit → Run σ → Prop) (level : Level σ)
    (act : Act σ) (run : Run σ) : Prop :=
  match act with
  | .fails error => onError error
  | .opens place blocks => Happens (level.descend >>= fun body => body place blocks) run
  | .iterates value placed blocks =>
    Happens (level.descend >>= fun body =>
      Eval.forEachMember value fun item => body (placed item) blocks) run

end Act

namespace Level

/-- Drilling comes to an act: it calls a computed value, which fails, or it renders a template that
stands in for a member. -/
inductive Drills (level : Level σ) : Context σ → List String → Run σ → Act σ → Run σ → Prop where
  | call {owner : Context σ} {segment : String} {id : Nat} {compute : σ → Reply σ} {run : Run σ}
      {host : σ} {error : Error} (segments : List String)
      (present : owner.current.child? segment = some (.computed id compute))
      (failed : compute run.host = .failure host error) :
      Drills level owner (segment :: segments) run (.fails error) run
  | standIn {owner : Context σ} {segment : String} {program : Program} (segments : List String)
      (run : Run σ) (standsIn : level.StandsIn owner.current segment program) :
      Drills level owner (segment :: segments) run
        (.opens ⟨program.source, false, owner⟩ program.blocks) (run.withSink .unlimited)
  | further {owner : Context σ} {segment : String} {segments : List String} {value : Value σ}
      {act : Act σ} {run run' moment : Run σ}
      (leads : level.Leads owner [segment] run (some value) run')
      (drills : Drills level ⟨value, Path.join owner.path segment, owner.root⟩ segments run' act
        moment) :
      Drills level owner (segment :: segments) run act moment

inductive DrillsData (level : Level σ) (root : Value σ) :
    List String → Run σ → Act σ → Run σ → Prop where
  | call {segment : String} {id : Nat} {compute : σ → Reply σ} {run : Run σ} {host : σ}
      {error : Error} (segments : List String)
      (present : level.setting.data.find? segment = some (.computed id compute))
      (failed : compute run.host = .failure host error) :
      DrillsData level root (segment :: segments) run (.fails error) run
  | further {segment : String} {segments : List String} {value settled : Value σ} {act : Act σ}
      {run run' moment : Run σ} (present : level.setting.data.find? segment = some value)
      (settles : settle value run = .ok settled run')
      (drills : level.Drills ⟨settled, segment, root⟩ segments run' act moment) :
      DrillsData level root (segment :: segments) run act moment

/-- Looking up a name comes to an act: where its segments are drilled, where the registered data is
asked instead, or where the ancestor is looked up that the name climbs to. -/
inductive Resolves (level : Level σ) : Context σ → String → Run σ → Act σ → Run σ → Prop where
  | drill {context : Context σ} {text : String} {act : Act σ} {run moment : Run σ}
      (stays : (Name.ofText text).climbs = 0)
      (drills : level.Drills context (Name.ofText text).segments run act moment) :
      Resolves level context text run act moment
  | data {context : Context σ} {text : String} {act : Act σ} {run between moment : Run σ}
      (stays : (Name.ofText text).climbs = 0)
      (nowhere : level.Leads context (Name.ofText text).segments run none between)
      (drills : level.DrillsData context.root (Name.ofText text).segments between act moment) :
      Resolves level context text run act moment
  | path {context : Context σ} {text : String} {act : Act σ} {run moment : Run σ}
      (climbs : (Name.ofText text).climbs ≠ 0)
      (below : (Name.ofText text).climbs < (segmentsOf context.path).length)
      (resolves : Resolves level (.atRoot context.root)
        (Path.ancestor context.path (Name.ofText text).climbs) run act moment) :
      Resolves level context text run act moment
  | ancestor {context ancestor : Context σ} {text : String} {act : Act σ}
      {run between moment : Run σ} (climbs : (Name.ofText text).climbs ≠ 0)
      (reached : level.ancestor context text run = .ok (some ancestor) between)
      (drills : level.Drills ancestor (Name.ofText text).segments between act moment) :
      Resolves level context text run act moment

/-- Evaluating a directive comes to an act: its name is looked up, the text of its value is rendered
or tested as a template, or what it holds is rendered. -/
inductive Begins (level : Level σ) (place : Place σ) : Block → Run σ → Act σ → Run σ → Prop where
  | lookup {block : Block} {name : String} {act : Act σ} {run moment : Run σ}
      (named : block.name? = some name)
      (resolves : level.Resolves place.context name run act moment) :
      Begins level place block run act moment
  | fragment {p : Placeholder} {value : Value σ} {program : Program} {run run' moment : Run σ}
      (resolved : level.resolve place.context p.name run = .ok (some value) run')
      (present : value.isNull = false)
      (tagged : (p.recursive && hasTag (p.textOf value).toList) = true)
      (compiled : Eval.fragment (p.textOf value) run' = .ok program moment) :
      Begins level place (.placeholder p) run
        (.opens { place with source := program.source } program.blocks) moment
  | test {name text : String} {yes no : List Block} {span : Span} {program : Program}
      {run run' moment : Run σ}
      (resolved : level.resolve place.context name run = .ok (some (.text text)) run')
      (tagged : isTagged text.toList = true)
      (compiled : Eval.fragment text run' = .ok program moment) :
      Begins level place (.condition name true yes no span) run
        (.opens ⟨program.source, false, place.context⟩ program.blocks) (moment.withSink .unlimited)
  | branch {name : String} {recursive selected : Bool} {yes no : List Block} {span : Span}
      {run moment : Run σ}
      (decided : level.decision place.context name recursive run = .ok selected moment)
      (nonempty : (if selected then yes else no) ≠ []) :
      Begins level place (.condition name recursive yes no span) run
        (.opens place (if selected then yes else no)) moment
  | body {name : String} {inner : List Block} {span : Span} {value : Value σ} {run moment : Run σ}
      (resolved : level.resolve place.context name run = .ok (some value) moment)
      (truthy : value.truthy = true) (nonempty : inner ≠ []) :
      Begins level place (.iteration name inner span) run
        (.iterates value (fun item => { place with
          context := ⟨item, Path.item place.context.path name, place.context.root⟩ }) inner) moment

/-- Evaluating a directive looks up the template of a text: the text of a recursive placeholder, or
the text that a recursive condition tests. -/
inductive Asks (level : Level σ) (place : Place σ) : Block → Run σ → String → Prop where
  | fragment {p : Placeholder} {value : Value σ} {run moment : Run σ}
      (resolved : level.resolve place.context p.name run = .ok (some value) moment)
      (present : value.isNull = false)
      (tagged : (p.recursive && hasTag (p.textOf value).toList) = true) :
      Asks level place (.placeholder p) run (p.textOf value)
  | test {name text : String} {yes no : List Block} {span : Span} {run moment : Run σ}
      (resolved : level.resolve place.context name run = .ok (some (.text text)) moment)
      (tagged : isTagged text.toList = true) :
      Asks level place (.condition name true yes no span) run text

/-- An event happens in an act that a directive comes to, or with a text whose template it looks up,
which it does one level further down. -/
def Includes (onError : Error → Prop) (onText : String → Prop)
    (Happens : Eval σ Unit → Run σ → Prop) (level : Level σ) (place : Place σ) (block : Block)
    (run : Run σ) : Prop :=
  (∃ act moment, level.Begins place block run act moment ∧ act.Has onError Happens level moment) ∨
    level.below ≠ none ∧ ∃ text, level.Asks place block run text ∧ onText text

def directive (level : Level σ) (place : Place σ) : Block → Eval σ Unit
  | .text content _ => Eval.emit .literal content
  | .placeholder p => level.placeholder place p
  | .condition name recursive yes no _ => level.condition place name recursive yes no
  | .iteration name inner _ => level.iteration place name inner

end Level

/-! ## Known steps -/

namespace Eval.Closed

variable {P : {α : Type} → Eval σ α → Prop} (closed : Eval.Closed P)
include closed

theorem noteClimb (text path : String) : P (Eval.noteClimb text path) := by
  unfold Eval.noteClimb
  split
  · exact closed.note _ _
  · exact closed.pure ()

theorem ancestor (setting : Setting σ) (depth : Nat) (context : Context σ) (text : String) :
    P ((Level.ofDepth setting depth).ancestor context text) := by
  refine closed.bind (closed.noteClimb text context.path) fun _ => ?_
  dsimp only
  split
  · exact closed.pure _
  · exact closed.bind (closed.resolve setting depth _ _) fun _ => closed.pure _

theorem decision (setting : Setting σ) (depth : Nat) (context : Context σ) (name : String)
    (recursive : Bool) : P ((Level.ofDepth setting depth).decision context name recursive) := by
  refine closed.bind (closed.resolve setting depth context name) fun found => ?_
  cases found with
  | none => exact closed.pure false
  | some value => exact closed.holds setting depth context recursive value

theorem branch (setting : Setting σ) (depth : Nat) (place : Place σ) (blocks : List Block) :
    P ((Level.ofDepth setting depth).branch place blocks) := by
  unfold Level.branch
  split
  · exact closed.pure ()
  · exact closed.descend setting depth fun depth => closed.renderBlocks setting depth place blocks

theorem write (setting : Setting σ) (depth : Nat) (place : Place σ) (p : Placeholder)
    (value : Value σ) : P ((Level.ofDepth setting depth).write place p value) := by
  unfold Level.write
  split
  · refine closed.descend setting depth fun depth => ?_
    exact closed.bind (closed.fragment _) fun _ => closed.renderBlocks setting depth _ _
  · exact closed.emit _ _

end Eval.Closed

/-! ## Known moments -/

namespace Eval.Invariant

variable {P : {α : Type} → Eval σ α → Prop} {Q : Run σ → Prop} (invariant : Invariant P Q)
  {setting : Setting σ} {depth : Nat} {run moment : Run σ} {act : Act σ}
include invariant

theorem of_drills {owner : Context σ} {segments : List String}
    (drills : (Level.ofDepth setting depth).Drills owner segments run act moment)
    (known : Q run) : Q moment := by
  induction drills with
  | call => exact known
  | standIn => exact invariant.unlimited known
  | further leads drills ih =>
    exact ih (invariant.kept (invariant.closed.drill setting depth _ _) known
      (Level.leads_iff.mp leads))

theorem of_drillsData {root : Value σ} {segments : List String}
    (drills : (Level.ofDepth setting depth).DrillsData root segments run act moment)
    (known : Q run) : Q moment := by
  cases drills with
  | call => exact known
  | further present settles drills =>
    exact invariant.of_drills drills (invariant.kept (invariant.closed.settle _) known settles)

theorem of_resolves {context : Context σ} {text : String}
    (resolves : (Level.ofDepth setting depth).Resolves context text run act moment)
    (known : Q run) : Q moment := by
  induction resolves with
  | drill _ drills => exact invariant.of_drills drills known
  | data _ nowhere drills =>
    exact invariant.of_drillsData drills (invariant.kept
      (invariant.closed.drill setting depth _ _) known (Level.leads_iff.mp nowhere))
  | path _ _ _ ih => exact ih known
  | ancestor _ reached drills =>
    exact invariant.of_drills drills
      (invariant.kept (invariant.closed.ancestor setting depth _ _) known reached)

theorem of_begins {place : Place σ} {block : Block}
    (begins : (Level.ofDepth setting depth).Begins place block run act moment) (known : Q run) :
    Q moment := by
  have resolved_known {name : String} {found : Option (Value σ)} {between : Run σ}
      (resolved : (Level.ofDepth setting depth).resolve place.context name run =
        .ok found between) : Q between :=
    invariant.kept (invariant.closed.resolve setting depth _ _) known resolved
  cases begins with
  | lookup _ resolves => exact invariant.of_resolves resolves known
  | fragment resolved _ _ compiled =>
    exact invariant.kept (invariant.closed.fragment _) (resolved_known resolved) compiled
  | test resolved _ compiled =>
    exact invariant.unlimited
      (invariant.kept (invariant.closed.fragment _) (resolved_known resolved) compiled)
  | branch decided _ =>
    exact invariant.kept (invariant.closed.decision setting depth _ _ _) known decided
  | body resolved _ _ => exact resolved_known resolved

theorem of_opens {inner : Place σ} {blocks : List Block}
    (opens : act.Opens (renderBlocks setting depth) run inner blocks moment) (known : Q run) :
    Q moment := by
  cases opens with
  | blocks => exact known
  | member met =>
    exact invariant.of_meetsMember (fun _ => invariant.closed.renderBlocks setting depth _ _) met
      known

end Eval.Invariant

/-! ## Events -/

namespace Eval.Event

variable {P : {α : Type} → Eval σ α → Prop} {Q : Run σ → Prop} {onError : Error → Prop}
  {onText : String → Prop} {Happens : {α : Type} → Eval σ α → Run σ → Prop}
  (event : Event P Q onError onText Happens) {setting : Setting σ} {depth : Nat} {run : Run σ}
include event

theorem not_happens_noteClimb (text path : String) :
    ¬ Happens (noteClimb text path : Eval σ Unit) run := by
  unfold noteClimb
  split
  · exact event.note _ _ _
  · exact event.pure _ _

theorem settle_iff {value : Value σ} (known : Q run) :
    Happens (Level.settle value) run ↔
      ∃ id compute host error, value = .computed id compute ∧
        compute run.host = .failure host error ∧ onError error := by
  have called {compute : σ → Reply σ} {next : Value σ → Value σ} :
      Happens (Eval.call compute >>= fun result => Pure.pure (next result)) run ↔
        ∃ host error, compute run.host = .failure host error ∧ onError error := by
    rw [event.bind (event.closed.call _) (fun _ => event.closed.pure _) known, event.call,
      or_iff_left]
    rintro ⟨_, _, _, happens⟩
    exact event.pure _ _ happens
  cases value with
  | computed id compute =>
    refine called.trans ⟨?_, ?_⟩
    · rintro ⟨host, error, failed, happens⟩
      exact ⟨id, compute, host, error, rfl, failed, happens⟩
    · rintro ⟨_, _, host, error, ⟨⟩, failed, happens⟩
      exact ⟨host, error, failed, happens⟩
  | _ =>
    refine iff_of_false (event.pure _ _) ?_
    rintro ⟨_, _, _, _, ⟨⟩, _⟩

/-- Rendering privately is rendering to an output of its own. -/
theorem renderPrivately_iff {program : Program} {context : Context σ} (known : Q run) :
    Happens ((Level.ofDepth setting depth).renderPrivately program context) run ↔
      Act.Has onError Happens (Level.ofDepth setting depth)
        (.opens ⟨program.source, false, context⟩ program.blocks) (run.withSink .unlimited) := by
  rw [Level.renderPrivately, Act.Has]
  cases depth with
  | zero =>
    rw [Level.descend_bind_zero, Level.descend_bind_zero, event.raise, event.raise]
  | succ depth =>
    rw [Level.descend_bind_succ, Level.descend_bind_succ]
    exact event.capture (event.closed.renderBlocks setting depth _ _) known

/-! ### Finding values -/

/-- A value is settled where it is found, and then leads on. -/
theorem settle_bind_iff {α : Type} {value : Value σ} {next : Value σ → Eval σ α}
    (next_known : ∀ settled, P (next settled)) (known : Q run) :
    Happens (Level.settle value >>= next) run ↔
      (∃ id compute host error, value = .computed id compute ∧
        compute run.host = .failure host error ∧ onError error) ∨
      ∃ settled between, Q between ∧ Level.settle value run = .ok settled between ∧
        Happens (next settled) between := by
  rw [event.bind (event.closed.settle value) next_known known, event.settle_iff known]
  refine or_congr Iff.rfl ⟨?_, ?_⟩
  · rintro ⟨settled, between, settles, happens⟩
    exact ⟨settled, between, event.kept (event.closed.settle value) known settles, settles, happens⟩
  · rintro ⟨settled, between, _, settles, happens⟩
    exact ⟨settled, between, settles, happens⟩

theorem drill_iff {owner : Context σ} {segments : List String} (known : Q run) :
    Happens ((Level.ofDepth setting depth).drill owner segments) run ↔
      ∃ act moment, (Level.ofDepth setting depth).Drills owner segments run act moment ∧
        act.Has onError Happens (Level.ofDepth setting depth) moment := by
  induction segments generalizing owner run with
  | nil =>
    refine iff_of_false (event.pure _ _) ?_
    rintro ⟨_, _, drills, _⟩
    cases drills
  | cons segment segments ih =>
    have goesOn := event.closed.drill setting depth
    have standIn {program : Program} :
        P ((Level.ofDepth setting depth).renderPrivately program owner) :=
      event.closed.renderPrivately setting depth program owner
    constructor
    · intro happens
      rcases (Level.ofDepth setting depth).present_or_standsIn_or_alone owner.current segment with
        ⟨value, present⟩ | ⟨program, standsIn⟩ | ⟨absent, alone⟩
      · rw [Level.drill_of_present present,
          event.settle_bind_iff (fun _ => goesOn _ _) known] at happens
        rcases happens with ⟨id, compute, host, error, rfl, failed, happens⟩ |
          ⟨settled, between, left, settles, happens⟩
        · exact ⟨_, run, .call segments present failed, happens⟩
        · obtain ⟨act, moment, drills, happens⟩ := (ih left).mp happens
          exact ⟨act, moment, .further (.member present settles (.arrive _ _)) drills, happens⟩
      · rw [Level.drill_of_standsIn standsIn,
          event.bind standIn (fun _ => goesOn _ _) known] at happens
        rcases happens with happens | ⟨text, between, rendered, happens⟩
        · exact ⟨_, _, .standIn segments run standsIn,
            (event.renderPrivately_iff known).mp happens⟩
        · obtain ⟨act, moment, drills, happens⟩ :=
            (ih (event.kept standIn known rendered)).mp happens
          exact ⟨act, moment, .further (.standIn standsIn rendered (.arrive _ _)) drills, happens⟩
      · rw [Level.drill_of_alone absent alone] at happens
        exact absurd happens (event.pure _ _)
    · rintro ⟨act, moment, drills, happens⟩
      cases drills with
      | call _ present failed =>
        rw [Level.drill_of_present present, event.settle_bind_iff (fun _ => goesOn _ _) known]
        exact .inl ⟨_, _, _, _, rfl, failed, happens⟩
      | standIn _ _ standsIn =>
        rw [Level.drill_of_standsIn standsIn, event.bind standIn (fun _ => goesOn _ _) known]
        exact .inl ((event.renderPrivately_iff known).mpr happens)
      | @further _ _ _ value _ _ run' _ leads drills =>
        have left : Q run' := event.kept (goesOn _ _) known (Level.leads_iff.mp leads)
        rw [← List.singleton_append, Level.drill_append, event.bind (goesOn _ _) ?_ known]
        · exact .inr ⟨some value, run', Level.leads_iff.mp leads,
            (ih left).mpr ⟨act, moment, drills, happens⟩⟩
        · intro found
          cases found with
          | none => exact event.closed.pure none
          | some value => exact goesOn _ _

theorem drillData_iff {root : Value σ} {segments : List String} (known : Q run) :
    Happens ((Level.ofDepth setting depth).drillData root segments) run ↔
      ∃ act moment, (Level.ofDepth setting depth).DrillsData root segments run act moment ∧
        act.Has onError Happens (Level.ofDepth setting depth) moment := by
  cases segments with
  | nil =>
    refine iff_of_false (event.pure _ _) ?_
    rintro ⟨_, _, drills, _⟩
    cases drills
  | cons segment segments =>
    have goesOn := event.closed.drill setting depth
    rw [Level.drillData]
    constructor
    · intro happens
      cases present : (Level.ofDepth setting depth).setting.data.find? segment with
      | none =>
        rw [present] at happens
        exact absurd happens (event.pure _ _)
      | some value =>
        rw [present] at happens
        rcases (event.settle_bind_iff (fun _ => goesOn _ _) known).mp happens with
          ⟨id, compute, host, error, rfl, failed, happens⟩ |
          ⟨settled, between, left, settles, happens⟩
        · exact ⟨_, run, .call segments present failed, happens⟩
        · obtain ⟨act, moment, drills, happens⟩ := (event.drill_iff left).mp happens
          exact ⟨act, moment, .further present settles drills, happens⟩
    · rintro ⟨act, moment, drills, happens⟩
      cases drills with
      | call _ present failed =>
        rw [present]
        refine (event.settle_bind_iff (fun _ => goesOn _ _) known).mpr (.inl ?_)
        exact ⟨_, _, _, _, rfl, failed, happens⟩
      | further present settles drills =>
        have left := event.kept (event.closed.settle _) known settles
        rw [present]
        refine (event.settle_bind_iff (fun _ => goesOn _ _) known).mpr (.inr ?_)
        exact ⟨_, _, left, settles, (event.drill_iff left).mpr ⟨act, moment, drills, happens⟩⟩

/-- The ancestor is looked up where it is not the root. -/
theorem ancestor_iff {context : Context σ} {text : String} (known : Q run) :
    Happens ((Level.ofDepth setting depth).ancestor context text) run ↔
      (Name.ofText text).climbs < (segmentsOf context.path).length ∧
        Happens ((Level.ofDepth setting depth).resolve (.atRoot context.root)
          (Path.ancestor context.path (Name.ofText text).climbs)) run := by
  rw [Level.ancestor]
  by_cases all : (segmentsOf context.path).length ≤ (Name.ofText text).climbs
  · simp only [all, if_true]
    refine iff_of_false ?_ fun reached => Nat.not_lt.mpr all reached.1
    rw [event.bind (event.closed.noteClimb text context.path) (fun _ => event.closed.pure _) known]
    rintro (happens | ⟨_, _, _, happens⟩)
    · exact event.not_happens_noteClimb text context.path happens
    · exact event.pure _ _ happens
  · have below := Nat.not_le.mp all
    have silent : noteClimb text context.path = (Pure.pure () : Eval σ Unit) :=
      if_neg (Nat.lt_asymm below)
    rw [silent, pure_bind]
    simp only [all, if_false]
    rw [event.bind (event.closed.resolve setting depth _ _) (fun _ => event.closed.pure _) known,
      or_iff_left]
    · exact (and_iff_right below).symm
    · rintro ⟨_, _, _, happens⟩
      exact event.pure _ _ happens

theorem resolve_iff_of_stays {context : Context σ} {text : String} (known : Q run)
    (stays : (Name.ofText text).climbs = 0) :
    Happens ((Level.ofDepth setting depth).resolve context text) run ↔
      ∃ act moment, (Level.ofDepth setting depth).Resolves context text run act moment ∧
        act.Has onError Happens (Level.ofDepth setting depth) moment := by
  have drills_known := event.closed.drill setting depth
  rw [Level.resolve_of_stays stays]
  refine (event.bind (drills_known _ _) ?_ known).trans ?_
  · intro found
    cases found with
    | some value => exact event.closed.pure _
    | none => exact event.closed.drillData setting depth _ _
  constructor
  · rintro (happens | ⟨found, between, drilled, happens⟩)
    · obtain ⟨act, moment, drills, happens⟩ := (event.drill_iff known).mp happens
      exact ⟨act, moment, .drill stays drills, happens⟩
    · cases found with
      | some value => exact absurd happens (event.pure _ _)
      | none =>
        have left := event.kept (drills_known _ _) known drilled
        obtain ⟨act, moment, drills, happens⟩ := (event.drillData_iff left).mp happens
        exact ⟨act, moment, .data stays (Level.leads_iff.mpr drilled) drills, happens⟩
  · rintro ⟨act, moment, resolves, happens⟩
    cases resolves with
    | drill _ drills => exact .inl ((event.drill_iff known).mpr ⟨act, moment, drills, happens⟩)
    | data _ nowhere drills =>
      have drilled := Level.leads_iff.mp nowhere
      have left := event.kept (drills_known _ _) known drilled
      exact .inr ⟨none, _, drilled, (event.drillData_iff left).mpr ⟨act, moment, drills, happens⟩⟩
    | path climbs | ancestor climbs => exact absurd stays climbs

/-- An event happens in looking up a name if it does in an act that this comes to, where the same is
known of the path of its ancestor. -/
theorem resolve_iff_of_path {context : Context σ} {text : String} (known : Q run)
    (path : (Name.ofText text).climbs ≠ 0 →
      (Name.ofText text).climbs < (segmentsOf context.path).length →
      (Happens ((Level.ofDepth setting depth).resolve (.atRoot context.root)
          (Path.ancestor context.path (Name.ofText text).climbs)) run ↔
        ∃ act moment, (Level.ofDepth setting depth).Resolves (.atRoot context.root)
          (Path.ancestor context.path (Name.ofText text).climbs) run act moment ∧
            act.Has onError Happens (Level.ofDepth setting depth) moment)) :
    Happens ((Level.ofDepth setting depth).resolve context text) run ↔
      ∃ act moment, (Level.ofDepth setting depth).Resolves context text run act moment ∧
        act.Has onError Happens (Level.ofDepth setting depth) moment := by
  by_cases stays : (Name.ofText text).climbs = 0
  · exact event.resolve_iff_of_stays known stays
  have ancestor_known := event.closed.ancestor setting depth context text
  rw [Level.resolve_of_climbs stays]
  refine (event.bind ancestor_known ?_ known).trans ?_
  · intro found
    cases found with
    | none => exact event.closed.pure _
    | some ancestor => exact event.closed.drill setting depth _ _
  rw [event.ancestor_iff known]
  constructor
  · rintro (⟨below, happens⟩ | ⟨found, between, reached, happens⟩)
    · obtain ⟨act, moment, resolves, happens⟩ := (path stays below).mp happens
      exact ⟨act, moment, .path stays below resolves, happens⟩
    · cases found with
      | none => exact absurd happens (event.pure _ _)
      | some ancestor =>
        have left := event.kept ancestor_known known reached
        obtain ⟨act, moment, drills, happens⟩ := (event.drill_iff left).mp happens
        exact ⟨act, moment, .ancestor stays reached drills, happens⟩
  · rintro ⟨act, moment, resolves, happens⟩
    cases resolves with
    | drill climbs | data climbs => exact absurd climbs stays
    | path _ below resolves =>
      exact .inl ⟨below, (path stays below).mpr ⟨act, moment, resolves, happens⟩⟩
    | ancestor _ reached drills =>
      have left := event.kept ancestor_known known reached
      exact .inr ⟨_, _, reached, (event.drill_iff left).mpr ⟨act, moment, drills, happens⟩⟩

/-- An event happens in looking up a name if it does in an act that this comes to. The path of an
ancestor is read at the root, and whoever climbs there is at the root. -/
theorem resolve_iff {context : Context σ} {text : String} (known : Q run) :
    Happens ((Level.ofDepth setting depth).resolve context text) run ↔
      ∃ act moment, (Level.ofDepth setting depth).Resolves context text run act moment ∧
        act.Has onError Happens (Level.ofDepth setting depth) moment := by
  refine event.resolve_iff_of_path known fun _ _ =>
    event.resolve_iff_of_path known fun climbs below => ?_
  rw [Context.height_atRoot] at below
  exact absurd (Nat.lt_one_iff.mp below) climbs

/-! ### Directives -/

/-- The template of a text is looked up one level further down. -/
theorem fragment_iff {α : Type} {text : String} {next : Body σ → Program → Eval σ α}
    (next_known : ∀ depth program, P (next (renderBlocks setting depth) program)) (known : Q run) :
    Happens (do
        let body ← (Level.ofDepth setting depth).descend
        let program ← Eval.fragment text
        next body program) run ↔
      ((Level.ofDepth setting depth).below ≠ none ∧ onText text) ∨
        ∃ program moment, Eval.fragment text run = .ok program moment ∧
          Happens ((Level.ofDepth setting depth).descend >>= fun body => next body program)
            moment := by
  obtain ⟨program, moment, compiled⟩ := exists_fragment_eq_ok text run
  have only {A : Program → Run σ → Prop} :
      (∃ program moment, Eval.fragment text run = .ok program moment ∧ A program moment) ↔
        A program moment := by
    constructor
    · rintro ⟨_, _, again, holds⟩
      cases compiled.symm.trans again
      exact holds
    · exact fun holds => ⟨program, moment, compiled, holds⟩
  rw [only]
  cases depth with
  | zero =>
    rw [Level.descend_bind_zero, Level.descend_bind_zero, event.raise, event.raise, or_iff_right]
    exact fun ⟨below, _⟩ => below rfl
  | succ depth =>
    rw [Level.descend_bind_succ, Level.descend_bind_succ,
      event.bind (event.closed.fragment text) (next_known depth) known, event.fragment text known,
      only, and_iff_right]
    exact nofun

theorem write_iff {place : Place σ} {p : Placeholder} {value : Value σ} (known : Q run) :
    Happens ((Level.ofDepth setting depth).write place p value) run ↔
      (p.recursive && hasTag (p.textOf value).toList) = true ∧
        (((Level.ofDepth setting depth).below ≠ none ∧ onText (p.textOf value)) ∨
          ∃ program moment, Eval.fragment (p.textOf value) run = .ok program moment ∧
            Act.Has onError Happens (Level.ofDepth setting depth)
              (.opens { place with source := program.source } program.blocks) moment) := by
  unfold Level.write
  split
  · next tagged =>
    rw [and_iff_right tagged]
    exact event.fragment_iff (fun _ _ => event.closed.renderBlocks setting _ _ _) known
  · next plain =>
    exact iff_of_false (event.emit _ _ known) fun ⟨tagged, _⟩ => plain tagged

theorem holds_iff {context : Context σ} {recursive : Bool} {value : Value σ} (known : Q run) :
    Happens ((Level.ofDepth setting depth).holds context recursive value) run ↔
      recursive = true ∧ ∃ text, value = .text text ∧ isTagged text.toList = true ∧
        (((Level.ofDepth setting depth).below ≠ none ∧ onText text) ∨
          ∃ program moment, Eval.fragment text run = .ok program moment ∧
            Act.Has onError Happens (Level.ofDepth setting depth)
              (.opens ⟨program.source, false, context⟩ program.blocks)
              (moment.withSink .unlimited)) := by
  unfold Level.holds
  split
  · next text =>
    split
    · next tagged =>
      obtain ⟨rfl, tagged⟩ := Bool.and_eq_true_iff.mp tagged
      have rendered_known (depth : Nat) (program : Program) :
          P (Eval.capture (renderBlocks setting depth ⟨program.source, false, context⟩
            program.blocks)) := event.closed.capture (event.closed.renderBlocks setting depth _ _)
      refine (event.fragment_iff (fun depth program => event.closed.bind (rendered_known depth
        program) fun _ => event.closed.pure _) known).trans ?_
      have tested {program : Program} {moment : Run σ}
          (compiled : Eval.fragment text run = .ok program moment) :
          Happens ((Level.ofDepth setting depth).descend >>= fun body =>
              Eval.capture (body ⟨program.source, false, context⟩ program.blocks) >>=
                fun rendered => Pure.pure (rendered != "")) moment ↔
            Act.Has onError Happens (Level.ofDepth setting depth)
              (.opens ⟨program.source, false, context⟩ program.blocks)
              (moment.withSink .unlimited) := by
        have left := event.kept (event.closed.fragment text) known compiled
        rw [← event.renderPrivately_iff left, ← event.map_iff (· != "")
          (event.closed.renderPrivately setting depth program context) left,
          Level.renderPrivately, map_eq_pure_bind, bind_assoc]
      constructor
      · intro happens
        refine ⟨rfl, text, rfl, tagged, happens.imp_right ?_⟩
        rintro ⟨program, moment, compiled, happens⟩
        exact ⟨program, moment, compiled, (tested compiled).mp happens⟩
      · rintro ⟨_, _, ⟨⟩, _, happens⟩
        refine happens.imp_right ?_
        rintro ⟨program, moment, compiled, happens⟩
        exact ⟨program, moment, compiled, (tested compiled).mpr happens⟩
    · next plain =>
      refine iff_of_false (event.pure _ _) ?_
      rintro ⟨rfl, _, ⟨⟩, tagged, _⟩
      exact plain tagged
  · next other =>
    refine iff_of_false (event.pure _ _) ?_
    rintro ⟨_, text, same, _⟩
    exact other text same

variable {place : Place σ}

theorem placeholder_iff {p : Placeholder} (known : Q run) :
    Happens ((Level.ofDepth setting depth).placeholder place p) run ↔
      (Level.ofDepth setting depth).Includes onError onText Happens place (.placeholder p) run := by
  have resolve_known := event.closed.resolve setting depth place.context p.name
  rw [Level.placeholder_eq]
  refine (event.bind resolve_known ?_ known).trans ?_
  · intro found
    cases found with
    | none =>
      dsimp only
      split
      · exact event.closed.emit _ _
      · exact event.closed.pure _
    | some value =>
      dsimp only
      split
      · exact event.closed.pure _
      · exact event.closed.write setting depth place p value
  rw [event.resolve_iff known]
  constructor
  · rintro (⟨act, moment, resolves, happens⟩ | ⟨found, between, resolved, happens⟩)
    · exact .inl ⟨act, moment, .lookup rfl resolves, happens⟩
    · have left := event.kept resolve_known known resolved
      cases found with
      | none =>
        dsimp only at happens
        split at happens
        · exact absurd happens (event.emit _ _ left)
        · exact absurd happens (event.pure _ _)
      | some value =>
        dsimp only at happens
        split at happens
        · exact absurd happens (event.pure _ _)
        · next present =>
          have present := Bool.eq_false_iff.mpr present
          obtain ⟨tagged, ⟨below, asked⟩ | ⟨program, moment, compiled, happens⟩⟩ :=
            (event.write_iff left).mp happens
          · exact .inr ⟨below, _, .fragment resolved present tagged, asked⟩
          · exact .inl ⟨_, moment, .fragment resolved present tagged compiled, happens⟩
  · rintro (⟨act, moment, begins, happens⟩ | ⟨below, text, asks, asked⟩)
    · cases begins with
      | lookup named resolves =>
        cases named
        exact .inl ⟨act, moment, resolves, happens⟩
      | fragment resolved present tagged compiled =>
        refine .inr ⟨_, _, resolved, ?_⟩
        dsimp only
        rw [present, if_neg Bool.false_ne_true]
        have left := event.kept resolve_known known resolved
        exact (event.write_iff left).mpr ⟨tagged, .inr ⟨_, _, compiled, happens⟩⟩
    · cases asks with
      | fragment resolved present tagged =>
        refine .inr ⟨_, _, resolved, ?_⟩
        dsimp only
        rw [present, if_neg Bool.false_ne_true]
        have left := event.kept resolve_known known resolved
        exact (event.write_iff left).mpr ⟨tagged, .inl ⟨below, asked⟩⟩

theorem branch_iff {blocks : List Block} :
    Happens ((Level.ofDepth setting depth).branch place blocks) run ↔
      blocks ≠ [] ∧ Act.Has onError Happens (Level.ofDepth setting depth) (.opens place blocks)
        run := by
  cases blocks with
  | nil => exact iff_of_false (event.pure _ _) fun ⟨nonempty, _⟩ => nonempty rfl
  | cons block rest => exact (and_iff_right (List.cons_ne_nil block rest)).symm

theorem decision_iff {context : Context σ} {name : String} {recursive : Bool} (known : Q run) :
    Happens ((Level.ofDepth setting depth).decision context name recursive) run ↔
      Happens ((Level.ofDepth setting depth).resolve context name) run ∨
        ∃ value between, (Level.ofDepth setting depth).resolve context name run =
          .ok (some value) between ∧
            Happens ((Level.ofDepth setting depth).holds context recursive value) between := by
  have resolve_known := event.closed.resolve setting depth context name
  refine (event.bind resolve_known ?_ known).trans (or_congr Iff.rfl ?_)
  · intro found
    cases found with
    | none => exact event.closed.pure _
    | some value => exact event.closed.holds setting depth _ _ _
  constructor
  · rintro ⟨found, between, resolved, happens⟩
    cases found with
    | none => exact absurd happens (event.pure _ _)
    | some value => exact ⟨value, between, resolved, happens⟩
  · rintro ⟨value, between, resolved, happens⟩
    exact ⟨some value, between, resolved, happens⟩

theorem condition_iff {name : String} {recursive : Bool} {yes no : List Block} {span : Span}
    (known : Q run) :
    Happens ((Level.ofDepth setting depth).condition place name recursive yes no) run ↔
      (Level.ofDepth setting depth).Includes onError onText Happens place
        (.condition name recursive yes no span) run := by
  have resolve_known := event.closed.resolve setting depth place.context name
  have decision_known := event.closed.decision setting depth place.context name recursive
  rw [Level.condition_eq, event.bind decision_known (fun _ => event.closed.branch setting depth _ _)
    known, event.decision_iff known, event.resolve_iff known]
  constructor
  · rintro ((⟨act, moment, resolves, happens⟩ | ⟨value, between, resolved, happens⟩) |
      ⟨selected, moment, decided, happens⟩)
    · exact .inl ⟨act, moment, .lookup rfl resolves, happens⟩
    · have left := event.kept resolve_known known resolved
      obtain ⟨rfl, text, rfl, tagged, ⟨below, asked⟩ | ⟨program, moment, compiled, happens⟩⟩ :=
        (event.holds_iff left).mp happens
      · exact .inr ⟨below, text, .test resolved tagged, asked⟩
      · exact .inl ⟨_, _, .test resolved tagged compiled, happens⟩
    · obtain ⟨nonempty, happens⟩ := event.branch_iff.mp happens
      exact .inl ⟨_, moment, .branch decided nonempty, happens⟩
  · rintro (⟨act, moment, begins, happens⟩ | ⟨below, text, asks, asked⟩)
    · cases begins with
      | lookup named resolves =>
        cases named
        exact .inl (.inl ⟨act, moment, resolves, happens⟩)
      | test resolved tagged compiled =>
        have left := event.kept resolve_known known resolved
        exact .inl (.inr ⟨_, _, resolved, (event.holds_iff left).mpr
          ⟨rfl, _, rfl, tagged, .inr ⟨_, _, compiled, happens⟩⟩⟩)
      | branch decided nonempty =>
        exact .inr ⟨_, _, decided, event.branch_iff.mpr ⟨nonempty, happens⟩⟩
    · cases asks with
      | test resolved tagged =>
        have left := event.kept resolve_known known resolved
        exact .inl (.inr ⟨_, _, resolved, (event.holds_iff left).mpr
          ⟨rfl, _, rfl, tagged, .inl ⟨below, asked⟩⟩⟩)

theorem iteration_iff {name : String} {inner : List Block} {span : Span} (known : Q run) :
    Happens ((Level.ofDepth setting depth).iteration place name inner) run ↔
      (Level.ofDepth setting depth).Includes onError onText Happens place
        (.iteration name inner span) run := by
  have resolve_known := event.closed.resolve setting depth place.context name
  refine (event.bind resolve_known ?_ known).trans ?_
  · intro found
    cases found with
    | none => exact event.closed.pure _
    | some value =>
      dsimp only
      split
      · refine event.closed.descend setting depth fun depth => ?_
        exact event.closed.forEachMember
          (fun _ => event.closed.renderBlocks setting depth _ inner) value
      · exact event.closed.pure _
  rw [event.resolve_iff known]
  constructor
  · rintro (⟨act, moment, resolves, happens⟩ | ⟨found, between, resolved, happens⟩)
    · exact .inl ⟨act, moment, .lookup rfl resolves, happens⟩
    · cases found with
      | none => exact absurd happens (event.pure _ _)
      | some value =>
        dsimp only at happens
        split at happens
        · next opened =>
          obtain ⟨truthy, full⟩ := Bool.and_eq_true_iff.mp opened
          have nonempty : inner ≠ [] := by
            rintro rfl
            cases full
          exact .inl ⟨_, between, .body resolved truthy nonempty, happens⟩
        · exact absurd happens (event.pure _ _)
  · rintro (⟨act, moment, begins, happens⟩ | ⟨below, text, asks, asked⟩)
    · cases begins with
      | lookup named resolves =>
        cases named
        exact .inl ⟨act, moment, resolves, happens⟩
      | @body _ _ _ value _ _ resolved truthy nonempty =>
        have opened : (value.truthy && !inner.isEmpty) = true := by
          simp [truthy, nonempty]
        refine .inr ⟨_, _, resolved, ?_⟩
        dsimp only
        rw [if_pos opened]
        exact happens
    · cases asks

/-- An event happens in a directive if it does in an act that the directive comes to, or with a text
whose template it looks up. Nothing happens in a text. -/
theorem directive_iff {block : Block} (known : Q run) :
    Happens ((Level.ofDepth setting depth).directive place block) run ↔
      (Level.ofDepth setting depth).Includes onError onText Happens place block run := by
  cases block with
  | text content span =>
    refine iff_of_false (event.emit _ _ known) ?_
    rintro (⟨_, _, begins, _⟩ | ⟨_, _, asks, _⟩)
    · cases begins with
      | lookup named resolves => cases named
    · cases asks
  | placeholder p => exact event.placeholder_iff known
  | condition name recursive yes no span => exact event.condition_iff known
  | iteration name inner span => exact event.iteration_iff known

/-! ### Blocks -/

/-- At the limit an event happens in an act where the host fails, or where it needs another level. -/
theorem has_zero_iff {act : Act σ} :
    act.Has onError Happens (Level.ofDepth setting 0) run ↔
      (∃ error, act = .fails error ∧ onError error) ∨
        act.goesDown = true ∧ onError (.ofCause (.maxDepth setting.maxDepth)) := by
  cases act with
  | fails error => simp [Act.Has, Act.goesDown]
  | opens place blocks =>
    rw [Act.Has, Level.descend_bind_zero, event.raise]
    simp [Act.goesDown]
  | iterates value placed blocks =>
    rw [Act.Has, Level.descend_bind_zero, event.raise]
    simp [Act.goesDown]

/-- Above the limit, an event happens in an act where the host fails, or in the blocks that it comes
to. -/
theorem has_succ_iff {act : Act σ} (known : Q run) :
    act.Has onError Happens (Level.ofDepth setting (depth + 1)) run ↔
      (∃ error, act = .fails error ∧ onError error) ∨
      (∃ inner blocks moment, act.Opens (renderBlocks setting depth) run inner blocks moment ∧
        Happens (renderBlocks setting depth inner blocks) moment) ∨
      ∃ id kind pull placed blocks error, act = .iterates (.collection id kind pull) placed blocks ∧
        PullFails (fun item => renderBlocks setting depth (placed item) blocks)
          (pull run.host) run error ∧ onError error := by
  cases act with
  | fails failed =>
    constructor
    · exact fun happens => .inl ⟨failed, rfl, happens⟩
    · rintro (⟨_, ⟨⟩, happens⟩ | ⟨_, _, _, opens, _⟩ | ⟨_, _, _, _, _, _, same, _⟩)
      · exact happens
      · cases opens
      · cases same
  | opens place blocks =>
    rw [Act.Has, Level.descend_bind_succ]
    constructor
    · exact fun happens => .inr (.inl ⟨place, blocks, run, .blocks place blocks run, happens⟩)
    · rintro (⟨_, same, _⟩ | ⟨_, _, _, opens, happens⟩ | ⟨_, _, _, _, _, _, same, _⟩)
      · cases same
      · cases opens
        exact happens
      · cases same
  | iterates value placed blocks =>
    rw [Act.Has, Level.descend_bind_succ, event.forEachMember_iff
      (fun item => event.closed.renderBlocks setting depth (placed item) blocks) known]
    constructor
    · rintro (⟨item, moment, met, happens⟩ | ⟨id, kind, pull, error, rfl, fails, happens⟩)
      · exact .inr (.inl ⟨placed item, blocks, moment, .member met, happens⟩)
      · exact .inr (.inr ⟨id, kind, pull, placed, blocks, error, rfl, fails, happens⟩)
    · rintro (⟨_, same, _⟩ | ⟨_, _, _, opens, happens⟩ |
        ⟨id, kind, pull, _, _, error, same, fails, happens⟩)
      · cases same
      · cases opens with
        | member met => exact .inl ⟨_, _, met, happens⟩
      · cases same
        exact .inr ⟨id, kind, pull, error, rfl, fails, happens⟩

theorem not_happens_renderBlocks_nil :
    ¬ Happens (renderBlocks setting depth place []) run := by
  rw [renderBlocks_eq]
  exact event.pure _ _

/-- An event happens in the first of some blocks, or in those behind it. -/
theorem renderBlocks_cons_iff {block : Block} {rest : List Block} (known : Q run) :
    Happens (renderBlocks setting depth place (block :: rest)) run ↔
      Happens ((Level.ofDepth setting depth).block place block) run ∨
      ∃ between, (Level.ofDepth setting depth).block place block run = .ok () between ∧
        Happens (renderBlocks setting depth place rest) between := by
  have block_known := event.closed.block setting depth place block
  have rest_known := event.closed.renderBlocks setting depth place rest
  rw [renderBlocks_eq] at rest_known ⊢
  rw [renderBlocks_eq, Eval.forM_cons, event.bind block_known (fun _ => rest_known) known]
  exact or_congr Iff.rfl ⟨fun ⟨_, between, later⟩ => ⟨between, later⟩,
    fun ⟨between, later⟩ => ⟨(), between, later⟩⟩

end Eval.Event

end Stencil
