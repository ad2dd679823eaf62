import Stencil.Proofs.Render.Act
import Stencil.Proofs.Render.Raise

/-!
# Where a render fails

A render fails because the host does, or because a level is to be opened at the limit. At this
moment some directives are being evaluated inside each other: a directive of the template, one of
the branch that it selected, one of the template that stands in for a member of what that one names,
and so on. They are the trail of the failure. Each one points the error to itself, from the
innermost one outwards.

1. `FailsAt`: a render fails with a trail.
2. `renderBlocks_raises_iff`: the errors of a render are its failures, pointed along their trails.
-/

namespace Stencil

variable {σ : Type}

/-- What goes wrong in a render. -/
inductive Mishap where
  /-- The host fails. -/
  | host (error : Error)
  /-- A level is to be opened at the limit. -/
  | limit
  deriving DecidableEq, Repr

/-- The error as it arises, where so many levels may be open. -/
def Mishap.error (limit : Nat) : Mishap → Error
  | .host error => error
  | .limit => .ofCause (.maxDepth limit)

def Error.locateAll (error : Error) (trail : List Location) : Error :=
  trail.foldl (fun error location => error.locate location.source location.span) error

/-- Rendering blocks, with so many further levels, fails. The trail holds the directives that are
being evaluated at this moment, innermost first, each with the source that it belongs to. -/
inductive FailsAt (setting : Setting σ) :
    Nat → Place σ → List Block → Run σ → Mishap → List Location → Prop where
  /-- The host fails where a directive asks for a value. -/
  | host {depth : Nat} {place : Place σ} {block : Block} {rest : List Block} {run moment : Run σ}
      {error : Error}
      (begins : (Level.ofDepth setting depth).Begins place block run (.fails error) moment) :
      FailsAt setting depth place (block :: rest) run (.host error) [⟨place.source, block.span⟩]
  /-- The host fails where an iteration asks for the next member. -/
  | pull {depth : Nat} {place : Place σ} {block : Block} {rest blocks : List Block}
      {run moment : Run σ} {error : Error} {id : Nat} {kind : CollectionKind} {pull : σ → Pull σ}
      {placed : Value σ → Place σ}
      (begins : (Level.ofDepth setting (depth + 1)).Begins place block run
        (.iterates (.collection id kind pull) placed blocks) moment)
      (fails : Eval.PullFails (fun item => renderBlocks setting depth (placed item) blocks)
        (pull moment.host) moment error) :
      FailsAt setting (depth + 1) place (block :: rest) run (.host error)
        [⟨place.source, block.span⟩]
  /-- A directive needs another level at the limit. -/
  | limit {place : Place σ} {block : Block} {rest : List Block} {act : Act σ} {run moment : Run σ}
      (begins : (Level.ofDepth setting 0).Begins place block run act moment)
      (goesDown : act.goesDown = true) :
      FailsAt setting 0 place (block :: rest) run .limit [⟨place.source, block.span⟩]
  /-- The blocks fail that a directive renders one level further down. -/
  | inside {depth : Nat} {place inner : Place σ} {block : Block} {rest blocks : List Block}
      {act : Act σ} {run moment between : Run σ} {mishap : Mishap} {trail : List Location}
      (begins : (Level.ofDepth setting (depth + 1)).Begins place block run act moment)
      (opens : act.Opens (renderBlocks setting depth) moment inner blocks between)
      (fails : FailsAt setting depth inner blocks between mishap trail) :
      FailsAt setting (depth + 1) place (block :: rest) run mishap
        (trail ++ [⟨place.source, block.span⟩])
  /-- What is behind a block fails once the block is rendered. -/
  | later {depth : Nat} {place : Place σ} {block : Block} {rest : List Block}
      {run between : Run σ} {mishap : Mishap} {trail : List Location}
      (done : (Level.ofDepth setting depth).block place block run = .ok () between)
      (fails : FailsAt setting depth place rest between mishap trail) :
      FailsAt setting depth place (block :: rest) run mishap trail

variable {setting : Setting σ} {depth : Nat} {place : Place σ} {run : Run σ} {error : Error}

def Act.Raises (level : Level σ) (act : Act σ) (run : Run σ) (error : Error) : Prop :=
  act.Has (error = ·) (fun step run => Eval.Raises step run error) level run

theorem Error.locateAll_append (error : Error) (trail : List Location) (location : Location) :
    error.locateAll (trail ++ [location]) =
      (error.locateAll trail).locate location.source location.span := by
  rw [locateAll, List.foldl_append]
  rfl

/-- A directive raises what the acts raise that it comes to, pointed to it. -/
theorem Level.raises_block_iff {block : Block} (unlimited : run.sink.room = none) :
    Eval.Raises ((ofDepth setting depth).block place block) run error ↔
      ∃ act moment arisen, (ofDepth setting depth).Begins place block run act moment ∧
        act.Raises (ofDepth setting depth) moment arisen ∧
        error = arisen.locate place.source block.span := by
  have raises (arisen : Error) :
      Eval.Raises ((ofDepth setting depth).directive place block) run arisen ↔
        ∃ act moment, (ofDepth setting depth).Begins place block run act moment ∧
          act.Raises (ofDepth setting depth) moment arisen := by
    refine ((Eval.raises_event arisen).directive_iff unlimited).trans (or_iff_left ?_)
    exact fun ⟨_, _, _, never⟩ => never
  cases block with
  | text content span =>
    refine iff_of_false (Eval.not_raises_emit _ _ unlimited) ?_
    rintro ⟨act, moment, _, begins, _⟩
    cases begins with
    | lookup named resolves => cases named
  | placeholder | condition | iteration =>
    refine (Eval.raises_locate_iff _ _).trans ?_
    constructor
    · rintro ⟨arisen, raised, same⟩
      obtain ⟨act, moment, begins, raised⟩ := (raises arisen).mp raised
      exact ⟨act, moment, arisen, begins, raised, same⟩
    · rintro ⟨act, moment, arisen, begins, raised, same⟩
      exact ⟨arisen, (raises arisen).mpr ⟨act, moment, begins, raised⟩, same⟩

/-- Blocks fail as the first one of them that fails. -/
theorem renderBlocks_cons_raises_iff {block : Block} {rest : List Block}
    (unlimited : run.sink.room = none) :
    Eval.Raises (renderBlocks setting depth place (block :: rest)) run error ↔
      (∃ act moment arisen, (Level.ofDepth setting depth).Begins place block run act moment ∧
        act.Raises (Level.ofDepth setting depth) moment arisen ∧
        error = arisen.locate place.source block.span) ∨
      ∃ between, (Level.ofDepth setting depth).block place block run = .ok () between ∧
        Eval.Raises (renderBlocks setting depth place rest) between error := by
  rw [(Eval.raises_event error).renderBlocks_cons_iff unlimited, Level.raises_block_iff unlimited]

/-- Where a directive comes to an act that fails, its blocks fail, if the blocks below do. -/
theorem exists_failsAt_of_begins
    (below : ∀ depth', depth = depth' + 1 → ∀ (inner : Place σ) (blocks : List Block)
      (run : Run σ) (error : Error), run.sink.room = none →
      Eval.Raises (renderBlocks setting depth' inner blocks) run error →
        ∃ mishap trail, FailsAt setting depth' inner blocks run mishap trail ∧
          error = (mishap.error setting.maxDepth).locateAll trail)
    {block : Block} (rest : List Block) {act : Act σ} {moment : Run σ} {arisen : Error}
    (unlimited : run.sink.room = none)
    (begins : (Level.ofDepth setting depth).Begins place block run act moment)
    (raised : act.Raises (Level.ofDepth setting depth) moment arisen) :
    ∃ mishap trail, FailsAt setting depth place (block :: rest) run mishap trail ∧
      arisen.locate place.source block.span =
        (mishap.error setting.maxDepth).locateAll trail := by
  have invariant := @Eval.keepsRoom_invariant σ
  cases depth with
  | zero =>
    rcases (Eval.raises_event arisen).has_zero_iff.mp raised with ⟨_, rfl, rfl⟩ | ⟨goesDown, rfl⟩
    · exact ⟨_, _, .host begins, rfl⟩
    · exact ⟨_, _, .limit begins goesDown, rfl⟩
  | succ depth =>
    have begun := invariant.of_begins begins unlimited
    rcases ((Eval.raises_event arisen).has_succ_iff begun).mp raised with
      ⟨_, rfl, rfl⟩ | ⟨inner, blocks, between, opens, raised⟩ |
      ⟨id, kind, pull, placed, blocks, _, rfl, fails, rfl⟩
    · exact ⟨_, _, .host begins, rfl⟩
    · obtain ⟨mishap, trail, fails, rfl⟩ :=
        below depth rfl inner blocks between arisen (invariant.of_opens opens begun) raised
      refine ⟨mishap, _, .inside begins opens fails, ?_⟩
      rw [Error.locateAll_append]
    · exact ⟨_, _, .pull begins fails, rfl⟩

/-- The errors of a render to an output that takes everything are those that arise where it fails,
each pointed to the directives that are being evaluated, from the innermost one outwards. The
induction is on the depth for what a directive opens, and on the blocks for those behind it. -/
theorem renderBlocks_raises_iff {blocks : List Block} (unlimited : run.sink.room = none) :
    Eval.Raises (renderBlocks setting depth place blocks) run error ↔
      ∃ mishap trail, FailsAt setting depth place blocks run mishap trail ∧
        error = (mishap.error setting.maxDepth).locateAll trail := by
  have invariant := @Eval.keepsRoom_invariant σ
  have event := @Eval.raises_event σ
  constructor
  · intro raised
    induction depth using Nat.strongRecOn generalizing place blocks run error with
    | ind depth ih =>
      induction blocks generalizing run with
      | nil => exact absurd raised (event error).not_happens_renderBlocks_nil
      | cons block rest later =>
        rcases (renderBlocks_cons_raises_iff unlimited).mp raised with
          ⟨act, moment, arisen, begins, acted, rfl⟩ | ⟨between, done, behind⟩
        · refine exists_failsAt_of_begins ?_ rest unlimited begins acted
          exact fun depth' deeper _ _ _ _ room raised => ih depth' (by omega) room raised
        · have left := invariant.kept (invariant.closed.block setting depth place block) unlimited
            done
          obtain ⟨mishap, trail, fails, same⟩ := later left behind
          exact ⟨mishap, trail, .later done fails, same⟩
  · rintro ⟨mishap, trail, fails, rfl⟩
    induction fails with
    | host begins =>
      exact (renderBlocks_cons_raises_iff unlimited).mpr (.inl ⟨_, _, _, begins, rfl, rfl⟩)
    | pull begins fails =>
      refine (renderBlocks_cons_raises_iff unlimited).mpr (.inl ⟨_, _, _, begins, ?_, rfl⟩)
      have begun := invariant.of_begins begins unlimited
      exact ((event _).has_succ_iff begun).mpr (.inr (.inr ⟨_, _, _, _, _, _, rfl, fails, rfl⟩))
    | limit begins goesDown =>
      refine (renderBlocks_cons_raises_iff unlimited).mpr
        (.inl ⟨_, _, Mishap.limit.error setting.maxDepth, begins, ?_, rfl⟩)
      exact (event _).has_zero_iff.mpr (.inr ⟨goesDown, rfl⟩)
    | inside begins opens fails ih =>
      rw [Error.locateAll_append]
      refine (renderBlocks_cons_raises_iff unlimited).mpr (.inl ⟨_, _, _, begins, ?_, rfl⟩)
      have begun := invariant.of_begins begins unlimited
      exact ((event _).has_succ_iff begun).mpr
        (.inr (.inl ⟨_, _, _, opens, ih (invariant.of_opens opens begun)⟩))
    | @later depth place block _ _ _ _ _ done fails ih =>
      have left := invariant.kept (invariant.closed.block setting depth place block) unlimited done
      exact (renderBlocks_cons_raises_iff unlimited).mpr (.inr ⟨_, done, ih left⟩)

end Stencil
