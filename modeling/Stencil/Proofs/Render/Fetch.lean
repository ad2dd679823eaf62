import Stencil.Proofs.Render.Act
import Stencil.Proofs.Render.Cache

/-!
# The fragments of a render

The texts whose templates a render looks up do not depend on what is cached. They are the texts of
the recursive placeholders and conditions that the render comes to, in all blocks that it renders,
also where it renders them to test a condition or to stand in for a member.

1. `Fetches`: rendering blocks comes to a directive that looks up the template of a text.
2. `Eval.LooksUp`: a step looks up the template of a text, told from what it notes with nothing
   cached.
3. `renderBlocks_looksUp_iff`: the texts that are looked up are those that a render comes to.
-/

namespace Stencil

variable {σ : Type}

/-- Rendering blocks, with so many further levels, looks up the template of a text. -/
inductive Fetches (setting : Setting σ) :
    Nat → Place σ → List Block → Run σ → String → Prop where
  /-- A recursive directive looks up the template of its text. -/
  | asks {depth : Nat} {place : Place σ} {block : Block} {rest : List Block} {run : Run σ}
      {text : String} (asks : (Level.ofDepth setting (depth + 1)).Asks place block run text) :
      Fetches setting (depth + 1) place (block :: rest) run text
  /-- The blocks look it up that a directive renders one level further down. -/
  | inside {depth : Nat} {place inner : Place σ} {block : Block} {rest blocks : List Block}
      {act : Act σ} {run moment between : Run σ} {text : String}
      (begins : (Level.ofDepth setting (depth + 1)).Begins place block run act moment)
      (opens : act.Opens (renderBlocks setting depth) moment inner blocks between)
      (fetches : Fetches setting depth inner blocks between text) :
      Fetches setting (depth + 1) place (block :: rest) run text
  /-- What is behind a block looks it up once the block is rendered. -/
  | later {depth : Nat} {place : Place σ} {block : Block} {rest : List Block}
      {run between : Run σ} {text : String}
      (done : (Level.ofDepth setting depth).block place block run = .ok () between)
      (fetches : Fetches setting depth place rest between text) :
      Fetches setting depth place (block :: rest) run text

/-! ## Looking up -/

namespace Run

def fresh (run : Run σ) : Run σ := { run with cache := .empty, notices := #[] }

theorem compiled_fresh (run : Run σ) : run.fresh.cache.Compiled :=
  fun _ _ found => by cases found

theorem Alike.fresh {run other : Run σ} (alike : run.Alike other) : run.fresh.Alike other :=
  ⟨alike.host, alike.sink, run.compiled_fresh, alike.other_compiled⟩

theorem Alike.symm {run other : Run σ} (alike : run.Alike other) : other.Alike run :=
  ⟨alike.host.symm, alike.sink.symm, alike.other_compiled, alike.compiled⟩

/-- With nothing cached before, the texts that were looked up are those that are noted. -/
theorem LookedUp.noted_fresh {run moment : Run σ} {texts : List String}
    (lookedUp : run.fresh.LookedUp texts moment) (text : String) :
    Notice.compilingFragment text ∈ moment.notices ↔ text ∈ texts := by
  have noted := lookedUp.noted text
  simpa [fresh] using noted

theorem LookedUp.find?_fresh {run moment : Run σ} {texts : List String}
    (lookedUp : run.fresh.LookedUp texts moment) (text : String) :
    moment.cache.find? text = none ↔ text ∉ texts := by
  have cached := lookedUp.cached text
  rw [cached]
  simp [fresh]

end Run

namespace Eval

variable {α β : Type} {step : Eval σ α} {run other : Run σ} {text : String}

/-- A step looks up the template of a text: with nothing cached, it is compiled. -/
def LooksUp (step : Eval σ α) (run : Run σ) (text : String) : Prop :=
  Notice.compilingFragment text ∈ (after step run.fresh).notices

/-- From runs that differ in the cache only, the same texts are looked up. -/
theorem Transparent.exists_texts (transparent : Transparent step) (alike : run.Alike other) :
    ∃ texts, (∀ text, LooksUp step run text ↔ text ∈ texts) ∧
      SameEnd texts run.fresh other (step run.fresh) (step other) := by
  obtain ⟨texts, same⟩ := transparent run.fresh other alike.fresh
  refine ⟨texts, fun text => ?_, same⟩
  unfold LooksUp after
  generalize step run.fresh = ended, step other = ended' at same
  cases same with
  | ok _ lookedUp => exact lookedUp.noted_fresh text
  | error _ lookedUp => exact lookedUp.noted_fresh text

theorem SameEnd.lookedUp_after {texts : List String} {step' : Eval σ α}
    (same : SameEnd texts run other (step run) (step' other)) :
    other.LookedUp texts (after step' other) := by
  unfold after
  generalize step run = ended, step' other = ended' at same
  cases same with
  | ok _ _ lookedUp => exact lookedUp
  | error _ _ lookedUp => exact lookedUp

/-- Of two steps, one looks up a text. The second step may depend on the result of the first one and
on the host. -/
theorem noted_of_ok {later : Eval σ β} (transparent : Transparent step)
    (later_transparent : Transparent later) (compiled : run.cache.Compiled) {result : α}
    {between final : Run σ} (ran : step run = .ok result between)
    (goesOn : ∀ moment, step run.fresh = .ok result moment → moment.host = between.host →
      final = after later moment) :
    Notice.compilingFragment text ∈ final.notices ↔
      LooksUp step run text ∨ LooksUp later between text := by
  obtain ⟨texts, looksUp, same⟩ := transparent.exists_texts (.refl compiled)
  generalize first : step run.fresh = ended at same
  rw [ran] at same
  cases same with
  | @ok _ moment _ alike lookedUp _ =>
    obtain ⟨more, looksUp', same'⟩ := later_transparent.exists_texts alike.symm
    rw [goesOn moment first alike.host, same'.lookedUp_after.noted, lookedUp.noted_fresh,
      lookedUp.find?_fresh, looksUp, looksUp']
    by_cases early : text ∈ texts <;> simp [early]

theorem noted_of_error (transparent : Transparent step) (compiled : run.cache.Compiled)
    {error : Error} {moment final : Run σ} (ran : step run = .error error moment)
    (stops : ∀ moment, step run.fresh = .error error moment → final = moment) :
    Notice.compilingFragment text ∈ final.notices ↔ LooksUp step run text := by
  obtain ⟨texts, looksUp, same⟩ := transparent.exists_texts (.refl compiled)
  generalize first : step run.fresh = ended at same
  rw [ran] at same
  cases same with
  | @error _ moment _ alike lookedUp _ =>
    rw [stops moment first, lookedUp.noted_fresh, looksUp]

theorem looksUp_bind_iff {next : α → Eval σ β} (transparent : Transparent step)
    (next_transparent : ∀ result, Transparent (next result)) (compiled : run.cache.Compiled) :
    LooksUp (step >>= next) run text ↔ LooksUp step run text ∨
      ∃ result between, step run = .ok result between ∧ LooksUp (next result) between text := by
  cases ran : step run with
  | ok result between =>
    refine (noted_of_ok transparent (next_transparent result) compiled ran
      fun moment first _ => after_bind_of_ok first next).trans (or_congr Iff.rfl ?_)
    exact ⟨fun later => ⟨result, between, rfl, later⟩, fun ⟨_, _, same, later⟩ => by
      cases same
      exact later⟩
  | error error moment =>
    refine (noted_of_error transparent compiled ran
      fun moment first => after_bind_of_error first next).trans (or_iff_left ?_).symm
    exact fun ⟨_, _, same, _⟩ => by cases same

theorem looksUp_member_iff {step : Value σ → Eval σ Unit}
    (transparent : ∀ item, Transparent (step item)) (host : σ) (item : Value σ)
    (next : σ → Pull σ) (compiled : run.cache.Compiled) :
    LooksUp (forEachPulled step (.member host item next)) run text ↔
      LooksUp (step item) { run with host } text ∨ ∃ between, step item { run with host } =
        .ok () between ∧ LooksUp (forEachPulled step (next between.host)) between text := by
  let handed : Run σ := { run with host }
  have handed_compiled : handed.cache.Compiled := compiled
  show Notice.compilingFragment text ∈
    (after (forEachPulled step (.member host item next)) run.fresh).notices ↔
      LooksUp (step item) handed text ∨ ∃ between, step item handed = .ok () between ∧ _
  have opened : after (forEachPulled step (.member host item next)) run.fresh =
      after (step item >>= fun _ => get >>= fun run => forEachPulled step (next run.host))
        handed.fresh := by
    rw [forEachPulled_member]
    rfl
  rw [opened]
  cases ran : step item handed with
  | ok result between =>
    refine (noted_of_ok (transparent item)
      (transparent_forEachPulled transparent (next between.host)) handed_compiled ran ?_).trans
        (or_congr Iff.rfl ?_)
    · intro moment first host
      rw [after_bind_of_ok first, ← host]
      rfl
    · exact ⟨fun later => ⟨between, rfl, later⟩, fun ⟨_, same, later⟩ => by
        cases same
        exact later⟩
  | error error moment =>
    refine (noted_of_error (transparent item) handed_compiled ran
      fun moment first => after_bind_of_error first _).trans (or_iff_left ?_).symm
    exact fun ⟨_, same, _⟩ => by cases same

theorem not_looksUp_of_notices (nothing : (after step run.fresh).notices = #[]) :
    ¬ LooksUp step run text := by
  rw [LooksUp, nothing]
  exact Array.not_mem_empty _

theorem compiled_invariant :
    Invariant (fun {α} (step : Eval σ α) => Transparent step) fun run => run.cache.Compiled where
  closed := transparent_closed
  kept := fun transparent compiled done => transparent.compiled_of_ok compiled done
  hosted := fun _ compiled => compiled
  unlimited := fun compiled => compiled

/-- To look up the template of a text is an event. -/
theorem looksUp_event (text : String) :
    Event (fun {α} (step : Eval σ α) => Transparent step) (fun run => run.cache.Compiled)
      (fun _ => False) (· = text) fun step run => LooksUp step run text where
  toInvariant := compiled_invariant
  pure := fun _ _ => not_looksUp_of_notices rfl
  emit := by
    refine fun {run} origin written _ => not_looksUp_of_notices ?_
    unfold after emit
    cases run.fresh.sink.put? ⟨origin, written⟩ <;> rfl
  note := by
    intro name path run
    unfold LooksUp after Eval.note
    simp [Run.fresh]
  raise := fun _ _ => iff_of_false (not_looksUp_of_notices rfl) not_false
  call := by
    refine fun compute run => iff_of_false (not_looksUp_of_notices ?_) ?_
    · unfold after Eval.call
      cases compute run.fresh.host <;> rfl
    · exact fun ⟨_, _, _, never⟩ => never
  fragment := by
    intro run asked _
    obtain ⟨moment, fetched, _, _, lookedUp⟩ := fragment_eq_ok asked run.compiled_fresh
    rw [LooksUp, after_of_ok fetched, lookedUp.noted_fresh, List.mem_singleton, eq_comm]
  bind := looksUp_bind_iff
  capture := by
    intro step run _ _
    unfold LooksUp
    rw [after_capture]
    rfl
  pulls := fun _ _ _ => Iff.rfl
  done := fun _ _ _ => not_looksUp_of_notices rfl
  failure := fun _ _ _ _ => iff_of_false (not_looksUp_of_notices rfl) not_false
  member := fun host item next each compiled => looksUp_member_iff each host item next compiled

end Eval

/-! ## Rendering -/

variable {setting : Setting σ} {depth : Nat} {place : Place σ} {run : Run σ} {text : String}

/-- To point the errors of a directive to it looks nothing up. -/
theorem Level.looksUp_block_iff {block : Block} (compiled : run.cache.Compiled) :
    Eval.LooksUp ((ofDepth setting depth).block place block) run text ↔
      (∃ act moment, (ofDepth setting depth).Begins place block run act moment ∧
        act.Has (fun _ => False) (fun step run => Eval.LooksUp step run text)
          (ofDepth setting depth) moment) ∨
      (ofDepth setting depth).below ≠ none ∧ (ofDepth setting depth).Asks place block run text := by
  have located : Eval.LooksUp ((ofDepth setting depth).block place block) run text ↔
      Eval.LooksUp ((ofDepth setting depth).directive place block) run text := by
    cases block with
    | text => exact Iff.rfl
    | placeholder | condition | iteration =>
      unfold Eval.LooksUp block
      rw [Eval.after_locate]
      rfl
  rw [located, (Eval.looksUp_event text).directive_iff compiled, Includes]
  simp

/-- A render looks up the templates of those texts that it comes to. The induction is on the depth
for what a directive opens, and on the blocks for those behind it. -/
theorem renderBlocks_looksUp_iff {blocks : List Block} (compiled : run.cache.Compiled) :
    Eval.LooksUp (renderBlocks setting depth place blocks) run text ↔
      Fetches setting depth place blocks run text := by
  have event := @Eval.looksUp_event σ
  have invariant := @Eval.compiled_invariant σ
  constructor
  · intro looksUp
    induction depth using Nat.strongRecOn generalizing place blocks run with
    | ind depth ih =>
      induction blocks generalizing run with
      | nil => exact absurd looksUp (event text).not_happens_renderBlocks_nil
      | cons block rest later =>
        rcases ((event text).renderBlocks_cons_iff compiled).mp looksUp with
          here | ⟨between, done, behind⟩
        · cases depth with
          | zero =>
            rcases (Level.looksUp_block_iff compiled).mp here with
              ⟨act, moment, begins, acted⟩ | ⟨below, _⟩
            · rcases (event text).has_zero_iff.mp acted with ⟨_, _, never⟩ | ⟨_, never⟩
              · exact never.elim
              · exact never.elim
            · exact absurd rfl below
          | succ depth =>
            rcases (Level.looksUp_block_iff compiled).mp here with
              ⟨act, moment, begins, acted⟩ | ⟨_, asks⟩
            · have begun := invariant.of_begins begins compiled
              rcases ((event text).has_succ_iff begun).mp acted with
                ⟨_, _, never⟩ | ⟨inner, blocks, between, opens, inside⟩ |
                ⟨_, _, _, _, _, _, _, _, never⟩
              · exact never.elim
              · exact .inside begins opens
                  (ih depth (Nat.lt_succ_self depth) (invariant.of_opens opens begun) inside)
              · exact never.elim
            · exact .asks asks
        · have left := invariant.kept (invariant.closed.block setting depth place block) compiled
            done
          exact .later done (later left behind)
  · intro fetches
    induction fetches with
    | asks asks =>
      refine ((event _).renderBlocks_cons_iff compiled).mpr (.inl ?_)
      exact (Level.looksUp_block_iff compiled).mpr (.inr ⟨nofun, asks⟩)
    | inside begins opens fetches ih =>
      refine ((event _).renderBlocks_cons_iff compiled).mpr (.inl ?_)
      have begun := invariant.of_begins begins compiled
      refine (Level.looksUp_block_iff compiled).mpr (.inl ⟨_, _, begins, ?_⟩)
      exact ((event _).has_succ_iff begun).mpr
        (.inr (.inl ⟨_, _, _, opens, ih (invariant.of_opens opens begun)⟩))
    | @later depth place block _ _ _ _ done fetches ih =>
      have left := invariant.kept (invariant.closed.block setting depth place block) compiled done
      exact ((event _).renderBlocks_cons_iff compiled).mpr (.inr ⟨_, done, ih left⟩)

end Stencil
