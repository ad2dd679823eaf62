import Stencil.Proofs.Render.Pure
import Stencil.Proofs.Render.StandIn

/-!
# Climbing out of templates

A template that stands in for a member is rendered at the value without that member, at the path
that leads there. Names in it that climb are meant to lead back to the values that were passed on
the way. An ancestor is found by reading the path again from the root. A name that leads nowhere in
the data of the render is read in the registered data, but a front part of its path may lead
somewhere in the data of the render all the same.

1. `Level.Evaluates`: a name comes to a template, past some values.
2. `Level.climb_from_template`: where the names lead that climb out of this template, at any depth
   and at any later moment. They lead back to what was passed, unless it was passed in the
   registered data and the data of the render has something else there.
-/

namespace Stencil

variable {σ : Type}

namespace Level

/-! ## Coming to a template -/

/-- Drilling from a value passes some values, and comes to one without the member that is named
next, where a template stands in. The template is to be rendered at this value. -/
inductive Passes (level : Level σ) : Context σ → List String → Run σ →
    List (Value σ) → Program → Context σ → Run σ → Prop where
  | arrive {owner : Context σ} {name : String} {program : Program}
      (standsIn : level.StandsIn owner.current name program) (rest : List String) (run : Run σ) :
      Passes level owner (name :: rest) run [] program owner run
  | pass {owner context : Context σ} {name : String} {rest : List String}
      {run run' moment : Run σ} {value : Value σ} {passed : List (Value σ)} {program : Program}
      (found : level.member owner name run = .ok (some value) run')
      (further : Passes level { owner with current := value, path := Path.join owner.path name }
        rest run' passed program context moment) :
      Passes level owner (name :: rest) run (owner.current :: passed) program context moment

/-- The data that a name is read in. -/
inductive Source where
  /-- The data of the render. -/
  | given
  /-- The data that is registered. -/
  | registered
  deriving DecidableEq

/-- The number of segments that lead to the first value that is passed. -/
def Source.height : Source → Nat
  | .given => 0
  | .registered => 1

/-- To find the value of a name at the root, a template is rendered in a context. It may not be
the only one. -/
inductive Evaluates (level : Level σ) (root : Value σ) (names : List String) (run : Run σ) :
    Source → List (Value σ) → Program → Context σ → Run σ → Prop where
  | given {passed : List (Value σ)} {program : Program} {context : Context σ} {moment : Run σ}
      (passes : level.Passes (.atRoot root) names run passed program context moment) :
      Evaluates level root names run .given passed program context moment
  | registered {first : String} {rest : List String} {value settled : Value σ}
      {start start' moment : Run σ} {passed : List (Value σ)} {program : Program}
      {context : Context σ} (split : names = first :: rest)
      (absent : level.drill (.atRoot root) names run = .ok none start)
      (found : level.setting.data.find? first = some value)
      (settles : settle value start = .ok settled start')
      (passes : level.Passes ⟨settled, first, root⟩ rest start' passed program context moment) :
      Evaluates level root names run .registered passed program context moment

variable {level : Level σ} {owner context : Context σ} {names : List String}
  {run moment : Run σ} {passed : List (Value σ)} {program : Program}

namespace Passes

theorem length_lt (passes : level.Passes owner names run passed program context moment) :
    passed.length < names.length := by
  induction passes with
  | arrive standsIn rest run => exact Nat.succ_pos _
  | pass found further ih => exact Nat.succ_lt_succ ih

/-- The template is rendered at the path that leads through the names before its own. -/
theorem placed (passes : level.Passes owner names run passed program context moment) :
    context.path = (names.take passed.length).foldl Path.join owner.path ∧
      context.root = owner.root := by
  induction passes with
  | arrive standsIn rest run => exact ⟨rfl, rfl⟩
  | pass found further ih => exact ih

theorem reached (passes : level.Passes owner names run passed program context moment) :
    level.drill owner (names.take passed.length) run = .ok (some context.current) moment := by
  induction passes with
  | arrive standsIn rest run => rfl
  | pass found further ih =>
    rw [List.length_cons, List.take_succ_cons, drill, Eval.bind_of_ok found]
    exact ih

/-- The values that were passed are what the names lead to, one by one. -/
theorem drill_take (passes : level.Passes owner names run passed program context moment)
    {before after : List (Value σ)} {value : Value σ} (split : passed = before ++ value :: after) :
    ∃ run', level.drill owner (names.take before.length) run = .ok (some value) run' := by
  induction passes generalizing before with
  | arrive standsIn rest run => cases (List.nil_eq_append_iff.mp split).2
  | pass found further ih =>
    cases before with
    | nil =>
      cases split
      exact ⟨_, rfl⟩
    | cons other before =>
      obtain ⟨run', drilled⟩ := ih (List.cons.inj split).2
      refine ⟨run', ?_⟩
      rw [List.length_cons, List.take_succ_cons, drill, Eval.bind_of_ok found]
      exact drilled

/-- At that moment, drilling goes on by rendering the template. -/
theorem comes (passes : level.Passes owner names run passed program context moment) :
    ∃ next, level.drill owner names run =
      (level.renderPrivately program context >>= next) moment := by
  induction passes with
  | @arrive owner name program standsIn rest run =>
    have same : level.drill owner (name :: rest) =
        level.renderPrivately program owner >>= fun text =>
          level.drill ⟨.text text, Path.join owner.path name, owner.root⟩ rest := by
      rw [drill, standsIn.member, map_eq_pure_bind, bind_assoc]
      rfl
    exact ⟨_, congrFun same run⟩
  | pass found further ih =>
    rw [drill, Eval.bind_of_ok found]
    exact ih

end Passes

namespace Evaluates

variable {root : Value σ} {source : Source}
  (evaluates : level.Evaluates root names run source passed program context moment)
include evaluates

theorem length_lt : passed.length + source.height < names.length := by
  cases evaluates with
  | given passes => exact passes.length_lt
  | registered split _ _ _ passes =>
    rw [split]
    exact Nat.succ_lt_succ passes.length_lt

theorem placed (solid : ∀ name ∈ names, name ≠ "" ∧ PointFree name) :
    context.path = Path.ofSegments (names.take (passed.length + source.height)) ∧
      context.root = root := by
  cases evaluates with
  | given passes =>
    refine ⟨passes.placed.1.trans (Path.foldl_join fun name mem => ?_), passes.placed.2⟩
    exact (solid name (List.mem_of_mem_take mem)).1
  | registered split _ _ _ passes =>
    subst split
    have joined := Path.foldl_join_of_ne (solid _ List.mem_cons_self).1
    exact ⟨passes.placed.1.trans (joined _), passes.placed.2⟩

/-- Behind a value that was passed come the values after it and the one that the template is rendered
at, one for each segment. -/
theorem exists_back {before after : List (Value σ)} {value : Value σ}
    (split : passed = before ++ value :: after) :
    ∃ back, back.length = after.length + 1 ∧
      names.take (passed.length + source.height) =
        names.take (before.length + source.height) ++ back := by
  have length_passed : passed.length = before.length + (after.length + 1) := by
    rw [split, List.length_append, List.length_cons]
  refine ⟨(names.drop (before.length + source.height)).take (after.length + 1), ?_, ?_⟩
  · have bound := evaluates.length_lt
    rw [List.length_take, List.length_drop]
    omega
  · rw [length_passed, Nat.add_right_comm, List.take_add]

/-- At that moment, finding the value goes on by rendering the template. -/
theorem comes (solid : ∀ name ∈ names, name ≠ "" ∧ PointFree name) :
    ∃ next, level.resolve (.atRoot root) (Path.ofSegments names) run =
      (level.renderPrivately program context >>= next) moment := by
  have nonempty : names ≠ [] := List.ne_nil_of_length_pos (Nat.zero_lt_of_lt evaluates.length_lt)
  rw [resolve_ofSegments _ nonempty solid, find]
  cases evaluates with
  | given passes =>
    obtain ⟨next, same⟩ := passes.comes
    exact ⟨_, (Eval.bind_congr same _).trans (congrFun (bind_assoc _ _ _) moment)⟩
  | registered split absent found settles passes =>
    subst split
    obtain ⟨next, same⟩ := passes.comes
    refine ⟨next, ?_⟩
    rw [Eval.bind_of_ok absent]
    show level.drillData root _ _ = _
    rw [drillData, found]
    exact (Eval.bind_of_ok settles _).trans same

end Evaluates

end Level

/-! ## Doing a step again -/

namespace Eval

variable {α β : Type}

def AtLimit (ended : EStateM.Result Error (Run σ) α) : Prop :=
  ∃ error run, ended = .error error run ∧ error.cause.isMaxDepth = true

/-- Two steps ended in the same way, in runs that differ in the cache and the notices only. -/
inductive EndsAlike : EStateM.Result Error (Run σ) α → EStateM.Result Error (Run σ) α → Prop
  | ok {result : α} {run other : Run σ} (alike : run.Alike other) :
      EndsAlike (.ok result run) (.ok result other)
  | error {error : Error} {run other : Run σ} (alike : run.Alike other) :
      EndsAlike (.error error run) (.error error other)

theorem AtLimit.bind {step : Eval σ α} {run : Run σ} (limit : AtLimit (step run))
    (next : α → Eval σ β) : AtLimit ((step >>= next) run) := by
  obtain ⟨error, run', failed, reached⟩ := limit
  exact ⟨error, run', bind_of_error failed next, reached⟩

theorem Transparent.endsAlike {step : Eval σ α} (transparent : Transparent step)
    {run other : Run σ} (alike : run.Alike other) : EndsAlike (step run) (step other) := by
  obtain ⟨texts, same⟩ := transparent run other alike
  generalize step run = ended, step other = ended' at same
  cases same with
  | ok alike => exact .ok alike
  | error alike => exact .error alike

/-- A step that finds a value finds it again, at any later moment and with fewer levels left, unless
it ends at the limit. -/
theorem find_again [Carries σ α] {step step' : Eval σ α} (cuts : Cuts step' step)
    (quiet : Quiet step) (transparent : Transparent step) (inert : Inert step)
    {run run' later : Run σ} {result : α} (done : step run = .ok result run')
    (compiled : run.cache.Compiled) (host : later.host = run.host)
    (later_compiled : later.cache.Compiled) :
    AtLimit (step' later) ∨ ∃ later', step' later = .ok result later' ∧ later'.Alike later := by
  rcases cuts.same_or_cut later with same | ⟨error, cut, failed, reached, _⟩
  · right
    have moved := quiet run later.sink
    have alike : (run.withSink later.sink).Alike later :=
      ⟨host.symm, rfl, compiled, later_compiled⟩
    have ended := transparent.endsAlike alike
    rw [moved, done] at ended
    cases other : step later with
    | ok result' later' =>
      rw [other] at ended
      cases ended
      exact ⟨later', same.trans other, inert.alike later_compiled other⟩
    | error error later' =>
      rw [other] at ended
      cases ended
  · exact .inl ⟨error, cut, failed, reached⟩

end Eval

namespace Level

/-! ## Ancestors -/

/-- A name that climbs is read from what the path without its last segments leads to. -/
theorem resolve_climb_eq {level : Level σ} {context : Context σ} {kept back : List String}
    (placed : context.path = Path.ofSegments (kept ++ back))
    (solid : ∀ name ∈ kept ++ back, name ≠ "" ∧ PointFree name) (climbing : back ≠ [])
    {rest : String} (stays : (Name.ofText rest).climbs = 0) :
    level.resolve context (Name.climb back.length rest) =
      level.find (.atRoot context.root) kept >>= fun found =>
        match found with
        | none => pure none
        | some ancestor =>
          level.drill ⟨ancestor, Path.ofSegments kept, context.root⟩ (segmentsOf rest) := by
  obtain ⟨climbs, height⟩ := Nat.exists_eq_add_of_le' (List.length_pos_iff.mpr climbing)
  have name : Name.ofText (Name.climb back.length rest) = ⟨climbs + 1, segmentsOf rest⟩ := by
    rw [Name.ofText_climbs, Name.ofText_of_climbs_eq_zero stays, Nat.zero_add, height]
  have split : segmentsOf context.path = kept ++ back := by
    rw [placed]
    exact segmentsOf_ofSegments (List.append_ne_nil_of_right_ne_nil kept climbing)
      fun name mem => (solid name mem).2
  have kept_solid : ∀ name ∈ kept, name ≠ "" ∧ PointFree name :=
    fun name mem => solid name (List.mem_append_left back mem)
  cases kept with
  | nil =>
    rw [resolve_climb_to_root name (by rw [split]; exact height)]
    have empty : Path.ofSegments [] = "" := String.intercalate_nil
    rw [empty]
    rfl
  | cons first kept =>
    have nonempty : first :: kept ≠ [] := List.cons_ne_nil first kept
    have parts := segmentsOf_ofSegments nonempty fun name mem => (kept_solid name mem).2
    have kept_stays := climbs_of_solid nonempty kept_solid (parts.trans (List.append_nil _).symm)
    rw [resolve_climb name split nonempty height, resolveAtRoot,
      Name.ofText_of_climbs_eq_zero kept_stays, parts]
    rfl

variable {setting : Setting σ} {depth : Nat} {root : Value σ} {names : List String}
  {run moment : Run σ} {source : Source} {passed : List (Value σ)} {program : Program}
  {context : Context σ}

/-- A name that climbs out of a context leads where its rest leads from an ancestor: at any later
moment of the render, with any number of levels left that is not greater, unless it ends at the
limit. -/
def ClimbsTo (setting : Setting σ) (depth : Nat) (moment : Run σ) (context : Context σ)
    (climbs : Nat) (ancestor : Context σ) : Prop :=
  ∀ deeper ≤ depth, ∀ later : Run σ, later.host = moment.host → later.cache.Compiled →
    ∀ rest : String, (Name.ofText rest).climbs = 0 →
      let climbing := (ofDepth setting deeper).resolve context (Name.climb climbs rest) later
      Eval.AtLimit climbing ∨ Eval.EndsAlike climbing
        ((ofDepth setting deeper).drill ancestor (segmentsOf rest) later)

section

variable (registered : setting.data.Pure) {deeper : Nat} (le : deeper ≤ depth) {run' later : Run σ}
  {found : Option (Value σ)} (compiled : run.cache.Compiled) (host : later.host = run.host)
  (later_compiled : later.cache.Compiled)
include registered le compiled host later_compiled

theorem drill_again {owner : Context σ} (known : owner.All Value.IsPure) {segments : List String}
    (done : (ofDepth setting depth).drill owner segments run = .ok found run') :
    Eval.AtLimit ((ofDepth setting deeper).drill owner segments later) ∨
      ∃ later', (ofDepth setting deeper).drill owner segments later = .ok found later' ∧
        later'.Alike later :=
  Eval.find_again
    ((cuts_agree setting le).drill Eval.cuts_congruence.toSequential ⟨trivial, trivial⟩ _)
    ((ofDepth setting depth).quiet_agree.drill Eval.quiet_sequential ⟨trivial, trivial⟩ _)
    ((Eval.transparent_closed.agree setting depth).drill
      Eval.transparent_closed.congruence.toSequential ⟨trivial, trivial⟩ _)
    ((inert_agree registered depth).drill Eval.inert_sequential known _)
    done compiled host later_compiled

theorem drillData_again (pure : root.IsPure) {segments : List String}
    (done : (ofDepth setting depth).drillData root segments run = .ok found run') :
    Eval.AtLimit ((ofDepth setting deeper).drillData root segments later) ∨
      ∃ later', (ofDepth setting deeper).drillData root segments later = .ok found later' ∧
        later'.Alike later :=
  Eval.find_again
    ((cuts_agree setting le).drillData Eval.cuts_congruence.toSequential trivial _)
    ((ofDepth setting depth).quiet_agree.drillData Eval.quiet_sequential trivial _)
    ((Eval.transparent_closed.agree setting depth).drillData
      Eval.transparent_closed.congruence.toSequential trivial _)
    ((inert_agree registered depth).drillData Eval.inert_sequential pure _)
    done compiled host later_compiled

end

section

variable (registered : setting.data.Pure) (pure : root.IsPure) (compiled : run.cache.Compiled)
  (evaluates : (ofDepth setting depth).Evaluates root names run source passed program context
    moment)
include registered pure compiled evaluates

theorem Evaluates.alike : moment.Alike run := by
  have inert := inert_agree registered depth
  have at_root : (Context.atRoot root).All Value.IsPure := ⟨pure, pure⟩
  cases evaluates with
  | given passes =>
    exact (inert.drill Eval.inert_sequential at_root _).alike compiled passes.reached
  | @registered first rest value settled start start' _ _ _ _ _ absent found settles passes =>
    have value_pure : value.IsPure := by
      rw [setting_ofDepth] at found
      exact registered.find found
    have settle_inert := Eval.inert_sequential.settle value_pure
    have owner_pure : (⟨settled, first, root⟩ : Context σ).All Value.IsPure :=
      ⟨settle_inert.found settles settled List.mem_cons_self, pure⟩
    have first_alike := (inert.drill Eval.inert_sequential at_root _).alike compiled absent
    have second_alike := settle_inert.alike first_alike.compiled settles
    have third_alike := (inert.drill Eval.inert_sequential owner_pure _).alike
      second_alike.compiled passes.reached
    exact third_alike.trans (second_alike.trans first_alike)

/-- What the path of a value that was passed leads to in the data of the render, and where the value
itself was found. -/
theorem Evaluates.exists_found {before after : List (Value σ)} {value : Value σ}
    (split : passed = before ++ value :: after) :
    ∃ found, (∃ run', (ofDepth setting depth).drill (.atRoot root)
        (names.take (before.length + source.height)) run = .ok found run') ∧
      (source = .given → found = some value) ∧
      (source = .registered → ∃ start start', start.Alike run ∧
        (ofDepth setting depth).drillData root (names.take (before.length + source.height)) start =
          .ok (some value) start') := by
  cases evaluates with
  | given passes =>
    exact ⟨some value, passes.drill_take split, fun _ => rfl, nofun⟩
  | @registered first rest _ settled start start' _ _ _ _ names_eq absent found settles passes =>
    have inert := (inert_agree registered depth).drill Eval.inert_sequential
      (⟨pure, pure⟩ : (Context.atRoot root).All Value.IsPure) names
    have drilled := absent
    rw [← List.take_append_drop (before.length + Source.registered.height) names, drill_append]
      at drilled
    obtain ⟨front, run', front_drilled, _⟩ := Eval.exists_of_bind_eq_ok drilled
    obtain ⟨end_run, reached⟩ := passes.drill_take split
    refine ⟨front, ⟨run', front_drilled⟩, nofun, fun _ => ?_⟩
    refine ⟨start, end_run, inert.alike compiled absent, ?_⟩
    subst names_eq
    show (ofDepth setting depth).drillData root (first :: rest.take before.length) start = _
    rw [drillData, found]
    exact (Eval.bind_of_ok settles _).trans reached

/-- The ancestor is found again. -/
theorem Evaluates.find_again {before after : List (Value σ)} {value : Value σ}
    (split : passed = before ++ value :: after) :
    ∃ found, (∃ run', (ofDepth setting depth).drill (.atRoot root)
        (names.take (before.length + source.height)) run = .ok found run') ∧
      (source = .given → found = some value) ∧
      ∀ deeper ≤ depth, ∀ later : Run σ, later.host = run.host → later.cache.Compiled →
        let finding := (ofDepth setting deeper).find (.atRoot root)
          (names.take (before.length + source.height)) later
        Eval.AtLimit finding ∨
          ∃ later', finding = .ok (some (found.getD value)) later' ∧ later'.Alike later := by
  obtain ⟨found, ⟨run', drilled⟩, given, fallback⟩ :=
    evaluates.exists_found registered pure compiled split
  refine ⟨found, ⟨run', drilled⟩, given, fun deeper le later host later_compiled => ?_⟩
  have at_root : (Context.atRoot root).All Value.IsPure := ⟨pure, pure⟩
  rcases drill_again registered le compiled host later_compiled at_root drilled with
    limit | ⟨later', again, alike⟩
  · exact .inl (limit.bind _)
  · dsimp only
    rw [find, Eval.bind_of_ok again]
    cases found with
    | some reached => exact .inr ⟨later', rfl, alike⟩
    | none =>
      have source_eq : source = .registered := by
        cases source with
        | given => cases given rfl
        | registered => rfl
      obtain ⟨start, start', start_alike, fell_back⟩ := fallback source_eq
      have start_host : later'.host = start.host :=
        alike.host.trans (host.trans start_alike.host.symm)
      rcases drillData_again registered le start_alike.compiled start_host alike.compiled pure
          fell_back with limit | ⟨later'', again', alike'⟩
      · exact .inl limit
      · exact .inr ⟨later'', again', alike'.trans alike⟩

/-- Where the names lead that climb out of a template. To find the value of a name at the root, a
template is rendered at some value, past some others, at the path that leads there. A name in it that
climbs back by some segments leads to the value that was passed there, if the name was read in the
data of the render, or if it was read in the registered data and the data of the render has nothing
at this front part of the path. If it has a value there, the name leads to that value instead. -/
theorem climb_from_template (solid : ∀ name ∈ names, name ≠ "" ∧ PointFree name) :
    (context.path = Path.ofSegments (names.take (passed.length + source.height)) ∧
      context.root = root ∧ moment.Alike run ∧
      ∃ next, (ofDepth setting depth).resolve (.atRoot root) (Path.ofSegments names) run =
        ((ofDepth setting depth).renderPrivately program context >>= next) moment) ∧
    ∀ before value after, passed = before ++ value :: after →
      let kept := names.take (before.length + source.height)
      ∃ found, (∃ run', (ofDepth setting depth).drill (.atRoot root) kept run = .ok found run') ∧
        (source = .given → found = some value) ∧
        ClimbsTo setting depth moment context (after.length + 1)
          ⟨found.getD value, Path.ofSegments kept, root⟩ := by
  obtain ⟨path, root_eq⟩ := evaluates.placed solid
  have alike := evaluates.alike registered pure compiled
  refine ⟨⟨path, root_eq, alike, evaluates.comes solid⟩, fun before value after split => ?_⟩
  intro kept
  obtain ⟨found, drilled, given, again⟩ := evaluates.find_again registered pure compiled split
  refine ⟨found, drilled, given, ?_⟩
  intro deeper le later host later_compiled rest stays
  obtain ⟨back, length_back, front⟩ := evaluates.exists_back split
  have front_solid : ∀ name ∈ kept ++ back, name ≠ "" ∧ PointFree name := by
    rw [← front]
    exact fun name mem => solid name (List.mem_of_mem_take mem)
  have climbing : back ≠ [] := List.ne_nil_of_length_eq_add_one length_back
  dsimp only
  rw [← length_back, resolve_climb_eq (path.trans (congrArg Path.ofSegments front)) front_solid
    climbing stays, root_eq]
  rcases again deeper le later (host.trans alike.host) later_compiled with
    limit | ⟨later', reached, later_alike⟩
  · exact .inl (limit.bind _)
  · right
    rw [Eval.bind_of_ok reached]
    have transparent : Eval.Transparent ((ofDepth setting deeper).drill
        ⟨found.getD value, Path.ofSegments kept, root⟩ (segmentsOf rest)) :=
      (Eval.transparent_closed.agree setting deeper).drill
        Eval.transparent_closed.congruence.toSequential ⟨trivial, trivial⟩ _
    exact transparent.endsAlike later_alike

end

/-- The name leads nowhere in the data of the render, but its first segment does. -/
theorem climb_from_template_shadowed :
    let title (text : String) : Value Unit := .map [("title", .text text)]
    let inner : Value Unit := .map [("n", .integer 1)]
    let site : Value Unit := .map [("title", .text "G"), ("x", inner)]
    let root : Value Unit := .map [("site", title "L")]
    let program := (Program.compile "\x7b\x7b../title\x7d\x7d").value
    let setting : Setting Unit :=
      ⟨Table.empty.insert "t" program, Table.empty.insert "site" site, 64⟩
    let run : Run Unit := Engine.new.begin .text ()
    let context : Context Unit := ⟨inner, "site.x", root⟩
    (ofDepth setting 2).Evaluates root ["site", "x", "t"] run .registered [site] program context
        run ∧
      ClimbsTo setting 2 run context 1 ⟨title "L", Path.ofSegments ["site"], root⟩ := by
  intro title inner site root program setting run context
  have registered : setting.data.Pure := Table.Plain.pure fun entry mem => by
    cases List.mem_singleton.mp mem
    rfl
  have evaluates : (ofDepth setting 2).Evaluates root ["site", "x", "t"] run .registered [site]
      program context run :=
    .registered rfl rfl rfl rfl (.pass rfl (.arrive ⟨rfl, rfl, rfl⟩ [] run))
  have compiled : run.cache.Compiled := fun _ _ found => nomatch found
  obtain ⟨_, climbs⟩ := climb_from_template registered (Value.isPure_of_plain rfl) compiled evaluates
    (by decide)
  obtain ⟨found, ⟨run', drilled⟩, _, leads⟩ := climbs [] site [] rfl
  have shadowed : (ofDepth setting 2).drill (.atRoot root) ["site"] run =
      .ok (some (title "L")) run := rfl
  cases shadowed.symm.trans drilled
  exact ⟨evaluates, leads⟩

end Level

/-- One segment before the value `x` is the registered value `site`, whose title is `G`. The render
writes the title of what the data of the render has there. -/
theorem render_shadowed_ancestor :
    let inner : Value Unit := .map [("n", .integer 1)]
    let site : Value Unit := .map [("title", .text "G"), ("x", inner)]
    let root : Value Unit := .map [("site", .map [("title", .text "L")])]
    let registered : Engine Unit := (Engine.new.registerData "site" site).value
    let engine := (registered.registerTemplate "t" "\x7b\x7b../title\x7d\x7d").value
    let program := (Program.compile "\x7b\x7bsite.x.t\x7d\x7d").value
    ((root.drilled? ["site", "x"]).isNone ∧ (site.drilled? ["x"]).isSome ∧
        (inner.child? "t").isNone ∧ (site.drilled? ["title"]).map Value.toText = some "G") ∧
      (engine.render ⟨program, root, false, none, false, none⟩ .text ()).text.toOption =
        some "L" := by
  decide +kernel

end Stencil
