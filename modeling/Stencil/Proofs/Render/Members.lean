import Stencil.Proofs.Render.Depth
import Stencil.Proofs.Render.Local
import Stencil.Proofs.Render.Lookup

/-!
# The members of a value

An iteration does not tell how the host keeps the members: in a list, in a map or in a collection
that hands them out.

1. `Value.Holds`, `Value.Begins`: what the members of a value are, and which come first.
2. `Eval.forEachMember_of_holds`, `Eval.forEachMember_of_begins`: a step is done for these members
   in a row, and then for the others.
3. `Level.resolve_bound`: a list, map or collection is found under its name, an empty list or map as
   null.
4. `Engine.render_members`: an iteration with a local body renders the body once for each member,
   whatever holds them, and ends with the first member that fails.
-/

namespace Stencil

variable {σ : Type}

/-! ## Holding members -/

/-- A collection hands out some members, whatever the state of the host is, and leaves that alone.
Then it goes on as another collection. -/
inductive Pull.HandsOut (rest : σ → Pull σ) : List (Value σ) → (σ → Pull σ) → Prop where
  | nothing : HandsOut rest [] rest
  | member {pull : σ → Pull σ} {item : Value σ} {items : List (Value σ)} (next : σ → σ → Pull σ)
      (handed : ∀ host, pull host = .member host item (next host))
      (later : ∀ host, HandsOut rest items (next host)) : HandsOut rest (item :: items) pull

def Pull.ofList : List (Value σ) → σ → Pull σ
  | [], host => .done host
  | item :: items, host => .member host item (ofList items)

theorem Pull.handsOut_ofList (items : List (Value σ)) : HandsOut .done items (ofList items) := by
  induction items with
  | nil => exact .nothing
  | cons item items ih => exact .member (fun _ => ofList items) (fun _ => rfl) fun _ => ih

/-- A value with these members: a list, a map that has them in the order of its names, or a
collection of either kind that hands them out. -/
inductive Value.Holds (items : List (Value σ)) : Value σ → Prop where
  | list : Holds items (.list items)
  | map {entries : List (String × Value σ)} (values : entries.map Prod.snd = items) :
      Holds items (.map entries)
  | collection (id : Nat) (kind : CollectionKind) {pull : σ → Pull σ}
      (handed : Pull.HandsOut .done items pull) : Holds items (.collection id kind pull)

/-- A value with these members and others behind them, whatever those are. -/
inductive Value.Begins (items : List (Value σ)) : Value σ → Prop where
  | list (more : List (Value σ)) : Begins items (.list (items ++ more))
  | map {entries : List (String × Value σ)} {more : List (Value σ)}
      (values : entries.map Prod.snd = items ++ more) : Begins items (.map entries)
  | collection (id : Nat) (kind : CollectionKind) {pull rest : σ → Pull σ}
      (handed : Pull.HandsOut rest items pull) : Begins items (.collection id kind pull)

namespace Value

variable {value : Value σ} {items : List (Value σ)}

theorem Holds.begins (holds : value.Holds items) : value.Begins items := by
  cases holds with
  | list =>
    have first : Begins items (.list (items ++ [])) := .list []
    rwa [List.append_nil] at first
  | map values => exact .map (values.trans (List.append_nil items).symm)
  | collection id kind handed => exact .collection id kind handed

/-- Only an empty list or map is null where it is found, and only it is not iterated over. -/
theorem Begins.settled_of_ne_nil (begins : value.Begins items) (nonempty : items ≠ []) :
    value.settled = value ∧ value.truthy = true := by
  obtain ⟨item, others, rfl⟩ := List.exists_cons_of_ne_nil nonempty
  cases begins with
  | list more => exact ⟨rfl, rfl⟩
  | @map entries more values =>
    obtain ⟨entry, entries, rfl⟩ : ∃ entry later, entries = entry :: later := by
      refine List.exists_cons_of_ne_nil ?_
      rintro rfl
      cases values
    exact ⟨rfl, rfl⟩
  | collection id kind handed => exact ⟨rfl, rfl⟩

end Value

/-! ## A step for each member -/

namespace Eval

variable {value : Value σ} {items : List (Value σ)}

/-- Does a step for each member that a collection hands out from now on. -/
def forEachOf (step : Value σ → Eval σ Unit) (pull : σ → Pull σ) : Eval σ Unit := fun run =>
  forEachPulled step (pull run.host) run

/-- The step is done for the members that are handed out, in a row, and then for the others. -/
theorem forEachOf_of_handsOut {rest pull : σ → Pull σ} (handed : Pull.HandsOut rest items pull)
    (step : Value σ → Eval σ Unit) :
    forEachOf step pull = items.forM step >>= fun _ => forEachOf step rest := by
  induction handed with
  | nothing => rfl
  | @member pull item items next handed later ih =>
    have others (host : σ) : (step item >>= fun _ => forEachOf step (next host)) =
        (item :: items).forM step >>= fun _ => forEachOf step rest := by
      rw [ih host, forM_cons, bind_assoc]
    funext run
    rw [← others run.host, forEachOf, handed, forEachPulled]
    cases ran : step item run with
    | ok result run' =>
      rw [bind_of_ok ran]
      simp only [ran]
      rfl
    | error error run' =>
      rw [bind_of_error ran]
      simp only [ran]

theorem forEachMember_of_holds (holds : value.Holds items) (step : Value σ → Eval σ Unit) :
    forEachMember value step = items.forM step := by
  cases holds with
  | list => rfl
  | @map entries values =>
    rw [← values]
    exact (forM_map entries Prod.snd step).symm
  | collection id kind handed => exact (forEachOf_of_handsOut handed step).trans bind_pure_unit

/-- What is done for the members in front does not depend on what is behind them. -/
theorem forEachMember_of_begins (begins : value.Begins items) (step : Value σ → Eval σ Unit) :
    ∃ later : Eval σ Unit, forEachMember value step = items.forM step >>= fun _ => later := by
  cases begins with
  | list more => exact ⟨more.forM step, forM_append items more step⟩
  | @map entries more values =>
    refine ⟨more.forM step, ?_⟩
    rw [← forM_append, ← values]
    exact (forM_map entries Prod.snd step).symm
  | @collection id kind pull rest handed =>
    exact ⟨forEachOf step rest, forEachOf_of_handsOut handed step⟩

theorem sink_after_noteClimb (text path : String) (run : Run σ) :
    (after (noteClimb text path) run).sink = run.sink := by
  unfold noteClimb
  split <;> rfl

theorem forM_pure (items : List (Value σ)) :
    (items.forM fun _ => pure () : Eval σ Unit) = pure () := by
  induction items with
  | nil => rfl
  | cons item items ih => rw [forM_cons, ih, pure_bind]

end Eval

/-! ## Finding the value -/

namespace Level

variable {level : Level σ} {value : Value σ} {items : List (Value σ)}

theorem settle_of_begins (begins : value.Begins items) : settle value = pure value.settled := by
  cases begins <;> rfl

theorem settle_of_child {member : Value σ} {name : String}
    (present : value.child? name = some member) : settle value = pure value := by
  cases value with
  | list items =>
    cases items with
    | nil =>
      obtain ⟨position, _, found⟩ := Option.bind_eq_some_iff.mp present
      cases found
    | cons item items => rfl
  | map entries =>
    cases entries with
    | nil => cases present
    | cons entry entries => rfl
  | _ => cases present

/-- What is there under some names is found there. -/
theorem drill_of_descend? (begins : value.Begins items) {owner : Context σ} {names : List String}
    (nonempty : names ≠ []) (bound : owner.current.descend? names = some value) :
    level.drill owner names = pure (some value.settled) := by
  induction names generalizing owner with
  | nil => exact absurd rfl nonempty
  | cons name names ih =>
    rw [Value.descend?, List.foldlM_cons] at bound
    obtain ⟨child, present, bound⟩ := Option.bind_eq_some_iff.mp bound
    rw [drill_of_present present]
    cases names with
    | nil =>
      cases bound
      rw [settle_of_begins begins, pure_bind]
      rfl
    | cons next names =>
      obtain ⟨inner, further, _⟩ := Option.bind_eq_some_iff.mp bound
      rw [settle_of_child further, pure_bind]
      exact ih (List.cons_ne_nil next names) bound

/-- At the root of the data a name that climbs is read like any other one, and that it climbs above
the root is noted. -/
theorem resolve_bound (begins : value.Begins items) {root : Value σ} {name : String}
    (bound : root.descend? (Name.ofText name).segments = some value) :
    level.resolve (.atRoot root) name =
      Eval.noteClimb name "" >>= fun _ => pure (some value.settled) := by
  have drilled : level.drill (.atRoot root) (Name.ofText name).segments =
      pure (some value.settled) :=
    drill_of_descend? begins (Name.segments_ofText_ne_nil name) bound
  by_cases stays : (Name.ofText name).climbs = 0
  · have silent : Eval.noteClimb name "" = (pure () : Eval σ Unit) := by
      rw [Eval.noteClimb, stays]
      rfl
    rw [resolve_of_stays stays, find, drilled, silent]
    rfl
  · have all : (segmentsOf (Context.atRoot root).path).length ≤ (Name.ofText name).climbs := by
      rw [Context.height_atRoot]
      exact Nat.one_le_iff_ne_zero.mpr stays
    rw [resolve_of_climbs stays, ancestor, if_pos all, bind_assoc]
    simp only [pure_bind]
    exact congrArg (Eval.noteClimb name "" >>= fun _ => ·) drilled

/-! ## Iterating -/

section

variable {setting : Setting σ} {depth : Nat} {place : Place σ} {root : Value σ} {name : String}
  {inner : List Block}

/-- The body looks at nothing but the member, so each member may be the root of its own data. -/
theorem iteration_bound (registered : setting.templates.AllLocal)
    (inner_local : Block.AllLocal inner) (begins : value.Begins items)
    (at_root : place.context = .atRoot root)
    (bound : root.descend? (Name.ofText name).segments = some value) :
    (ofDepth setting (depth + 1)).iteration place name inner =
      Eval.noteClimb name "" >>= fun _ =>
        if value.settled.truthy && !inner.isEmpty then
          Eval.forEachMember value.settled fun item =>
            renderBlocks setting depth (place.at (.atRoot item)) inner
        else pure () := by
  have alone (item : Value σ) :
      renderBlocks setting depth (place.at ⟨item, Path.item "" name, root⟩) inner =
        renderBlocks setting depth (place.at (.atRoot item)) inner := by
    have same : (place.at ⟨item, Path.item "" name, root⟩).context.current =
        (Context.atRoot item).current := rfl
    exact renderBlocks_local registered same inner_local
  rw [iteration, at_root, resolve_bound begins bound, bind_assoc]
  simp only [pure_bind, descend_bind_succ, ← alone]
  rfl

/-- Without members a list or a map is null and not looked at, but a collection is asked for one. -/
theorem iteration_of_holds (registered : setting.templates.AllLocal)
    (inner_local : Block.AllLocal inner) (holds : value.Holds items)
    (at_root : place.context = .atRoot root)
    (bound : root.descend? (Name.ofText name).segments = some value) :
    (ofDepth setting (depth + 1)).iteration place name inner =
      Eval.noteClimb name "" >>= fun _ =>
        items.forM fun item => renderBlocks setting depth (place.at (.atRoot item)) inner := by
  rw [iteration_bound registered inner_local holds.begins at_root bound]
  refine congrArg (Eval.noteClimb name "" >>= ·) (funext fun _ => ?_)
  by_cases none_held : items = []
  · subst none_held
    cases holds with
    | list => rfl
    | @map entries values =>
      obtain rfl : entries = [] := List.map_eq_nil_iff.mp values
      rfl
    | collection id kind handed =>
      split
      · exact Eval.forEachMember_of_holds (.collection id kind handed) _
      · rfl
  · obtain ⟨same, truthy⟩ := holds.begins.settled_of_ne_nil none_held
    rw [same, truthy]
    cases inner with
    | nil =>
      have nothing (place : Place σ) : renderBlocks setting depth place [] = pure () :=
        renderBlocks_eq setting depth place []
      simp only [nothing, Eval.forM_pure]
      rfl
    | cons block blocks => exact Eval.forEachMember_of_holds holds _

theorem iteration_of_begins (registered : setting.templates.AllLocal)
    (inner_local : Block.AllLocal inner) (begins : value.Begins items) (nonempty : items ≠ [])
    (body : inner ≠ []) (at_root : place.context = .atRoot root)
    (bound : root.descend? (Name.ofText name).segments = some value) :
    ∃ later : Eval σ Unit, (ofDepth setting (depth + 1)).iteration place name inner =
      Eval.noteClimb name "" >>= fun _ =>
        (items.forM fun item => renderBlocks setting depth (place.at (.atRoot item)) inner) >>=
          fun _ => later := by
  obtain ⟨same, truthy⟩ := begins.settled_of_ne_nil nonempty
  obtain ⟨later, first⟩ := Eval.forEachMember_of_begins begins fun item =>
    renderBlocks setting depth (place.at (.atRoot item)) inner
  obtain ⟨block, blocks, rfl⟩ := List.exists_cons_of_ne_nil body
  refine ⟨later, ?_⟩
  rw [iteration_bound registered inner_local begins at_root bound, same, truthy, ← first]
  rfl

end

end Level

/-! ## Rendering -/

namespace Engine

/-- A program that is one iteration is rendered by what the iteration does behind its notice that a
name climbs, and a failure in there is located at the iteration, too. -/
theorem render_iteration {engine : Engine σ} {job : Job σ} {name : String} {inner : List Block}
    {span : Span} (single : job.program.blocks = [.iteration name inner span]) {depth : Nat}
    (limit : (engine.setting job).maxDepth = depth + 1) {host host' : σ} {root : Value σ}
    (ready : job.prepared host = .ok root host') (at_root : job.context = none)
    {step : Eval σ Unit}
    (iterated : (Level.ofDepth (engine.setting job) (depth + 1)).iteration
        ⟨job.program.source, job.keepUndefined, .atRoot root⟩ name inner =
      Eval.noteClimb name "" >>= fun _ => step) (target : Target) :
    engine.render job target host =
      engine.outcome target (Eval.locate job.program.source span step
        (Eval.after (Eval.noteClimb name "") (engine.begin target host'))) := by
  obtain ⟨moment, noted⟩ := Eval.exists_noteClimb_eq_ok name "" (engine.begin target host')
  have reached := Eval.after_of_ok noted
  have run_eq : engine.run job (job.start root) =
      Eval.locate job.program.source span (Eval.noteClimb name "" >>= fun _ => step) := by
    rw [Job.start, at_root, ← iterated, run, limit, single, renderBlocks_eq]
    exact Eval.forM_singleton _ _
  rw [engine.render_of_ok target ready, run_eq, reached, Eval.locate, Eval.locate,
    Eval.bind_of_ok noted]

/-- An iteration over a name that leads to a value from the root of the data, with a body that
neither climbs nor is recursive, and registered templates that do not either. Whatever the value is
that holds the members, the body is rendered for each of them in order, with one level less, as if
the member were all the data. The first member that fails ends the render, with what was written for
the members in front of it, and whatever is behind it. -/
theorem render_members (engine : Engine σ) (job : Job σ) {name : String} {inner : List Block}
    {span : Span} (single : job.program.blocks = [.iteration name inner span])
    (inner_local : Block.AllLocal inner) (registered : engine.templates.AllLocal) {depth : Nat}
    (limit : (engine.setting job).maxDepth = depth + 1) {host host' : σ} {root value : Value σ}
    (ready : job.prepared host = .ok root host') (at_root : job.context = none)
    (bound : root.descend? (Name.ofText name).segments = some value) (target : Target) :
    let source := job.program.source
    let start := Eval.after (Eval.noteClimb name "") (engine.begin target host')
    let each (item : Value σ) : Eval σ Unit :=
      renderBlocks (engine.setting job) depth ⟨source, job.keepUndefined, .atRoot item⟩ inner
    (∀ items, value.Holds items →
      engine.render job target host =
        engine.outcome target (Eval.locate source span (items.forM each) start)) ∧
    (∀ before item, value.Begins (before ++ [item]) → ∀ run error run',
      before.forM each start = .ok () run → each item run = .error error run' →
        engine.render job target host =
            engine.outcome target (.error (error.locate source span) run') ∧
          run.sink.writes.toList <+: run'.sink.writes.toList) ∧
    (value.Holds [] →
      (engine.render job target host).result = .ok () ∧
        (engine.render job target host).writes = []) := by
  intro source start each
  let place : Place σ := ⟨source, job.keepUndefined, .atRoot root⟩
  have here : place.context = .atRoot root := rfl
  have stand_ins : (engine.setting job).templates.AllLocal := registered
  have all (items : List (Value σ)) (holds : value.Holds items) :
      engine.render job target host =
        engine.outcome target (Eval.locate source span (items.forM each) start) :=
    render_iteration single limit ready at_root
      (Level.iteration_of_holds stand_ins inner_local holds here bound) target
  refine ⟨all, fun before item begins run error run' done failed => ?_, fun holds => ?_⟩
  · have body : inner ≠ [] := by
      rintro rfl
      have nothing : each item = pure () := renderBlocks_eq ..
      rw [nothing] at failed
      cases failed
    obtain ⟨later, iterated⟩ := Level.iteration_of_begins stand_ins inner_local begins
      (by simp) body here bound
    have ended : (((before ++ [item]).forM each) >>= fun _ => later) start =
        .error error run' := by
      rw [Eval.forM_append, Eval.forM_singleton, bind_assoc, Eval.bind_of_ok done]
      exact Eval.bind_of_error failed _
    have located : Eval.locate source span
        (((before ++ [item]).forM each) >>= fun _ => later) start =
          .error (error.locate source span) run' := by
      rw [Eval.locate, ended]
    have grown := Eval.grows_closed.renderBlocks (engine.setting job) depth
      ⟨source, job.keepUndefined, .atRoot item⟩ inner run
    rw [Eval.after_of_error failed] at grown
    have rendered := render_iteration single limit ready at_root iterated target
    exact ⟨rendered.trans (congrArg (engine.outcome target) located), grown⟩
  · have untouched : start.sink = target.sink :=
      Eval.sink_after_noteClimb name "" (engine.begin target host')
    rw [all [] holds]
    refine ⟨rfl, ?_⟩
    show start.sink.writes.toList = []
    rw [untouched]
    cases target <;> rfl

/-- Registered data fails for the second of three members, with the count of its calls as the state
of the host. The third member is never looked at. -/
theorem render_members_failing :
    let engine : Engine Nat := (Engine.new.registerData "d"
      (.computed 0 fun calls => .failure (calls + 1) (.custom "no d"))).value
    let item (text : String) (selected : Bool) : Value Nat :=
      .map [("a", .text text), ("c", .bool selected)]
    let items := [item "x" false, item "y" true, item "z" true]
    let program := (Program.compile ("\x7b\x7bforeach m\x7d\x7d\x7b\x7ba\x7d\x7d" ++
      "\x7b\x7bif c\x7d\x7d\x7b\x7bd\x7d\x7d\x7b\x7bend\x7d\x7d\x7b\x7bend\x7d\x7d")).value
    let job (value : Value Nat) : Job Nat :=
      ⟨program, .map [("b", .null), ("m", value)], false, none, true, none⟩
    let rendered (value : Value Nat) := engine.render (job value) .text 0
    ((rendered (.list items)).written = "xy" ∧ (rendered (.list items)).host = 1 ∧
        (rendered (.list items)).result.isOk = false) ∧
      (∀ kind, rendered (.collection 0 kind (Pull.ofList items)) = rendered (.list items)) ∧
        rendered (.map [("1", item "x" false), ("2", item "y" true), ("3", item "z" true)]) =
          rendered (.list items) := by
  intro engine item items program job rendered
  refine ⟨by decide +kernel, ?_⟩
  let body : List Block := [.placeholder ⟨"a", false, true, ⟨13, 18⟩⟩,
    .condition "c" false [.placeholder ⟨"d", false, true, ⟨26, 31⟩⟩] [] ⟨18, 26⟩]
  have single : program.blocks = [.iteration "m" body ⟨0, 13⟩] := by decide +kernel
  have body_local : Block.AllLocal body := by decide
  have registered : engine.templates.AllLocal := by decide
  have segments : (Name.ofText "m").segments = ["m"] := by decide +kernel
  have bound (value : Value Nat) :
      (job value).data.descend? (Name.ofText "m").segments = some value := by
    rw [segments]
    rfl
  have ready (value : Value Nat) : (job value).prepared 0 = .ok (job value).data 0 := rfl
  have agree (value : Value Nat) (holds : value.Holds items) :
      rendered value = rendered (.list items) := by
    have held := engine.render_members (job value) single body_local registered rfl (ready value)
      rfl (bound value) .text
    have listed := engine.render_members (job (.list items)) single body_local registered rfl
      (ready (.list items)) rfl (bound (.list items)) .text
    exact (held.1 items holds).trans (listed.1 items .list).symm
  exact ⟨fun kind => agree _ (.collection 0 kind (Pull.handsOut_ofList items)),
    agree _ (.map rfl)⟩

end Engine

end Stencil
