import Stencil.Proofs.Render.Iterate
import Stencil.Proofs.Render.Outcome

/-!
# Climbing out of iterations

Inside an iteration, the first group `../` is meant to lead to the collection that is iterated, and
the second one to the value that holds it. An ancestor is found by reading the path again from the
root. An iteration puts the segment `[item]` into the path, and where an ancestor lies inside
another iteration, this segment is read as the name of a member.

1. `Context.segments_of_mem_enterAll`: the path inside iterations.
2. `Level.resolve_outermost`: from an outermost iteration the names lead where they should,
   whatever is registered.
3. `climbs_nested_iff`: from any iteration they do so exactly if the path of what holds the
   collection, with `[item]` read as a name, leads to a value with the same members.
-/

namespace Stencil

variable {σ : Type}

/-! ## Paths -/

/-- The segments that iterations inside each other put into the path. -/
def Path.ofIterations (names : List String) : List String :=
  names.flatMap fun name => [name, "[item]"]

namespace Context

variable {start context : Context σ} {names : List String}

theorem root_of_mem_enterAll (mem : context ∈ start.enterAll names) :
    context.root = start.root := by
  induction names generalizing start with
  | nil =>
    rw [enterAll, List.mem_singleton] at mem
    rw [mem]
  | cons name names ih =>
    obtain ⟨inner, inner_mem, mem⟩ := List.mem_flatMap.mp mem
    obtain ⟨collection, _, item, _, rfl⟩ := mem_enter.mp inner_mem
    have later := ih mem
    exact later

/-- Iterations inside each other put their names into the path, each with `[item]` behind it. -/
theorem segments_of_mem_enterAll (free : ∀ name ∈ names, PointFree name)
    (mem : context ∈ start.enterAll names) :
    Path.segments context.path = Path.segments start.path ++ Path.ofIterations names := by
  induction names generalizing start with
  | nil =>
    rw [enterAll, List.mem_singleton] at mem
    rw [mem]
    simp [Path.ofIterations]
  | cons name names ih =>
    obtain ⟨inner, inner_mem, mem⟩ := List.mem_flatMap.mp mem
    obtain ⟨collection, _, item, _, rfl⟩ := mem_enter.mp inner_mem
    rw [ih (fun other mem => free other (List.mem_cons_of_mem _ mem)) mem,
      Path.segments_item (free name List.mem_cons_self)]
    simp [Path.ofIterations]

end Context

theorem Path.pointFree_ofIterations {names : List String} (free : ∀ name ∈ names, PointFree name) :
    ∀ segment ∈ Path.ofIterations names, PointFree segment := by
  intro segment mem
  obtain ⟨name, name_mem, mem⟩ := List.mem_flatMap.mp mem
  simp only [List.mem_cons, List.not_mem_nil, or_false] at mem
  rcases mem with rfl | rfl
  · exact free _ name_mem
  · decide

/-- A path into iterations is no name that climbs. -/
theorem Path.climbs_ofIterations {names : List String} (free : ∀ name ∈ names, PointFree name)
    {rest : List String} (rest_free : ∀ segment ∈ rest, PointFree segment)
    (short : rest.length ≤ 1) (nonempty : Path.ofIterations names ++ rest ≠ []) :
    (Name.ofText (Path.ofSegments (Path.ofIterations names ++ rest))).climbs = 0 ∧
      segmentsOf (Path.ofSegments (Path.ofIterations names ++ rest)) =
        Path.ofIterations names ++ rest := by
  have split := segmentsOf_ofSegments nonempty fun segment mem =>
    (List.mem_append.mp mem).elim (pointFree_ofIterations free segment) (rest_free segment)
  refine ⟨Name.climbs_eq_zero fun others same => ?_, split⟩
  rw [split] at same
  cases names with
  | nil =>
    rw [ofIterations, List.flatMap_nil, List.nil_append] at same
    rw [same] at short
    simp at short
  | cons name names =>
    simp only [ofIterations, List.flatMap_cons, List.cons_append, List.cons.injEq] at same
    exact absurd same.2.1 (by decide)

namespace Level

variable {level : Level σ}

/-! ## Ancestors -/

variable {root : Value σ} {name rest : String}

theorem ofText_climb_once (stays : (Name.ofText rest).climbs = 0) :
    Name.ofText ("../" ++ rest) = ⟨0 + 1, segmentsOf rest⟩ := by
  rw [Name.ofText_climb, Name.ofText_of_climbs_eq_zero stays]

theorem ofText_climb_twice (stays : (Name.ofText rest).climbs = 0) :
    Name.ofText ("../../" ++ rest) = ⟨1 + 1, segmentsOf rest⟩ := by
  have split : "../../" ++ rest = "../" ++ ("../" ++ rest) := by
    rw [← String.append_assoc]
    rfl
  rw [split, Name.ofText_climb, ofText_climb_once stays]

/-- In the body of an outermost iteration, the first group `../` leads to the collection and the
second one to the root, whatever is registered. -/
theorem resolve_outermost {collection : Value σ} (plain : root.plain = true)
    (free : PointFree name) (iterated : root.member? name = some collection) {body : Context σ}
    (entered : body ∈ (Context.atRoot root).enter name) (stays : (Name.ofText rest).climbs = 0) :
    level.resolve body ("../" ++ rest) =
        level.drill ⟨collection, name, root⟩ (segmentsOf rest) ∧
      level.resolve body ("../../" ++ rest) = level.drill (.atRoot root) (segmentsOf rest) := by
  obtain ⟨body_path, body_root⟩ := Context.path_of_mem_enter entered
  have path : segmentsOf body.path = [name] ++ ["[item]"] := by
    rw [body_path]
    exact Path.segmentsOf_item free
  constructor
  · have back : level.resolveAtRoot root name = pure (some collection) := by
      have segments := segmentsOf_of_pointFree free
      have name_stays : (Name.ofText name).climbs = 0 := Name.climbs_eq_zero (by simp [segments])
      have found : level.member (.atRoot root) name = pure (some collection) :=
        member_of_child plain iterated
      rw [resolveAtRoot, Name.ofText_of_climbs_eq_zero name_stays, segments]
      simp only [if_true, find, drill, found, pure_bind]
    have only : Path.ofSegments [name] = name := String.intercalate_singleton
    rw [resolve_climb (ofText_climb_once stays) path (by simp) rfl, only, body_root]
    show level.resolveAtRoot root name >>= _ = _
    rw [back]
    rfl
  · have height : (segmentsOf body.path).length = 1 + 1 := by
      rw [path]
      rfl
    rw [resolve_climb_to_root (ofText_climb_twice stays) height, body_root]
    rfl

/-- Without templates, an ancestor inside of iterations is what its path leads to as a name. -/
theorem resolve_ancestor (setting : level.setting.Plain) (plain : root.plain = true)
    {context : Context σ} (context_root : context.root = root) {text : String} {climbs : Nat}
    {segments kept dropped : List String} (name : Name.ofText text = ⟨climbs + 1, segments⟩)
    (split : segmentsOf context.path = kept ++ dropped) (height : dropped.length = climbs + 1)
    (nonempty : kept ≠ []) (stays : (Name.ofText (Path.ofSegments kept)).climbs = 0)
    (joined : segmentsOf (Path.ofSegments kept) = kept) :
    level.resolve context text =
      pure ((level.setting.found? root kept).bind fun ancestor => ancestor.drilled? segments) := by
  rw [resolve_climb name split nonempty height, context_root,
    resolveAtRoot_plain setting plain stays, joined, pure_bind]
  cases found : level.setting.found? root kept with
  | none => rfl
  | some ancestor => exact drill_plain setting.templates (setting.plain_found plain found) segments

/-! ## Iterations inside each other -/

variable {outer : List String} {holder body : Context σ} {collection : Value σ}

/-- The two ancestors of a body are what the path leads to, with and without its last name. -/
theorem resolve_nested (setting : level.setting.Plain) (plain : root.plain = true)
    (free : ∀ other ∈ outer ++ [name], PointFree other)
    (around : holder ∈ (Context.atRoot root).enterAll outer) (entered : body ∈ holder.enter name)
    (stays : (Name.ofText rest).climbs = 0) :
    level.resolve body ("../" ++ rest) =
        pure ((level.setting.found? root (Path.ofIterations outer ++ [name])).bind
          fun ancestor => ancestor.drilled? (segmentsOf rest)) ∧
      level.resolve body ("../../" ++ rest) =
        pure ((level.setting.found? root (Path.ofIterations outer)).bind
          fun ancestor => ancestor.drilled? (segmentsOf rest)) := by
  have outer_free : ∀ other ∈ outer, PointFree other := fun other mem =>
    free other (List.mem_append_left _ mem)
  have name_free : PointFree name := free name (by simp)
  have holder_root : holder.root = root := Context.root_of_mem_enterAll around
  have holder_path : Path.segments holder.path = Path.ofIterations outer := by
    rw [Context.segments_of_mem_enterAll outer_free around]
    rfl
  obtain ⟨body_path, body_root⟩ := Context.path_of_mem_enter entered
  rw [holder_root] at body_root
  have path : segmentsOf body.path = Path.ofIterations outer ++ [name, "[item]"] := by
    rw [body_path, Path.segmentsOf_item name_free, holder_path]
  constructor
  · have nonempty : Path.ofIterations outer ++ [name] ≠ [] := by simp
    obtain ⟨kept_stays, joined⟩ :=
      Path.climbs_ofIterations outer_free (by simpa using name_free) (Nat.le_refl _) nonempty
    have split : segmentsOf body.path =
        (Path.ofIterations outer ++ [name]) ++ ["[item]"] := by
      rw [path]
      simp
    exact resolve_ancestor setting plain body_root (ofText_climb_once stays) split rfl nonempty
      kept_stays joined
  · cases outer with
    | nil =>
      have height : (segmentsOf body.path).length = 1 + 1 := by
        rw [path]
        rfl
      rw [resolve_climb_to_root (ofText_climb_twice stays) height, body_root]
      exact drill_plain setting.templates plain _
    | cons first outer =>
      have nonempty : Path.ofIterations (first :: outer) ++ [] ≠ [] := by simp [Path.ofIterations]
      obtain ⟨kept_stays, joined⟩ :=
        Path.climbs_ofIterations outer_free (by simp) (by simp) nonempty
      rw [List.append_nil] at nonempty kept_stays joined
      exact resolve_ancestor setting plain body_root (ofText_climb_twice stays) path rfl nonempty
        kept_stays joined

/-- Where the outermost collection is a list and nothing is registered, names that climb out of an
iteration inside lead nowhere, since no item of a list has the name `[item]`. -/
theorem resolve_nested_list (bare : level.setting.Bare) (plain : root.plain = true) {first : String}
    (free : ∀ other ∈ (first :: outer) ++ [name], PointFree other) {items : List (Value σ)}
    (list : root.member? first = some (.list items))
    (around : holder ∈ (Context.atRoot root).enterAll (first :: outer))
    (entered : body ∈ holder.enter name) (stays : (Name.ofText rest).climbs = 0) :
    level.resolve body ("../" ++ rest) = pure none ∧
      level.resolve body ("../../" ++ rest) = pure none := by
  have no_position : Value.position? "[item]" = none := by decide +kernel
  have nowhere : ∀ more, level.setting.found? root (first :: "[item]" :: more) = none := by
    intro more
    rw [bare.found?, Value.drilled?_cons, list, Option.bind_some, Value.drilled?_cons,
      Value.member?, Value.child?, no_position]
    rfl
  obtain ⟨once, twice⟩ := resolve_nested bare.plain plain free around entered stays
  rw [once, twice]
  simp only [Path.ofIterations, List.flatMap_cons, List.cons_append, nowhere]
  exact ⟨rfl, rfl⟩

/-- What the groups `../` are meant to lead to in a body: the first one to the collection, and the
second one to the value that holds it, for all names behind them. -/
def Climbs (level : Level σ) (body : Context σ) (collection holder : Value σ) (run : Run σ) :
    Prop :=
  ∀ rest, (Name.ofText rest).climbs = 0 →
    level.resolve body ("../" ++ rest) run = .ok (collection.drilled? (segmentsOf rest)) run ∧
      level.resolve body ("../../" ++ rest) run = .ok (holder.drilled? (segmentsOf rest)) run

theorem climbs_nested (setting : level.setting.Plain) (plain : root.plain = true)
    (free : ∀ other ∈ outer ++ [name], PointFree other)
    (around : holder ∈ (Context.atRoot root).enterAll outer) (entered : body ∈ holder.enter name)
    (iterated : holder.current.member? name = some collection) (run : Run σ) :
    level.Climbs body collection holder.current run ↔
      ∃ reached, level.setting.found? root (Path.ofIterations outer) = some reached ∧
        ∀ rest, (Name.ofText rest).climbs = 0 →
          reached.drilled? (segmentsOf rest) = holder.current.drilled? (segmentsOf rest) := by
  have name_segments : segmentsOf name = [name] := segmentsOf_of_pointFree (free name (by simp))
  have name_stays : (Name.ofText name).climbs = 0 := Name.climbs_eq_zero (by simp [name_segments])
  constructor
  · intro documented
    have second : ∀ rest, (Name.ofText rest).climbs = 0 →
        (level.setting.found? root (Path.ofIterations outer)).bind
          (fun ancestor => ancestor.drilled? (segmentsOf rest)) =
        holder.current.drilled? (segmentsOf rest) := by
      intro rest stays
      have leads := (documented rest stays).2
      rw [(resolve_nested setting plain free around entered stays).2] at leads
      exact (EStateM.Result.ok.inj leads).1
    have of_name := second name name_stays
    rw [name_segments, Value.drilled?_singleton, iterated] at of_name
    obtain ⟨reached, found, _⟩ := Option.bind_eq_some_iff.mp of_name
    refine ⟨reached, found, fun rest stays => ?_⟩
    have same := second rest stays
    rwa [found] at same
  · rintro ⟨reached, found, same⟩ rest stays
    obtain ⟨first, second⟩ := resolve_nested setting plain free around entered stays
    have of_name := same name name_stays
    rw [name_segments, Value.drilled?_singleton, Value.drilled?_singleton, iterated] at of_name
    have longer := Setting.found?_append found of_name
    rw [first, second, longer, found]
    refine ⟨rfl, ?_⟩
    rw [← same rest stays]
    rfl

end Level

/-- Iterations inside each other render the innermost body at the positions that they enter. In
each of these bodies the groups `../` lead where they are meant to exactly if the path of the value
that holds the collection, with `[item]` read as a name, leads to a value in which the same names
lead to the same. -/
theorem climbs_nested_iff {setting : Setting σ} (setting_plain : setting.Plain) {root : Value σ}
    (plain : root.plain = true) {outer : List String} {name : String}
    (free : ∀ other ∈ outer ++ [name], PointFree other) :
    ((∀ other ∈ outer ++ [name], setting.data.find? other = none) →
      ∀ tags : List (String × Span), tags.map Prod.fst = outer ++ [name] →
      ∀ inner : List Block, inner ≠ [] → ∀ source keepUndefined depth,
        renderBlocks setting (tags.length + depth) ⟨source, keepUndefined, .atRoot root⟩
            (Block.nest tags inner) =
          (((Context.atRoot root).enterAll outer).flatMap fun holder => holder.enter name).forM
            fun body => Eval.locateAll source (tags.map Prod.snd)
              (renderBlocks setting depth ⟨source, keepUndefined, body⟩ inner)) ∧
    ∀ below, ∀ holder ∈ (Context.atRoot root).enterAll outer,
      ∀ collection, holder.current.member? name = some collection →
      ∀ body ∈ holder.enter name, ∀ run,
        Level.Climbs ⟨setting, below⟩ body collection holder.current run ↔
          ∃ reached, setting.found? root (Path.ofIterations outer) = some reached ∧
            ∀ rest, (Name.ofText rest).climbs = 0 →
              reached.drilled? (segmentsOf rest) = holder.current.drilled? (segmentsOf rest) := by
  constructor
  · intro unregistered tags names inner nonempty source keepUndefined depth
    have names_mem : ∀ tag ∈ tags, tag.1 ∈ outer ++ [name] := by
      intro tag mem
      rw [← names]
      exact List.mem_map_of_mem mem
    rw [renderBlocks_nest setting_plain (fun tag mem => free _ (names_mem tag mem))
      (fun tag mem => unregistered _ (names_mem tag mem)) nonempty depth plain, names,
      Context.enterAll_concat]
  · intro below holder around collection iterated body entered run
    have level_plain : (Level.mk setting below).setting.Plain := setting_plain
    exact Level.climbs_nested level_plain plain free around entered iterated run

/-- In two lists, the names lead nowhere. -/
theorem climbs_nested_iff_two_lists :
    let row : Value Unit := .map [("m", .list [.integer 1]), ("r", .text "x")]
    let root : Value Unit := .map [("g", .list [row])]
    let setting : Setting Unit := ⟨.empty, .empty, 64⟩
    let body : Context Unit := ⟨.integer 1, "g.[item].m.[item]", root⟩
    (∀ span : Span, ∀ inner : List Block, inner ≠ [] →
      renderBlocks setting 2 ⟨"", false, .atRoot root⟩
          [.iteration "g" [.iteration "m" inner span] span] =
        [body].forM fun body => Eval.locateAll "" [span, span]
          (renderBlocks setting 0 ⟨"", false, body⟩ inner)) ∧
      ¬ Level.Climbs ⟨setting, none⟩ body (.list [.integer 1]) row
        (Engine.new.begin .text ()) := by
  intro row root setting body
  have bare : setting.Bare := ⟨rfl, rfl⟩
  let holder : Context Unit := ⟨row, "g.[item]", root⟩
  have around : holder ∈ (Context.atRoot root).enterAll ["g"] := List.mem_singleton.mpr rfl
  have entered : body ∈ holder.enter "m" := List.mem_singleton.mpr rfl
  have plain : root.plain = true := rfl
  have free : ∀ other ∈ ["g"] ++ ["m"], PointFree other := by decide
  obtain ⟨rendered, climbs⟩ := climbs_nested_iff bare.plain plain free
  constructor
  · intro span inner nonempty
    exact rendered (fun _ _ => rfl) [("g", span), ("m", span)] rfl inner nonempty "" false 0
  · intro documented
    obtain ⟨reached, found, _⟩ :=
      (climbs none holder around _ rfl body entered (Engine.new.begin .text ())).mp documented
    have nowhere : setting.found? root (Path.ofIterations ["g"]) = none := by rfl
    rw [nowhere] at found
    cases found

/-- The second group `../` should lead from the inner iteration to the row that holds its
collection, whose member `r` is the text `x`. The render writes nothing. -/
theorem render_climbing_out_of_two_iterations :
    let row : Value Unit := .map [("m", .list [.integer 1]), ("r", .text "x")]
    let root : Value Unit := .map [("g", .list [row])]
    let program := (Program.compile ("\x7b\x7bforeach g\x7d\x7d\x7b\x7bforeach m\x7d\x7d" ++
      "\x7b\x7b\x7b../../r\x7d\x7d\x7d\x7b\x7bend\x7d\x7d\x7b\x7bend\x7d\x7d")).value
    (((Context.atRoot root).enterAll ["g"]).flatMap fun holder => (holder.enter "m").map fun _ =>
        (holder.current.drilled? ["r"]).map Value.toText) = [some "x"] ∧
      ((Engine.new.render ⟨program, root, false, none, false, none⟩ .text ()).text).toOption =
        some "" := by
  decide +kernel

end Stencil
