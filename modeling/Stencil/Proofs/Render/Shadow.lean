import Stencil.Proofs.Render.Lookup

/-!
# Registered things never shadow data

What a name leads to in plain data is found there, whatever is registered: the templates are not
rendered, and the registered data is not looked at. A name that does not climb falls back to the
registered data as a whole, and only after the templates. A name that climbs does not fall back.

1. `Context.named?`: what a name leads to in plain data when nothing is registered.
2. `Level.exists_resolve_plain`: this is found without registered things, and if it is a value,
   with all of them.
3. `Level.resolve_unshadowed`: the order in which data, templates and registered data are asked.
-/

namespace Stencil

variable {σ : Type}

/-- The position that a climbing name is read from in plain data. -/
def Context.ancestor? (context : Context σ) (text : String) : Option (Context σ) :=
  let climbs := (Name.ofText text).climbs
  if (segmentsOf context.path).length ≤ climbs then some (.atRoot context.root)
  else
    let path := Path.ancestor context.path climbs
    (context.root.drilled? (Name.ofText path).segments).map fun value => ⟨value, path, context.root⟩

/-- What a name leads to in plain data, when nothing is registered. -/
def Context.named? (context : Context σ) (text : String) : Option (Value σ) :=
  let name := Name.ofText text
  if name.climbs = 0 then context.current.drilled? name.segments
  else (context.ancestor? text).bind fun ancestor => ancestor.current.drilled? name.segments

/-- An engine without the templates and the data that are registered. -/
def Setting.bare (setting : Setting σ) : Setting σ :=
  { setting with templates := .empty, data := .empty }

theorem Setting.bare_bare (setting : Setting σ) : setting.bare.Bare := ⟨rfl, rfl⟩

namespace Level

variable {level : Level σ} {context owner : Context σ} {text : String}

/-! ## Names in plain data -/

/-- Where nothing is registered, or where segments lead to a value anyway, drilling plain data gives
what they lead to. -/
theorem drill_sure (plain : owner.current.plain = true) {segments : List String}
    (sure : level.setting.Bare ∨ (owner.current.drilled? segments).isSome) :
    level.drill owner segments = pure (owner.current.drilled? segments) := by
  rcases sure with bare | some
  · exact drill_plain bare.templates plain segments
  · obtain ⟨value, found⟩ := Option.isSome_iff_exists.mp some
    rw [drill_of_drilled? plain found, found]

theorem find_sure (plain : context.current.plain = true) {segments : List String}
    (sure : level.setting.Bare ∨ (context.current.drilled? segments).isSome) :
    level.find context segments = pure (context.current.drilled? segments) := by
  rcases sure with bare | some
  · rw [find_plain bare.plain plain, bare.found?]
  · obtain ⟨value, found⟩ := Option.isSome_iff_exists.mp some
    rw [find, drill_of_drilled? plain found, found]
    rfl

/-- Who climbs all segments of a path, or more, is at the root. -/
theorem ancestor_of_all (all : (segmentsOf context.path).length ≤ (Name.ofText text).climbs) :
    level.ancestor context text =
      Eval.noteClimb text context.path >>= fun _ => pure (some (.atRoot context.root)) := by
  rw [ancestor]
  simp only [all, if_true]

theorem exists_resolve_atRoot {root : Value σ} (plain : root.plain = true) (text : String)
    (run : Run σ) :
    ∃ moment, ∀ level : Level σ,
      level.setting.Bare ∨ (root.drilled? (Name.ofText text).segments).isSome →
        level.resolve (.atRoot root) text run =
          .ok (root.drilled? (Name.ofText text).segments) moment := by
  by_cases stays : (Name.ofText text).climbs = 0
  · refine ⟨run, fun level sure => ?_⟩
    have found : level.find (.atRoot root) _ = _ := find_sure plain sure
    rw [resolve_of_stays stays, found]
    rfl
  · obtain ⟨moment, noted⟩ := Eval.exists_noteClimb_eq_ok text (Context.atRoot root).path run
    have all : (segmentsOf (Context.atRoot root).path).length ≤ (Name.ofText text).climbs := by
      rw [Context.height_atRoot]
      exact Nat.one_le_iff_ne_zero.mpr stays
    refine ⟨moment, fun level sure => ?_⟩
    have found : level.drill (.atRoot root) _ = _ := drill_sure plain sure
    rw [resolve_of_climbs stays, ancestor_of_all all, bind_assoc, Eval.bind_of_ok noted]
    exact congrFun found moment

/-- The position of a climbing name is known, where nothing is registered or where there is one. -/
theorem exists_ancestor_plain (plain : context.root.plain = true) (text : String) (run : Run σ) :
    ∃ moment, ∀ level : Level σ,
      level.setting.Bare ∨ (context.ancestor? text).isSome →
        level.ancestor context text run = .ok (context.ancestor? text) moment := by
  obtain ⟨noted_at, noted⟩ := Eval.exists_noteClimb_eq_ok text context.path run
  unfold Context.ancestor?
  dsimp only
  split
  · next all =>
    refine ⟨noted_at, fun level _ => ?_⟩
    rw [ancestor_of_all all, Eval.bind_of_ok noted]
    rfl
  · next below =>
    obtain ⟨moment, resolved⟩ := exists_resolve_atRoot plain
      (Path.ancestor context.path (Name.ofText text).climbs) noted_at
    refine ⟨moment, fun level sure => ?_⟩
    rw [Option.isSome_map] at sure
    rw [ancestor, Eval.bind_of_ok noted]
    simp only [below, if_false]
    rw [Eval.bind_of_ok (resolved level sure)]
    rfl

theorem plain_ancestor (known : context.All Value.IsPlain) {ancestor : Context σ}
    (found : context.ancestor? text = some ancestor) : ancestor.current.plain = true := by
  unfold Context.ancestor? at found
  dsimp only at found
  split at found
  · cases found
    exact known.root
  · obtain ⟨value, drilled, rfl⟩ := Option.map_eq_some_iff.mp found
    exact Value.plain_drilled known.root drilled

/-- Looking up a name in plain data ends at one moment of the run, with what the name leads to,
whichever level looks it up. Only where the name leads to nothing, it may be otherwise with
registered things. -/
theorem exists_resolve_plain (known : context.All Value.IsPlain) (text : String) (run : Run σ) :
    ∃ moment, ∀ level : Level σ,
      level.setting.Bare ∨ (context.named? text).isSome →
        level.resolve context text run = .ok (context.named? text) moment := by
  unfold Context.named?
  dsimp only
  split
  · next stays =>
    refine ⟨run, fun level sure => ?_⟩
    rw [resolve_of_stays stays, find_sure known.current sure]
    rfl
  · next climbs =>
    obtain ⟨moment, reached⟩ := exists_ancestor_plain known.root text run
    refine ⟨moment, fun level sure => ?_⟩
    cases placed : context.ancestor? text with
    | none =>
      rw [placed] at sure reached
      rw [resolve_of_climbs climbs, Eval.bind_of_ok (reached level (sure.imp_right nofun))]
      rfl
    | some ancestor =>
      rw [placed, Option.bind_some] at sure
      rw [placed] at reached
      rw [resolve_of_climbs climbs, Eval.bind_of_ok (reached level (.inr rfl))]
      dsimp only
      rw [drill_sure (plain_ancestor known placed) sure]
      rfl

/-! ## The order of resolution -/

theorem resolve_of_leads (stays : (Name.ofText text).climbs = 0) {run moment : Run σ}
    {value : Value σ}
    (leads : level.Leads context (Name.ofText text).segments run (some value) moment) :
    level.resolve context text run = .ok (some value) moment := by
  rw [resolve_of_stays stays, find, Eval.bind_of_ok (leads_iff.mp leads)]
  rfl

theorem resolve_eq_ok_iff_of_leads_nowhere (stays : (Name.ofText text).climbs = 0)
    {run between moment : Run σ} {found : Option (Value σ)}
    (nowhere : level.Leads context (Name.ofText text).segments run none between) :
    level.resolve context text run = .ok found moment ↔
      level.LeadsInData context.root (Name.ofText text).segments between found moment := by
  rw [resolve_of_stays stays, find, Eval.bind_of_ok (leads_iff.mp nowhere)]
  exact (leadsInData_iff (Name.segments_ofText_ne_nil text)).symm

theorem resolve_eq_ok_iff_of_ancestor (climbs : (Name.ofText text).climbs ≠ 0)
    {ancestor : Context σ} {run between moment : Run σ} {found : Option (Value σ)}
    (reached : level.ancestor context text run = .ok (some ancestor) between) :
    level.resolve context text run = .ok found moment ↔
      level.Leads ancestor (Name.ofText text).segments between found moment := by
  rw [resolve_of_climbs climbs, Eval.bind_of_ok reached]
  exact leads_iff.symm

/-- Registered things never shadow data. A name that leads to a value in plain data where nothing is
registered leads to it with any registered things, and however rendering one level further down
goes, so no template is rendered for it. Only names that lead to nothing may differ. A name that
does not climb leads to what its segments lead to from the current value, with templates for the
members that are not there, and only if this is nothing, the registered data decides. A name that
climbs leads to what its segments lead to from its ancestor, whatever data is registered. -/
theorem resolve_unshadowed (setting : Setting σ) (depth : Nat) (context : Context σ)
    (text : String) (run : Run σ) :
    let level : Level σ := ofDepth setting depth
    let bare : Level σ := ofDepth setting.bare depth
    let name := Name.ofText text
    (context.All Value.IsPlain →
        (∀ value moment, bare.resolve context text run = .ok (some value) moment →
          ∀ other : Level σ, other.resolve context text run = .ok (some value) moment) ∧
        (level.resolve context text run ≠ bare.resolve context text run →
          ∃ moment, bare.resolve context text run = .ok none moment)) ∧
      (name.climbs = 0 →
        (∀ value moment, level.Leads context name.segments run (some value) moment →
          level.resolve context text run = .ok (some value) moment) ∧
        ∀ between, level.Leads context name.segments run none between →
          ∀ found moment, level.resolve context text run = .ok found moment ↔
            level.LeadsInData context.root name.segments between found moment) ∧
      (name.climbs ≠ 0 → ∀ ancestor between,
        level.ancestor context text run = .ok (some ancestor) between →
          ∀ found moment, level.resolve context text run = .ok found moment ↔
            level.Leads ancestor name.segments between found moment) := by
  intro level bare name
  refine ⟨fun known => ?_, fun stays => ?_, fun climbs ancestor between reached found moment => ?_⟩
  · obtain ⟨ending, resolves⟩ := exists_resolve_plain known text run
    have bare_resolves : bare.resolve context text run = .ok (context.named? text) ending := by
      refine resolves bare (.inl ?_)
      rw [setting_ofDepth]
      exact setting.bare_bare
    cases named : context.named? text with
    | none =>
      rw [named] at bare_resolves
      refine ⟨fun value moment found => ?_, fun _ => ⟨ending, bare_resolves⟩⟩
      rw [bare_resolves] at found
      cases found
    | some value =>
      rw [named] at bare_resolves resolves
      have any_resolves (other : Level σ) :
          other.resolve context text run = .ok (some value) ending := resolves other (.inr rfl)
      refine ⟨fun value' moment found other => ?_, fun differ => ?_⟩
      · rw [bare_resolves] at found
        cases found
        exact any_resolves other
      · exact absurd ((any_resolves level).trans bare_resolves.symm) differ
  · refine ⟨fun value moment leads => resolve_of_leads stays leads, ?_⟩
    exact fun between nowhere found moment => resolve_eq_ok_iff_of_leads_nowhere stays nowhere
  · exact resolve_eq_ok_iff_of_ancestor climbs reached

/-- The data, a template and the registered data share the name `a`, and a template and the
registered data share the name `t`. -/
theorem resolve_unshadowed_shared_names :
    let template : Program := ⟨"T", [.text "T" ⟨0, 1⟩]⟩
    let setting : Setting Unit := ⟨(Table.empty.insert "a" template).insert "t" template,
      ((Table.empty.insert "a" (.text "D")).insert "d" (.text "D")).insert "t" (.text "D"), 1⟩
    let value : Value Unit := .map [("a", .text "A")]
    let context : Context Unit := ⟨value, "m", .map [("m", value)]⟩
    let run : Run Unit := ⟨(), .empty, #[], .unlimited⟩
    let level : Level Unit := ofDepth setting 1
    let bare : Level Unit := ofDepth setting.bare 1
    (context.All Value.IsPlain ∧
        bare.resolve context "a" run = .ok (some (.text "A")) run ∧
        level.Leads context ["t"] run (some (.text "T")) run ∧
        level.Leads context ["d"] run none run ∧
        level.ancestor context "../d" run = .ok (some (.atRoot context.root)) run) ∧
      (∀ other : Level Unit, other.resolve context "a" run = .ok (some (.text "A")) run) ∧
      level.resolve context "t" run = .ok (some (.text "T")) run ∧
      level.resolve context "d" run = .ok (some (.text "D")) run ∧
      level.resolve context "../d" run = .ok none run := by
  intro template setting value context run level bare
  have known : context.All Value.IsPlain := ⟨rfl, rfl⟩
  have resolved : bare.resolve context "a" run = .ok (some (.text "A")) run := rfl
  have registered : setting.templates.find? "t" = some template := by simp [setting]
  have unregistered : setting.templates.find? "d" = none := by simp [setting]
  have in_data : setting.data.find? "d" = some (.text "D") := by simp [setting]
  have alone (owner : Value Unit) (program : Program) : ¬ level.StandsIn owner "d" program :=
    fun stands => nomatch unregistered.symm.trans stands.registered
  have leads : level.Leads context ["t"] run (some (.text "T")) run :=
    .standIn ⟨rfl, rfl, registered⟩ rfl (.arrive _ run)
  have nowhere : level.Leads context ["d"] run none run := .nowhere [] run rfl (alone _)
  have climbing : Name.ofText "../d" = ⟨1, ["d"]⟩ := by decide +kernel
  have reached : level.ancestor context "../d" run = .ok (some (.atRoot context.root)) run := by
    have all : (segmentsOf context.path).length ≤ (Name.ofText "../d").climbs := by decide +kernel
    have silent : Eval.noteClimb "../d" context.path = (pure () : Eval Unit Unit) :=
      if_neg (by decide +kernel)
    rw [ancestor_of_all all, silent]
    rfl
  refine ⟨⟨known, resolved, leads, nowhere, reached⟩, ?_, ?_, ?_, ?_⟩
  · exact ((resolve_unshadowed setting 1 context "a" run).1 known).1 _ _ resolved
  · exact ((resolve_unshadowed setting 1 context "t" run).2.1 rfl).1 _ _ leads
  · have decided := ((resolve_unshadowed setting 1 context "d" run).2.1 rfl).2 run nowhere
    exact (decided _ _).mpr (.registered in_data rfl (.arrive _ run))
  · have read := (resolve_unshadowed setting 1 context "../d" run).2.2
      (by rw [climbing]; exact Nat.one_ne_zero) _ run reached
    rw [climbing] at read
    exact (read _ _).mpr (.nowhere [] run rfl (alone _))

end Level

end Stencil
