import Stencil.Proofs.Render.Lookup

/-!
# Found values are settled

What a name leads to is a value as it was looked up last: under the last segment of the name, as a
member of what the segments in front of it lead to, or in the registered data. Such a value is no
empty list or map, and it is computed only if it was a computed value that gave it. The same holds
of each value that a segment is looked up in, except where a name starts.

1. `Level.LooksUp`: the lookups that finding the value of a name comes to.
2. `Level.settled_of_gives`: what a lookup gives.
3. `Level.resolve_settled`: what a name leads to, and what its segments are looked up in.
-/

namespace Stencil

variable {σ : Type}

/-! ## Lookups -/

/-- A segment of a name, and where it is looked up. -/
inductive Lookup (σ : Type) where
  /-- A member of a value. -/
  | member (owner : Value σ) (segment : String)
  /-- What is registered. -/
  | registered (segment : String)

/-- The value that is stored there. -/
def Lookup.stored? (setting : Setting σ) : Lookup σ → Option (Value σ)
  | .member owner segment => owner.child? segment
  | .registered segment => setting.data.find? segment

namespace Level

/-- To find the value of a name, something is looked up at some moment. A segment is looked up in
what the segments in front of it lead to, from where the name starts. -/
inductive LooksUp (level : Level σ) : Context σ → String → Run σ → Lookup σ → Run σ → Prop where
  /-- A name that does not climb starts at its position. -/
  | position {context : Context σ} {text segment : String} {front back : List String}
      {value : Value σ} {run moment : Run σ} (stays : (Name.ofText text).climbs = 0)
      (split : (Name.ofText text).segments = front ++ segment :: back)
      (drilled : level.drill context front run = .ok (some value) moment) :
      LooksUp level context text run (.member value segment) moment
  /-- A name that leads nowhere is looked up in the registered data. -/
  | registered {context : Context σ} {text segment : String} {back : List String}
      {run moment : Run σ} (stays : (Name.ofText text).climbs = 0)
      (split : (Name.ofText text).segments = segment :: back)
      (nowhere : level.drill context (Name.ofText text).segments run = .ok none moment) :
      LooksUp level context text run (.registered segment) moment
  /-- Then it starts at what is registered under its first segment. -/
  | data {context : Context σ} {text first segment : String} {front back : List String}
      {value : Value σ} {run between moment : Run σ} (stays : (Name.ofText text).climbs = 0)
      (split : (Name.ofText text).segments = first :: (front ++ segment :: back))
      (nowhere : level.drill context (Name.ofText text).segments run = .ok none between)
      (drilled : level.drillData context.root (first :: front) between = .ok (some value) moment) :
      LooksUp level context text run (.member value segment) moment
  /-- A name that climbs starts at its ancestor. -/
  | ancestor {context ancestor : Context σ} {text segment : String} {front back : List String}
      {value : Value σ} {run between moment : Run σ} (climbs : (Name.ofText text).climbs ≠ 0)
      (split : (Name.ofText text).segments = front ++ segment :: back)
      (reached : level.ancestor context text run = .ok (some ancestor) between)
      (drilled : level.drill ancestor front between = .ok (some value) moment) :
      LooksUp level context text run (.member value segment) moment
  /-- The ancestor is what its path leads to at the root. -/
  | path {context : Context σ} {text : String} {lookup : Lookup σ} {run moment : Run σ}
      (climbs : (Name.ofText text).climbs ≠ 0)
      (below : (Name.ofText text).climbs < (segmentsOf context.path).length)
      (looksUp : LooksUp level (.atRoot context.root)
        (Path.ancestor context.path (Name.ofText text).climbs) run lookup moment) :
      LooksUp level context text run lookup moment

/-- What a lookup gives: what is stored there, or the text of a template that stands in. -/
inductive Gives (level : Level σ) : Lookup σ → Run σ → Value σ → Prop where
  | stored {lookup : Lookup σ} {stored value : Value σ} {run moment : Run σ}
      (present : lookup.stored? level.setting = some stored)
      (settles : settle stored run = .ok value moment) : Gives level lookup run value
  | standIn {owner : Value σ} {segment : String} {program : Program}
      (standsIn : level.StandsIn owner segment program) (run : Run σ) (text : String) :
      Gives level (.member owner segment) run (.text text)

/-- A value as the lookups for a name leave it. -/
structure Settled (level : Level σ) (context : Context σ) (text : String) (run : Run σ)
    (value : Value σ) : Prop where
  /-- It is no empty list or map. -/
  full : value.isEmptyContainer = false
  /-- It is computed only if one of the lookups came to a computed value that gave it. -/
  returned : ∀ id compute, value = .computed id compute →
    ∃ lookup moment id' compute' host, level.LooksUp context text run lookup moment ∧
      lookup.stored? level.setting = some (.computed id' compute') ∧
      compute' moment.host = .value host value

variable {level : Level σ} {context owner : Context σ} {text segment : String}
  {segments front back : List String} {value : Value σ} {run between moment : Run σ}

/-! ## What a lookup gives -/

theorem isEmptyContainer_ite_null (value : Value σ) :
    (if value.isEmptyContainer then Value.null else value).isEmptyContainer = false := by
  split
  · rfl
  · next full => exact Bool.eq_false_iff.mpr full

/-- A value that settles has members, if it is a list or a map, and it is computed only if the call
of a computed value gave it. -/
theorem settle_eq_ok {stored : Value σ} (settles : settle stored run = .ok value moment) :
    value.isEmptyContainer = false ∧ ∀ id compute, value = .computed id compute →
      ∃ id' compute' host, stored = .computed id' compute' ∧
        compute' run.host = .value host value := by
  cases stored with
  | computed id' compute' =>
    obtain ⟨result, between, called, kept⟩ := Eval.exists_of_bind_eq_ok settles
    cases kept
    refine ⟨isEmptyContainer_ite_null result, fun id compute same => ?_⟩
    obtain ⟨host, replied⟩ : ∃ host, compute' run.host = .value host result := by
      unfold Eval.call at called
      cases reply : compute' run.host with
      | value host given =>
        rw [reply] at called
        cases called
        exact ⟨host, rfl⟩
      | failure host error =>
        rw [reply] at called
        cases called
    refine ⟨id', compute', host, rfl, ?_⟩
    split at same
    · cases same
    · next full => rwa [if_neg full]
  | null | bool | integer | float | text | collection =>
    cases settles
    exact ⟨rfl, fun _ _ same => nomatch same⟩
  | list | map =>
    cases settles
    refine ⟨isEmptyContainer_ite_null _, fun _ _ same => ?_⟩
    split at same <;> cases same

theorem settled_of_gives {lookup : Lookup σ}
    (looksUp : level.LooksUp context text run lookup between)
    (gives : level.Gives lookup between value) : level.Settled context text run value := by
  cases gives with
  | stored present settles =>
    obtain ⟨full, returned⟩ := settle_eq_ok settles
    refine ⟨full, fun id compute same => ?_⟩
    obtain ⟨id', compute', host, rfl, gave⟩ := returned id compute same
    exact ⟨lookup, between, id', compute', host, looksUp, present, gave⟩
  | standIn standsIn run text => exact ⟨rfl, fun _ _ same => nomatch same⟩

/-- What segments lead to is the value that they start at, or what the lookup of the last one
gives. -/
theorem gives_of_drill (drilled : level.drill owner segments run = .ok (some value) moment) :
    (segments = [] ∧ value = owner.current) ∨
      ∃ front last before between, segments = front ++ [last] ∧
        level.drill owner front run = .ok (some before) between ∧
        level.Gives (.member before last) between value := by
  rcases List.eq_nil_or_concat segments with rfl | ⟨front, last, rfl⟩
  · cases drilled
    exact .inl ⟨rfl, rfl⟩
  rw [List.concat_eq_append, drill_append] at drilled
  obtain ⟨found, between, reached, drilled⟩ := Eval.exists_of_bind_eq_ok drilled
  cases found with
  | none => cases drilled
  | some before =>
    refine .inr ⟨front, last, before, between, List.concat_eq_append .., reached, ?_⟩
    cases leads_iff.mpr drilled with
    | member present settles further =>
      cases further
      exact .stored present settles
    | standIn standsIn rendered further =>
      cases further
      exact .standIn standsIn between _

/-- So it is in the registered data, where the first segment is looked up among what is
registered. -/
theorem gives_of_drillData {root : Value σ}
    (drilled : level.drillData root (segment :: segments) run = .ok (some value) moment) :
    (segments = [] ∧ level.Gives (.registered segment) run value) ∨
      ∃ front last before between, segments = front ++ [last] ∧
        level.drillData root (segment :: front) run = .ok (some before) between ∧
        level.Gives (.member before last) between value := by
  cases leadsInData_iff (List.cons_ne_nil _ _) |>.mpr drilled with
  | registered present settles further =>
    rcases gives_of_drill (leads_iff.mp further) with
      ⟨rfl, rfl⟩ | ⟨front, last, before, between, split, reached, gives⟩
    · exact .inl ⟨rfl, .stored present settles⟩
    · refine .inr ⟨front, last, before, between, split, ?_, gives⟩
      exact (leadsInData_iff (List.cons_ne_nil _ _)).mp
        (.registered present settles (leads_iff.mpr reached))

/-! ## What a name leads to -/

theorem settled_of_resolve (resolved : level.resolve context text run = .ok (some value) moment) :
    level.Settled context text run value := by
  have nonempty : (Name.ofText text).segments ≠ [] := Name.segments_ofText_ne_nil text
  by_cases stays : (Name.ofText text).climbs = 0
  · rw [resolve_of_stays stays, find] at resolved
    obtain ⟨found, between, drilled, resolved⟩ := Eval.exists_of_bind_eq_ok resolved
    cases found with
    | some found =>
      cases resolved
      obtain ⟨front, last, before, between, split, reached, gives⟩ :=
        (gives_of_drill drilled).resolve_left fun start => nonempty start.1
      exact settled_of_gives (.position stays split reached) gives
    | none =>
      obtain ⟨first, rest, split⟩ := List.exists_cons_of_ne_nil nonempty
      rw [split] at resolved
      rcases gives_of_drillData resolved with
        ⟨_, gives⟩ | ⟨front, last, before, between', rfl, reached, gives⟩
      · exact settled_of_gives (.registered stays split drilled) gives
      · exact settled_of_gives (.data stays split drilled reached) gives
  · rw [resolve_of_climbs stays] at resolved
    obtain ⟨found, between, reached, resolved⟩ := Eval.exists_of_bind_eq_ok resolved
    cases found with
    | none => cases resolved
    | some ancestor =>
      obtain ⟨front, last, before, between, split, drilled, gives⟩ :=
        (gives_of_drill resolved).resolve_left fun start => nonempty start.1
      exact settled_of_gives (.ancestor stays split reached drilled) gives

/-- The ancestor is the root, or its path leads there from the root. -/
theorem ancestor_eq_ok {ancestor : Context σ}
    (reached : level.ancestor context text run = .ok (some ancestor) moment) :
    ancestor.current = context.root ∨
      ((Name.ofText text).climbs < (segmentsOf context.path).length ∧
        level.resolve (.atRoot context.root)
          (Path.ancestor context.path (Name.ofText text).climbs) run =
            .ok (some ancestor.current) moment) := by
  rw [Level.ancestor] at reached
  obtain ⟨_, noted_at, noted, reached⟩ := Eval.exists_of_bind_eq_ok reached
  dsimp only at reached
  split at reached
  · cases reached
    exact .inl rfl
  · next below =>
    obtain ⟨found, between, resolved, reached⟩ := Eval.exists_of_bind_eq_ok reached
    have silent : ¬ (segmentsOf context.path).length < (Name.ofText text).climbs :=
      fun above => below (Nat.le_of_lt above)
    rw [Eval.noteClimb, if_neg silent] at noted
    cases noted
    cases found with
    | none => cases reached
    | some found =>
      cases reached
      exact .inr ⟨Nat.lt_of_not_le below, resolved⟩

/-- What the path of an ancestor leads to is what a lookup for the name gives. -/
theorem Settled.of_path (climbs : (Name.ofText text).climbs ≠ 0)
    (below : (Name.ofText text).climbs < (segmentsOf context.path).length)
    (settled : level.Settled (.atRoot context.root)
      (Path.ancestor context.path (Name.ofText text).climbs) run value) :
    level.Settled context text run value := by
  refine ⟨settled.full, fun id compute same => ?_⟩
  obtain ⟨lookup, moment, id', compute', host, looksUp, stored, gave⟩ :=
    settled.returned id compute same
  exact ⟨lookup, moment, id', compute', host, .path climbs below looksUp, stored, gave⟩

/-- A segment is looked up where the name starts, or in what another lookup gives. -/
theorem settled_of_looksUp {lookup : Lookup σ}
    (looksUp : level.LooksUp context text run lookup moment) {owner : Value σ} {segment : String}
    (member : lookup = .member owner segment) :
    owner = context.current ∨ owner = context.root ∨ level.Settled context text run owner := by
  induction looksUp with
  | @position context text _ front back value run moment stays split drilled =>
    cases member
    rcases gives_of_drill drilled with
      ⟨_, start⟩ | ⟨front, last, before, between, rfl, reached, gives⟩
    · exact .inl start
    · rw [List.append_assoc] at split
      exact .inr (.inr (settled_of_gives (.position stays split reached) gives))
  | registered => cases member
  | @data context text first _ front back value run between moment stays split nowhere drilled =>
    cases member
    rcases gives_of_drillData drilled with
      ⟨_, gives⟩ | ⟨front, last, before, between', rfl, reached, gives⟩
    · exact .inr (.inr (settled_of_gives (.registered stays split nowhere) gives))
    · rw [List.append_assoc] at split
      exact .inr (.inr (settled_of_gives (.data stays split nowhere reached) gives))
  | @ancestor context ancestor text _ front back value run between moment climbs split reached
      drilled =>
    cases member
    rcases gives_of_drill drilled with
      ⟨_, rfl⟩ | ⟨front, last, before, between, rfl, drilled, gives⟩
    · rcases ancestor_eq_ok reached with root | ⟨below, resolved⟩
      · exact .inr (.inl root)
      · exact .inr (.inr ((settled_of_resolve resolved).of_path climbs below))
    · rw [List.append_assoc] at split
      exact .inr (.inr (settled_of_gives (.ancestor climbs split reached drilled) gives))
  | path climbs below _ ih =>
    rcases ih member with current | root | settled
    · exact .inr (.inl current)
    · exact .inr (.inl root)
    · exact .inr (.inr (settled.of_path climbs below))

/-- Resolved values are settled. Whatever a name leads to, at any position, level and moment, is no
empty list or map, and it is computed only if one of the lookups for the name came to a computed
value that gave it. So is every value that a segment of the name is looked up in, other than the
value of the position and the root. -/
theorem resolve_settled (level : Level σ) (context : Context σ) (text : String) (run : Run σ) :
    (∀ value moment, level.resolve context text run = .ok (some value) moment →
      level.Settled context text run value) ∧
    ∀ owner segment moment, level.LooksUp context text run (.member owner segment) moment →
      owner = context.current ∨ owner = context.root ∨ level.Settled context text run owner :=
  ⟨fun _ _ => settled_of_resolve, fun _ _ _ looksUp => settled_of_looksUp looksUp rfl⟩

/-- A computed value in a map gives another one, which is left as it is. The host counts the
calls. -/
theorem resolve_settled_returned :
    let inner : Value Nat := .computed 1 fun calls => .value (calls + 1) (.text "x")
    let outer : Value Nat := .computed 0 fun calls => .value (calls + 1) inner
    let holder : Value Nat := .map [("f", outer)]
    let context : Context Nat := .atRoot (.map [("m", holder)])
    let run (calls : Nat) : Run Nat := ⟨calls, .empty, #[], .unlimited⟩
    let level : Level Nat := ofDepth ⟨.empty, .empty, 1⟩ 1
    (level.resolve context "m.f" (run 0) = .ok (some inner) (run 1) ∧
        level.LooksUp context "m.f" (run 0) (.member holder "f") (run 0)) ∧
      level.Settled context "m.f" (run 0) inner ∧
      (holder = context.current ∨ holder = context.root ∨
        level.Settled context "m.f" (run 0) holder) := by
  intro inner outer holder context run level
  have named : Name.ofText "m.f" = ⟨0, ["m", "f"]⟩ := by decide +kernel
  have resolved : level.resolve context "m.f" (run 0) = .ok (some inner) (run 1) := by
    rw [resolve_of_stays (by rw [named]), named]
    rfl
  have looksUp : level.LooksUp context "m.f" (run 0) (.member holder "f") (run 0) := by
    have split : (Name.ofText "m.f").segments = ["m"] ++ "f" :: [] := by rw [named]; rfl
    exact .position (by rw [named]) split rfl
  exact ⟨⟨resolved, looksUp⟩, (resolve_settled level context "m.f" (run 0)).1 _ _ resolved,
    (resolve_settled level context "m.f" (run 0)).2 _ _ _ looksUp⟩

end Level

end Stencil
