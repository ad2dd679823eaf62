import Stencil.Proofs.Render.StandIn

/-!
# How a name is looked up

A name that climbs is read from one position, its ancestor, and a name that does not climb from the
position where it stands, or else in the registered data. Reading is to go from value to value:
to a member, or to the text of a template where there is no such member.

1. `Level.resolve_of_stays`, `Level.resolve_of_climbs`: what each kind of name is read from.
2. `Level.Leads`: what segments lead to from a value, with the moments of the run in between.
3. `Level.leads_iff`: this is what drilling gives.
-/

namespace Stencil

variable {σ : Type}

/-! ## Where a name is read from -/

/-- The path of the ancestor that a name climbs to. -/
def Path.ancestor (path : String) (climbs : Nat) : String :=
  ofSegments ((segmentsOf path).take ((segmentsOf path).length - climbs))

/-- The path of the root is empty, which counts as one segment. -/
theorem Context.height_atRoot (root : Value σ) :
    (segmentsOf (Context.atRoot root).path).length = 1 := by
  have one : (segmentsOf "").length = 1 := by decide +kernel
  exact one

def Eval.noteClimb (text path : String) : Eval σ Unit :=
  if (segmentsOf path).length < (Name.ofText text).climbs then note (.climbsAboveRoot text path)
  else pure ()

theorem Eval.exists_noteClimb_eq_ok (text path : String) (run : Run σ) :
    ∃ moment, Eval.noteClimb text path run = .ok () moment := by
  unfold noteClimb
  split
  · exact ⟨_, rfl⟩
  · exact ⟨run, rfl⟩

namespace Level

variable {level : Level σ} {context owner : Context σ} {value : Value σ} {text : String}

/-- The position that a climbing name is read from. -/
def ancestor (level : Level σ) (context : Context σ) (text : String) :
    Eval σ (Option (Context σ)) := do
  Eval.noteClimb text context.path
  let climbs := (Name.ofText text).climbs
  if (segmentsOf context.path).length ≤ climbs then pure (some (.atRoot context.root))
  else
    let path := Path.ancestor context.path climbs
    let found ← level.resolve (.atRoot context.root) path
    pure (found.map fun value => ⟨value, path, context.root⟩)

/-- A name at the root is read like any other name, with the root as the only position. -/
theorem resolveAtRoot_eq (level : Level σ) (root : Value σ) (text : String) :
    level.resolveAtRoot root text = level.resolve (.atRoot root) text := by
  rw [resolveAtRoot, resolve]
  simp only [Context.height_atRoot]
  split
  · rfl
  · next climbing =>
    have all : 1 ≤ (Name.ofText text).climbs := Nat.one_le_iff_ne_zero.mpr climbing
    simp only [all, if_true]
    rfl

theorem resolve_of_stays (stays : (Name.ofText text).climbs = 0) :
    level.resolve context text = level.find context (Name.ofText text).segments := by
  rw [resolve]
  simp only [stays, if_true]

/-- A name that climbs is read from its ancestor, and nowhere else. -/
theorem resolve_of_climbs (climbs : (Name.ofText text).climbs ≠ 0) :
    level.resolve context text = level.ancestor context text >>= fun found =>
      match found with
      | none => pure none
      | some ancestor => level.drill ancestor (Name.ofText text).segments := by
  rw [resolve, ancestor, Eval.noteClimb]
  simp only [climbs, if_false, resolveAtRoot_eq]
  by_cases all : (segmentsOf context.path).length ≤ (Name.ofText text).climbs
  · simp only [all, if_true]
    split <;> simp only [bind_assoc, pure_bind]
  · have silent : ¬ (segmentsOf context.path).length < (Name.ofText text).climbs :=
      fun above => all (Nat.le_of_lt above)
    simp only [all, silent, if_false, bind_assoc, pure_bind]
    refine bind_congr fun found => ?_
    cases found <;> rfl

/-! ## What segments lead to -/

/-- Segments lead from a value to another one, or to nothing, while a run goes from one moment to
another. Each one leads to the member with its name, or else to the text of the template that stands
in for this member. Where there is neither, the segments lead to nothing. -/
inductive Leads (level : Level σ) :
    Context σ → List String → Run σ → Option (Value σ) → Run σ → Prop where
  | arrive (owner : Context σ) (run : Run σ) : Leads level owner [] run (some owner.current) run
  | member {owner : Context σ} {segment : String} {segments : List String} {value settled : Value σ}
      {found : Option (Value σ)} {run run' moment : Run σ}
      (present : owner.current.child? segment = some value)
      (settles : settle value run = .ok settled run')
      (further : Leads level ⟨settled, Path.join owner.path segment, owner.root⟩ segments run'
        found moment) :
      Leads level owner (segment :: segments) run found moment
  | standIn {owner : Context σ} {segment : String} {segments : List String} {program : Program}
      {text : String} {found : Option (Value σ)} {run run' moment : Run σ}
      (standsIn : level.StandsIn owner.current segment program)
      (rendered : level.renderPrivately program owner run = .ok text run')
      (further : Leads level ⟨.text text, Path.join owner.path segment, owner.root⟩ segments run'
        found moment) :
      Leads level owner (segment :: segments) run found moment
  | nowhere {owner : Context σ} {segment : String} (segments : List String) (run : Run σ)
      (absent : owner.current.child? segment = none)
      (alone : ∀ program, ¬ level.StandsIn owner.current segment program) :
      Leads level owner (segment :: segments) run none run

/-- What segments lead to in the registered data: from the value that is registered under the first
one. -/
inductive LeadsInData (level : Level σ) (root : Value σ) :
    List String → Run σ → Option (Value σ) → Run σ → Prop where
  | registered {segment : String} {segments : List String} {value settled : Value σ}
      {found : Option (Value σ)} {run run' moment : Run σ}
      (present : level.setting.data.find? segment = some value)
      (settles : settle value run = .ok settled run')
      (further : level.Leads ⟨settled, segment, root⟩ segments run' found moment) :
      LeadsInData level root (segment :: segments) run found moment
  | unregistered {segment : String} (segments : List String) (run : Run σ)
      (absent : level.setting.data.find? segment = none) :
      LeadsInData level root (segment :: segments) run none run

/-! ## Drilling -/

section

variable {segment : String}

/-- A segment names a member, or a template stands in for one, or neither. -/
theorem present_or_standsIn_or_alone (level : Level σ) (owner : Value σ) (segment : String) :
    (∃ value, owner.child? segment = some value) ∨
      (∃ program, level.StandsIn owner segment program) ∨
      (owner.child? segment = none ∧ ∀ program, ¬ level.StandsIn owner segment program) := by
  cases child : owner.child? segment with
  | some value => exact .inl ⟨value, rfl⟩
  | none =>
    by_cases stands : ∃ program, level.StandsIn owner segment program
    · exact .inr (.inl stands)
    · exact .inr (.inr ⟨rfl, not_exists.mp stands⟩)

theorem drill_of_present (present : owner.current.child? segment = some value)
    (segments : List String) :
    level.drill owner (segment :: segments) = settle value >>= fun settled =>
      level.drill ⟨settled, Path.join owner.path segment, owner.root⟩ segments := by
  rw [drill, member, Value.isNull_of_child present, present, if_neg Bool.false_ne_true]
  dsimp only
  rw [map_eq_pure_bind, bind_assoc]
  rfl

theorem drill_of_standsIn {program : Program}
    (standsIn : level.StandsIn owner.current segment program) (segments : List String) :
    level.drill owner (segment :: segments) =
      level.renderPrivately program owner >>= fun text =>
        level.drill ⟨.text text, Path.join owner.path segment, owner.root⟩ segments := by
  rw [drill, standsIn.member, map_eq_pure_bind, bind_assoc]
  rfl

theorem drill_of_alone (absent : owner.current.child? segment = none)
    (alone : ∀ program, ¬ level.StandsIn owner.current segment program)
    (segments : List String) : level.drill owner (segment :: segments) = pure none := by
  have nothing : level.member owner segment = pure none := by
    rw [member, absent]
    cases present : owner.current.isNull with
    | true => rfl
    | false =>
      cases registered : level.setting.templates.find? segment with
      | none => rfl
      | some program => exact absurd ⟨present, absent, registered⟩ (alone program)
  rw [drill, nothing, pure_bind]

end

/-- What segments lead to is what drilling gives. -/
theorem leads_iff {segments : List String} {run moment : Run σ} {found : Option (Value σ)} :
    level.Leads owner segments run found moment ↔
      level.drill owner segments run = .ok found moment := by
  constructor
  · intro leads
    induction leads with
    | arrive owner run => rfl
    | member present settles further ih =>
      rw [drill_of_present present, Eval.bind_of_ok settles]
      exact ih
    | standIn standsIn rendered further ih =>
      rw [drill_of_standsIn standsIn, Eval.bind_of_ok rendered]
      exact ih
    | nowhere segments _ absent alone =>
      rw [drill_of_alone absent alone]
      rfl
  · intro drilled
    induction segments generalizing owner run with
    | nil =>
      cases drilled
      exact .arrive owner _
    | cons segment segments ih =>
      rcases level.present_or_standsIn_or_alone owner.current segment with
        ⟨value, present⟩ | ⟨program, standsIn⟩ | ⟨absent, alone⟩
      · rw [drill_of_present present] at drilled
        obtain ⟨settled, run', settles, further⟩ := Eval.exists_of_bind_eq_ok drilled
        exact .member present settles (ih further)
      · rw [drill_of_standsIn standsIn] at drilled
        obtain ⟨text, run', rendered, further⟩ := Eval.exists_of_bind_eq_ok drilled
        exact .standIn standsIn rendered (ih further)
      · rw [drill_of_alone absent alone] at drilled
        cases drilled
        exact .nowhere segments _ absent alone

theorem leadsInData_iff {root : Value σ} {segments : List String} (nonempty : segments ≠ [])
    {run moment : Run σ} {found : Option (Value σ)} :
    level.LeadsInData root segments run found moment ↔
      level.drillData root segments run = .ok found moment := by
  cases segments with
  | nil => exact absurd rfl nonempty
  | cons segment segments =>
    rw [drillData]
    constructor
    · rintro (⟨present, settles, further⟩ | ⟨_, _, absent⟩)
      · rw [present]
        exact (Eval.bind_of_ok settles _).trans (leads_iff.mp further)
      · rw [absent]
        rfl
    · intro drilled
      cases registered : level.setting.data.find? segment with
      | none =>
        rw [registered] at drilled
        cases drilled
        exact .unregistered segments run registered
      | some value =>
        rw [registered] at drilled
        obtain ⟨settled, run', settles, further⟩ := Eval.exists_of_bind_eq_ok drilled
        exact .registered registered settles (leads_iff.mpr further)

end Level

end Stencil
