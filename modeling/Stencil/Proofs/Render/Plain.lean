import Stencil.Proofs.Name
import Stencil.Proofs.Value.Plain
import Stencil.Render

/-!
# Finding plain values

On plain data, and without registered templates, finding a value changes nothing and cannot fail:
it is `Value.drilled?`, with the registered data to fall back to.

1. `Level.drill_plain`: what segments lead to.
2. `Level.find_plain`: what a name leads to.
3. `Level.resolve_climb`: what a name that climbs leads to, for any data and templates.
-/

namespace Stencil

variable {σ : Type}

/-- An engine without templates, whose registered data is plain. -/
structure Setting.Plain (setting : Setting σ) : Prop where
  templates : setting.templates = .empty
  data : ∀ entry ∈ setting.data.entries, entry.2.plain = true

def Setting.drilled? (setting : Setting σ) : List String → Option (Value σ)
  | [] => none
  | segment :: segments =>
    (setting.data.find? segment).bind fun value => value.settled.drilled? segments

/-- What segments lead to from a value, or else in the registered data. -/
def Setting.found? (setting : Setting σ) (value : Value σ) (segments : List String) :
    Option (Value σ) :=
  (value.drilled? segments).or (setting.drilled? segments)

theorem Setting.plain_of_find {setting : Setting σ} (plain : setting.Plain) {name : String}
    {value : Value σ} (found : setting.data.find? name = some value) : value.plain = true :=
  Table.Plain.find plain.data found

theorem Setting.Plain.plain_found {setting : Setting σ} (plain : setting.Plain)
    {value found : Value σ} (value_plain : value.plain = true) {segments : List String}
    (leads : setting.found? value segments = some found) : found.plain = true := by
  rcases Option.or_eq_some_iff.mp leads with drilled | ⟨_, drilled⟩
  · exact Value.plain_drilled value_plain drilled
  · cases segments with
    | nil => cases drilled
    | cons segment segments =>
      obtain ⟨registered, present, drilled⟩ := Option.bind_eq_some_iff.mp drilled
      exact Value.plain_drilled (Value.plain_settled (plain_of_find plain present)) drilled

/-- Where some segments lead to a value, one more leads to a member of it. -/
theorem Setting.found?_append {setting : Setting σ} {value reached member : Value σ}
    {segments : List String} {name : String} (found : setting.found? value segments = some reached)
    (present : reached.member? name = some member) :
    setting.found? value (segments ++ [name]) = some member := by
  rw [found?, Option.or_eq_some_iff] at found ⊢
  rw [Value.drilled?_append]
  rcases found with drilled | ⟨absent, drilled⟩
  · left
    rw [drilled, Option.bind_some, Value.drilled?_singleton, present]
  · right
    rw [absent]
    refine ⟨rfl, ?_⟩
    cases segments with
    | nil => cases drilled
    | cons segment segments =>
      obtain ⟨registered, registered_found, drilled⟩ := Option.bind_eq_some_iff.mp drilled
      rw [List.cons_append, drilled?, registered_found, Option.bind_some, Value.drilled?_append,
        drilled, Option.bind_some, Value.drilled?_singleton, present]

/-- What has a member is not null. -/
theorem Value.isNull_of_child {owner value : Value σ} {name : String}
    (found : owner.child? name = some value) : owner.isNull = false := by
  cases owner with
  | null => cases found
  | _ => rfl

namespace Level

variable {level : Level σ}

theorem settle_plain {value : Value σ} (plain : value.plain = true) :
    settle value = pure value.settled := by
  cases value with
  | computed id call => cases plain
  | collection id kind pull => cases plain
  | _ => rfl

/-- A member that is there is found, whatever is registered. -/
theorem member_of_child {owner : Context σ} (plain : owner.current.plain = true) {name : String}
    {value : Value σ} (found : owner.current.member? name = some value) :
    level.member owner name = pure (some value) := by
  obtain ⟨child, present, rfl⟩ := Option.map_eq_some_iff.mp found
  rw [member, Value.isNull_of_child present, present]
  dsimp only
  rw [settle_plain (Value.plain_child plain present)]
  rfl

theorem member_plain (bare : level.setting.templates = .empty) {owner : Context σ}
    (plain : owner.current.plain = true) (name : String) :
    level.member owner name = pure (owner.current.member? name) := by
  cases found : owner.current.member? name with
  | some value => exact member_of_child plain found
  | none =>
    have absent : owner.current.child? name = none := Option.map_eq_none_iff.mp found
    rw [member, absent, bare]
    split <;> rfl

theorem drill_plain (bare : level.setting.templates = .empty) {owner : Context σ}
    (plain : owner.current.plain = true) (segments : List String) :
    level.drill owner segments = pure (owner.current.drilled? segments) := by
  induction segments generalizing owner with
  | nil => rfl
  | cons segment segments ih =>
    rw [drill, member_plain bare plain, pure_bind, Value.drilled?_cons]
    cases found : owner.current.member? segment with
    | none => rfl
    | some value => exact ih (Value.plain_member plain found)

theorem drillData_plain (setting : level.setting.Plain) (root : Value σ)
    (segments : List String) :
    level.drillData root segments = pure (level.setting.drilled? segments) := by
  cases segments with
  | nil => rfl
  | cons segment segments =>
    rw [drillData, Setting.drilled?]
    cases found : level.setting.data.find? segment with
    | none => rfl
    | some value =>
      have plain := Setting.plain_of_find setting found
      dsimp only
      rw [settle_plain plain, pure_bind,
        drill_plain setting.templates (Value.plain_settled plain)]
      rfl

theorem find_plain (setting : level.setting.Plain) {context : Context σ}
    (plain : context.current.plain = true) (segments : List String) :
    level.find context segments = pure (level.setting.found? context.current segments) := by
  rw [find, drill_plain setting.templates plain, pure_bind, Setting.found?]
  cases found : context.current.drilled? segments with
  | some value => rfl
  | none => exact drillData_plain setting context.root segments

theorem resolveAtRoot_plain (setting : level.setting.Plain) {root : Value σ}
    (plain : root.plain = true) {text : String} (stays : (Name.ofText text).climbs = 0) :
    level.resolveAtRoot root text = pure (level.setting.found? root (segmentsOf text)) := by
  rw [resolveAtRoot, Name.ofText_of_climbs_eq_zero stays]
  exact find_plain setting plain _

/-- A name that climbs to the root, and not above it, is read from the root. -/
theorem resolve_climb_to_root {context : Context σ} {text : String} {climbs : Nat}
    {segments : List String} (name : Name.ofText text = ⟨climbs + 1, segments⟩)
    (height : (segmentsOf context.path).length = climbs + 1) :
    level.resolve context text = level.drill (.atRoot context.root) segments := by
  rw [resolve, name]
  simp [height]

/-- A name that climbs less far is read from what the remaining path leads to. -/
theorem resolve_climb {context : Context σ} {text : String} {climbs : Nat}
    {segments kept dropped : List String} (name : Name.ofText text = ⟨climbs + 1, segments⟩)
    (split : segmentsOf context.path = kept ++ dropped) (nonempty : kept ≠ [])
    (height : dropped.length = climbs + 1) :
    level.resolve context text =
      level.resolveAtRoot context.root (Path.ofSegments kept) >>= fun found =>
        match found with
        | none => pure none
        | some ancestor =>
          level.drill ⟨ancestor, Path.ofSegments kept, context.root⟩ segments := by
  have positive : 0 < kept.length := List.length_pos_iff.mpr nonempty
  have count : (segmentsOf context.path).length = kept.length + (climbs + 1) := by
    rw [split, List.length_append, height]
  have above : ¬ (segmentsOf context.path).length < climbs + 1 := by omega
  have below : ¬ (segmentsOf context.path).length ≤ climbs + 1 := by omega
  have path : (segmentsOf context.path).take ((segmentsOf context.path).length - (climbs + 1)) =
      kept := by
    rw [count, Nat.add_sub_cancel, split, List.take_left]
  have resolved := resolve.eq_def level context text
  rw [name] at resolved
  simp only [Nat.add_one_ne_zero, if_false, above, below, path] at resolved
  exact resolved

end Level

end Stencil
