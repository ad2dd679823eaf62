import Stencil.Render.Run
import Stencil.Context

/-!
# Finding values

How the name in a directive leads to a value. Each segment of a name is a member of the value
before it. Where a value has no such member, a template registered under that name is rendered on
the value, and its text stands in. A computed value is called when it is reached, and an empty
list or map counts as null.

A name that leads nowhere is looked up again in the registered data. A name that climbs starts at
an ancestor, which is found from the root by the path without its last segments, and it does not
fall back to the registered data.
-/

namespace Stencil

/-- What an engine gives to a render. -/
structure Setting (σ : Type) where
  templates : Table Program
  data : Table (Value σ)
  maxDepth : Nat

/-- Where blocks are rendered: the source they belong to, whether placeholders without a value are
written again as tags, and the position in the data. -/
structure Place (σ : Type) where
  source : String
  keepUndefined : Bool
  context : Context σ

/-- How blocks are rendered. -/
abbrev Body (σ : Type) := Place σ → List Block → Eval σ Unit

/-- A level of nesting. -/
structure Level (σ : Type) where
  setting : Setting σ
  /-- How blocks are rendered one level further down, unless the limit is reached here. -/
  below : Option (Body σ)

namespace Level

variable {σ : Type}

def descend (level : Level σ) : Eval σ (Body σ) :=
  match level.below with
  | some body => pure body
  | none => Eval.raise (.maxDepth level.setting.maxDepth)

/-- The text of a template rendered one level further down, where placeholders without a value are
left out. -/
def renderPrivately (level : Level σ) (program : Program) (context : Context σ) :
    Eval σ String := do
  let body ← level.descend
  Eval.capture (body ⟨program.source, false, context⟩ program.blocks)

/-- A value as it is found: called if it is computed, and null if it is an empty list or map. -/
def settle (value : Value σ) : Eval σ (Value σ) := do
  let result ← match value with
    | .computed _ compute => Eval.call compute
    | plain => pure plain
  return if result.isEmptyContainer then .null else result

/-- The member of a value under a name, or the text of the template that stands in for it. -/
def member (level : Level σ) (owner : Context σ) (name : String) : Eval σ (Option (Value σ)) :=
  if owner.current.isNull then pure none
  else
    match owner.current.child? name with
    | some value => some <$> settle value
    | none =>
      match level.setting.templates.find? name with
      | some program => (some ∘ .text) <$> level.renderPrivately program owner
      | none => pure none

/-- The value that segments lead to, one after another. -/
def drill (level : Level σ) (owner : Context σ) : List String → Eval σ (Option (Value σ))
  | [] => pure (some owner.current)
  | segment :: segments => do
    match ← level.member owner segment with
    | none => pure none
    | some value =>
      level.drill { owner with current := value, path := Path.join owner.path segment } segments

/-- The value that segments lead to in the registered data. -/
def drillData (level : Level σ) (root : Value σ) : List String → Eval σ (Option (Value σ))
  | [] => pure none
  | segment :: segments =>
    match level.setting.data.find? segment with
    | none => pure none
    | some value => do level.drill ⟨← settle value, segment, root⟩ segments

/-- The value of a name that does not climb. -/
def find (level : Level σ) (context : Context σ) (segments : List String) :
    Eval σ (Option (Value σ)) := do
  match ← level.drill context segments with
  | some value => pure (some value)
  | none => level.drillData context.root segments

/-- The value of a name at the root of the data. Climbing from there leads to the root itself. -/
def resolveAtRoot (level : Level σ) (root : Value σ) (text : String) :
    Eval σ (Option (Value σ)) := do
  let name := Name.ofText text
  if name.climbs = 0 then level.find (.atRoot root) name.segments
  else
    if 1 < name.climbs then Eval.note (.climbsAboveRoot text "")
    level.drill (.atRoot root) name.segments

/-- The value of a name at a position in the data. The path of the root is empty, which still counts
as one segment. An ancestor is read like a name at the root, so its path may climb in turn. -/
def resolve (level : Level σ) (context : Context σ) (text : String) :
    Eval σ (Option (Value σ)) := do
  let name := Name.ofText text
  if name.climbs = 0 then level.find context name.segments
  else
    let segments := segmentsOf context.path
    if segments.length < name.climbs then Eval.note (.climbsAboveRoot text context.path)
    if segments.length ≤ name.climbs then level.drill (.atRoot context.root) name.segments
    else
      let path := Path.ofSegments (segments.take (segments.length - name.climbs))
      match ← level.resolveAtRoot context.root path with
      | none => pure none
      | some ancestor => level.drill ⟨ancestor, path, context.root⟩ name.segments

end Level

end Stencil
