import Stencil.Render.Resolve
import Stencil.Value.Text
import Stencil.Text.Html

/-!
# Rendering blocks

What each kind of block writes. A branch, a body, a fragment and a registered template are each
rendered one level further down. Failures point to the innermost directive that was being
evaluated.
-/

namespace Stencil

/-- Whether a text holds the opening braces of a tag. -/
def hasTag : List Char → Bool
  | '\x7b' :: '\x7b' :: _ => true
  | _ :: rest => hasTag rest
  | [] => false

/-- Whether a text begins like a tag and ends like one. -/
def isTagged (text : List Char) : Bool :=
  ['\x7b', '\x7b'].isPrefixOf text && ['\x7d', '\x7d'].isSuffixOf text

namespace Level

variable {σ : Type}

/-- Writes the value of a placeholder. If it is recursive and its text holds a tag, the text is
rendered as a template in the same place. It is escaped before it is compiled, so that what the
fragment writes is not escaped again. -/
def placeholder (level : Level σ) (place : Place σ) (p : Placeholder) : Eval σ Unit := do
  match ← level.resolve place.context p.name with
  | none => if place.keepUndefined then Eval.emit .undefined p.toSource
  | some .null => pure ()
  | some value =>
    let text := if p.escape then Text.escapeHtml value.toText else value.toText
    if p.recursive && hasTag text.toList then
      let body ← level.descend
      let program ← Eval.fragment text
      body { place with source := program.source } program.blocks
    else Eval.emit .value text

/-- Whether a value selects the first branch of a condition. A recursive condition renders a text
that looks like a tag, and asks whether that gives any text. -/
def holds (level : Level σ) (context : Context σ) (recursive : Bool) (value : Value σ) :
    Eval σ Bool :=
  match value with
  | .text text =>
    if recursive && isTagged text.toList then do
      let body ← level.descend
      let program ← Eval.fragment text
      let rendered ← Eval.capture (body ⟨program.source, false, context⟩ program.blocks)
      return rendered != ""
    else pure (text != "")
  | other => pure other.truthy

/-- Renders one of two branches. An empty branch opens no level, so it cannot exceed the limit. -/
def condition (level : Level σ) (place : Place σ) (name : String) (recursive : Bool)
    (yes no : List Block) : Eval σ Unit := do
  let selected ← match ← level.resolve place.context name with
    | none => pure false
    | some value => level.holds place.context recursive value
  let branch := if selected then yes else no
  unless branch.isEmpty do
    let body ← level.descend
    body place branch

/-- Renders a body for each member of a value, unless the value is null, empty or the like. -/
def iteration (level : Level σ) (place : Place σ) (name : String) (inner : List Block) :
    Eval σ Unit := do
  match ← level.resolve place.context name with
  | none => pure ()
  | some value =>
    if value.truthy && !inner.isEmpty then
      let body ← level.descend
      let path := Path.item place.context.path name
      Eval.forEachMember value fun item =>
        body { place with context := ⟨item, path, place.context.root⟩ } inner

def block (level : Level σ) (place : Place σ) : Block → Eval σ Unit
  | .text content _ => Eval.emit .literal content
  | .placeholder p => Eval.locate place.source p.span (level.placeholder place p)
  | .condition name recursive yes no span =>
    Eval.locate place.source span (level.condition place name recursive yes no)
  | .iteration name inner span =>
    Eval.locate place.source span (level.iteration place name inner)

end Level

/-- Renders blocks where `depth` further levels may be opened. -/
def renderBlocks {σ : Type} (setting : Setting σ) : Nat → Place σ → List Block → Eval σ Unit
  | 0, place, blocks => blocks.forM (Level.block ⟨setting, none⟩ place)
  | depth + 1, place, blocks =>
    blocks.forM (Level.block ⟨setting, some (renderBlocks setting depth)⟩ place)

end Stencil
