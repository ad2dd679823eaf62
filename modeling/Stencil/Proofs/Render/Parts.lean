import Stencil.Render

/-!
# The parts of directives

A placeholder and a condition look a name up before they do anything else. What they do then is told
apart here, so that a property of directives can be shown part by part.

1. `Level.placeholder_eq`: a placeholder writes the value that was found, if it is not null.
2. `Level.condition_eq`: a condition is a decision, and then one of its branches.
-/

namespace Stencil

variable {σ : Type}

/-- The text of a placeholder for a value. -/
def Placeholder.textOf (p : Placeholder) (value : Value σ) : String :=
  if p.escape then Text.escapeHtml value.toText else value.toText

namespace Level

/-- What a placeholder does with a value that is not null. -/
def write (level : Level σ) (place : Place σ) (p : Placeholder) (value : Value σ) : Eval σ Unit :=
  if p.recursive && hasTag (p.textOf value).toList then do
    let body ← level.descend
    let program ← Eval.fragment (p.textOf value)
    body { place with source := program.source } program.blocks
  else Eval.emit .value (p.textOf value)

theorem placeholder_eq (level : Level σ) (place : Place σ) (p : Placeholder) :
    level.placeholder place p = level.resolve place.context p.name >>= fun found =>
      match found with
      | none => if place.keepUndefined then Eval.emit .undefined p.toSource else pure ()
      | some value => if value.isNull then pure () else level.write place p value := by
  rw [placeholder]
  congr 1
  funext found
  cases found with
  | none => rfl
  | some value => cases value <;> rfl

/-- Which branch of a condition is selected. -/
def decision (level : Level σ) (context : Context σ) (name : String) (recursive : Bool) :
    Eval σ Bool := do
  match ← level.resolve context name with
  | none => pure false
  | some value => level.holds context recursive value

/-- Renders one of two branches, if there is anything in it. -/
def branch (level : Level σ) (place : Place σ) (blocks : List Block) : Eval σ Unit := do
  unless blocks.isEmpty do
    let body ← level.descend
    body place blocks

theorem condition_eq (level : Level σ) (place : Place σ) (name : String) (recursive : Bool)
    (yes no : List Block) :
    level.condition place name recursive yes no =
      level.decision place.context name recursive >>= fun selected =>
        level.branch place (if selected then yes else no) := by
  rw [condition, decision, bind_assoc]
  congr 1
  funext found
  cases found <;> rfl

end Level

end Stencil
