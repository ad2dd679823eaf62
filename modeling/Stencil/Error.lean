import Stencil.Span

/-!
# Errors

Why a render or a load can fail, and where. The wording of an error is decided here and nowhere
else. Mistakes in a template are no errors: they are noted, and the text stays as it is.
-/

namespace Stencil

/-- Why a saved template cannot be loaded. -/
inductive LoadFailure where
  /-- The text is not a saved template. -/
  | malformed
  /-- The text is a saved template of another version. -/
  | unsupportedVersion (version : Nat)
  /-- A span does not select a region of the source. -/
  | misfit (span : Span)
  /-- A span of a named template does not select a region of its source. -/
  | misfitIn (name : String) (span : Span)
  deriving DecidableEq, Repr

/-- The version of the saved form that can be loaded. -/
def savedVersion : Nat := 1

/-- Why an operation failed. -/
inductive Cause where
  /-- The host gave this message. -/
  | custom (message : String)
  /-- More levels than allowed would have been open at once. -/
  | maxDepth (limit : Nat)
  | load (failure : LoadFailure)
  /-- The output refused a write, for this reason. -/
  | io (reason : String)
  /-- Something could not be formatted or written, for a reason that is told elsewhere. -/
  | format
  deriving DecidableEq, Repr

/-- A directive that was being evaluated: its span and the source it belongs to. -/
structure Location where
  source : String
  span : Span
  deriving DecidableEq, Repr

/-- A failure, with the innermost directive that was being evaluated. -/
structure Error where
  cause : Cause
  location : Option Location
  deriving DecidableEq, Repr

namespace LoadFailure

def misfitText (span : Span) : String :=
  "span " ++ toString span.start ++ ".." ++ toString span.stop ++ " does not fit the source"

def message : LoadFailure → String
  | malformed => "not a saved template"
  | unsupportedVersion version =>
    "unsupported version " ++ toString version ++ ", expected " ++ toString savedVersion
  | misfit span => misfitText span
  | misfitIn name span => "global template `" ++ name ++ "`: " ++ misfitText span

end LoadFailure

namespace Cause

def message : Cause → String
  | custom text => text
  | maxDepth limit => "reached maximum render depth (" ++ toString limit ++ ")"
  | load failure => "failed to load template: " ++ failure.message
  | io _ => "io error"
  | format => "format error"

def isMaxDepth : Cause → Bool
  | maxDepth _ => true
  | _ => false

end Cause

namespace Error

def ofCause (cause : Cause) : Error := ⟨cause, none⟩

def custom (message : String) : Error := ofCause (.custom message)

def message (error : Error) : String := error.cause.message

/-- The reason that the output gave, if it was the output that failed. -/
def source? (error : Error) : Option String :=
  match error.cause with
  | .io reason => some reason
  | _ => none

/-- Points an error to a directive, unless it points somewhere already. A template without a
source has no directives to point to. -/
def locate (error : Error) (source : String) (span : Span) : Error :=
  match error.location with
  | some _ => error
  | none => if source.isEmpty then error else { error with location := some ⟨source, span⟩ }

/-- The message of an error without a place. The output gives its reason. -/
def unlocated (error : Error) : String :=
  match error.cause with
  | .io reason => error.message ++ ": " ++ reason
  | _ => error.message

def display (error : Error) : String :=
  match error.location with
  | some ⟨_, span⟩ =>
    error.message ++ " between bytes " ++ toString span.start ++ " and " ++ toString span.stop
  | none => error.unlocated

/-- Pointing an error somewhere twice is pointing it to the first place. -/
theorem locate_locate (error : Error) {source : String} (span : Span) (nonempty : source ≠ "")
    (source' : String) (span' : Span) :
    (error.locate source span).locate source' span' = error.locate source span := by
  have shown : source.isEmpty = false := by simpa using nonempty
  cases placed : error.location <;> simp [locate, placed, shown]

/-- The place does not change the cause. -/
theorem cause_locate (error : Error) (source : String) (span : Span) :
    (error.locate source span).cause = error.cause := by
  unfold locate
  split
  · rfl
  · split <;> rfl

end Error

end Stencil
