import Stencil.Text.Quoted

/-!
# Notices

Mistakes in a template never stop the library. It notes them, and goes on with the text as it
stands. Notices also tell what an engine was given and which fragments it had to compile.
-/

namespace Stencil

inductive Severity where
  | debug
  | warn
  deriving DecidableEq, Repr

/-- Something that the library notes while it works. -/
inductive Notice where
  /-- A template is registered under a name. -/
  | registeringTemplate (name : String)
  /-- A value is registered under a name. -/
  | registeringData (name : String)
  /-- A saved template is registered under a name. -/
  | registeringSaved (name : String)
  /-- So many saved templates are registered together. -/
  | loadingSaved (count : Nat)
  /-- A text that a value holds is compiled, because it is rendered for the first time. -/
  | compilingFragment (text : String)
  /-- A tag opens and closes with different numbers of braces, and stays text. -/
  | unbalanced (tag : String)
  /-- A tag opens a directive deeper than the limit, and stays text. -/
  | nestedTooDeep (limit : Nat) (tag : String)
  /-- An `else` or `end` has nothing to belong to, and stays text. -/
  | unexpected (tag : String)
  /-- An `if` or `foreach` lacks a name, and is dropped. -/
  | nameless (tag : String)
  /-- These directives, outermost first, are still open at the end of the template. -/
  | missingEnd (tags : List String)
  /-- A name climbs further than its context is deep, and is read from the root. -/
  | climbsAboveRoot (name path : String)
  deriving DecidableEq, Repr

namespace Notice

/-- Mistakes in templates are warnings; the rest tells what was done. -/
def severity : Notice → Severity
  | registeringTemplate _ | registeringData _ | registeringSaved _ | loadingSaved _
  | compilingFragment _ => .debug
  | unbalanced _ | nestedTooDeep _ _ | unexpected _ | nameless _ | missingEnd _
  | climbsAboveRoot _ _ => .warn

def message : Notice → String
  | registeringTemplate name => "registering global template `" ++ name ++ "`"
  | registeringData name => "registering global data `" ++ name ++ "`"
  | registeringSaved name => "registering saved global template `" ++ name ++ "`"
  | loadingSaved count => "loading " ++ toString count ++ " saved global templates"
  | compilingFragment text => "compiling recursive fragment " ++ Text.quote text
  | unbalanced tag => "unbalanced brackets encountered: " ++ tag
  | nestedTooDeep limit tag =>
    "directives nested deeper than " ++ toString limit ++ " are kept as text, starting at `" ++
      tag ++ "`"
  | unexpected tag => "unexpected `" ++ tag ++ "` encountered"
  | nameless tag => "bad directive dropped: " ++ tag
  | missingEnd tags => "missing `\x7b\x7bend\x7d\x7d` for " ++ ", ".intercalate tags
  | climbsAboveRoot name path =>
    "`" ++ name ++ "` climbs above the root from `" ++ path ++ "`, stopping at the root"

end Notice

/-- A result with the notices made on the way to it, in order. -/
structure Noted (α : Type) where
  value : α
  notices : List Notice
  deriving Repr

end Stencil
