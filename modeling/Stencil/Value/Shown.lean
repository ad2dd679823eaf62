import Stencil.Value
import Stencil.Decimal.Layout
import Stencil.Text.Quoted

/-!
# Values shown with their kinds

The form in which values appear when an engine is inspected: the kind of each value with its
contents in parentheses.
-/

namespace Stencil.Value

variable {σ : Type}

def shownMap (entries : List String) : String :=
  "\x7b" ++ ", ".intercalate entries ++ "\x7d"

mutual

/-- A value with its kind. -/
def shown : Value σ → String
  | .null => "None"
  | .bool value => "Bool(" ++ (if value then "true" else "false") ++ ")"
  | .integer value => "Integer(" ++ toString value.toInt ++ ")"
  | .float value => "Float(" ++ Decimal.shown.text value ++ ")"
  | .text value => "String(" ++ Text.quote value ++ ")"
  | .list items => "List([" ++ ", ".intercalate (shownItems items) ++ "])"
  | .map entries => "Map(" ++ shownMap (shownEntries entries) ++ ")"
  | .computed .. => "Fn(<function>)"
  | .collection _ .iterator _ => "Collection(<iterator>)"
  | .collection _ .enumerator _ => "Collection(<enumerate>)"

def shownItems : List (Value σ) → List String
  | [] => []
  | item :: items => shown item :: shownItems items

def shownEntries : List (String × Value σ) → List String
  | [] => []
  | (name, value) :: entries => (Text.quote name ++ ": " ++ shown value) :: shownEntries entries

end

end Stencil.Value
