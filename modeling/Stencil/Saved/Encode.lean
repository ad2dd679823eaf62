import Stencil.Block
import Stencil.Error
import Stencil.Json.Printer

/-!
# Saved templates: writing

A saved template is a JSON document with a version, the source and the blocks. Each block is an
object with one field, named for its kind. The templates of an engine are saved together, by name.
-/

namespace Stencil

def Span.toJson (span : Span) : Json :=
  .record [("m", .nat span.start), ("n", .nat span.stop)]

def Placeholder.toJson (p : Placeholder) : Json :=
  .record [("name", .text p.name), ("recursive", .bool p.recursive), ("escape", .bool p.escape),
    ("span", p.span.toJson)]

mutual

def Block.toJson : Block → Json
  | .text content span =>
    .record [("Text", .record [("text", .text content), ("span", span.toJson)])]
  | .placeholder p => .record [("Placeholder", p.toJson)]
  | .condition name recursive yes no span =>
    .record [("Condition", .record [("name", .text name), ("recursive", .bool recursive),
      ("then_branch", .array (Block.listToJson yes)), ("else_branch", .array (Block.listToJson no)),
      ("span", span.toJson)])]
  | .iteration name body span =>
    .record [("Iterator", .record [("name", .text name), ("body", .array (Block.listToJson body)),
      ("span", span.toJson)])]

def Block.listToJson : List Block → List Json
  | [] => []
  | block :: blocks => Block.toJson block :: Block.listToJson blocks

end

namespace Program

/-- The fields of a template inside a saved document. -/
def fields (program : Program) : List (String × Json) :=
  [("source", .text program.source), ("blocks", .array (Block.listToJson program.blocks))]

def toJson (program : Program) : Json :=
  .record (("version", .nat savedVersion) :: program.fields)

def tableToJson (templates : List (String × Program)) : Json :=
  .record [("version", .nat savedVersion),
    ("templates", .record (templates.map fun (name, program) => (name, .record program.fields)))]

end Program

end Stencil
