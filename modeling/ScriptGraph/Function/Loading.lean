import ScriptGraph.Function.Catalog
import ScriptGraph.Json.Decoder
import ScriptGraph.Json.Reader
import ScriptGraph.Text.Blank

/-!
# Loading registries

A registry is loaded from a JSON list of schemas, which are added to the built-in ones.
The whole list is read before any name in it is looked at.
-/
namespace ScriptGraph

namespace Category

def decoder : Decoder Category := Decoder.constant ofText?

def toJson (c : Category) : Json := .ofString c.text

end Category

namespace Schema

def decoder : Decoder Schema :=
  Decoder.record ["name", "category", "parameters"] fun
    | depth, [name, category, parameters] => do
      let name ← Decoder.required .string depth name
      let category ← Decoder.required Category.decoder depth category
      let parameters ← Decoder.withDefault (.list .string) [] depth parameters
      return ⟨name, category, parameters⟩
    | _, _ => none

def toJson (s : Schema) : Json :=
  .ofFields
    [("name", .ofString s.name),
      ("category", s.category.toJson),
      ("parameters", .arr (s.parameters.map Json.ofString))]

end Schema

namespace Registry

inductive LoadError
  | notSchemas
  | blankName
deriving DecidableEq

def LoadError.message : LoadError → String
  | notSchemas => "Failed to parse function registry JSON: not a list of function schemas"
  | blankName => "Function schema has an empty name"

/-- Adds a list of schemas to the built-in ones, if none has a blank name. -/
def ofSchemas (schemas : List Schema) : Except LoadError Registry :=
  if schemas.any fun s => Text.isBlank s.name then .error .blankName
  else .ok (builtIn.registerAll schemas)

/-- Reads the text of a JSON list of schemas. -/
def ofJson (text : String) : Except LoadError Registry :=
  match (Json.parse? text).bind (Decoder.run (.list Schema.decoder)) with
  | none => .error .notSchemas
  | some schemas => ofSchemas schemas

end Registry

end ScriptGraph
