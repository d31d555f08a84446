import ScriptGraph.Function.Schema
import ScriptGraph.NameMap

/-!
# Registries

A registry knows functions by name. It is a map from names to schemas, so its listing is
ascending by name and registering a name again replaces its schema.
-/
namespace ScriptGraph

structure Registry where
  schemas : NameMap Schema
deriving DecidableEq

namespace Registry

def empty : Registry := ⟨.empty⟩

instance : Inhabited Registry := ⟨empty⟩

/-- Adds a schema, in place of an earlier one of the same name. -/
def register (r : Registry) (s : Schema) : Registry := ⟨r.schemas.insert s.name s⟩

/-- Adds schemas in order. -/
def registerAll (r : Registry) (schemas : List Schema) : Registry := schemas.foldl register r

def lookup? (r : Registry) (name : String) : Option Schema := r.schemas.get? name

def contains (r : Registry) (name : String) : Bool := r.schemas.contains name

def size (r : Registry) : Nat := r.schemas.size

def isEmpty (r : Registry) : Bool := r.schemas.isEmpty

/-- All schemas, ascending by name. -/
def toList (r : Registry) : List Schema := r.schemas.values

/-- The schemas of one category, ascending by name. -/
def ofCategory (r : Registry) (c : Category) : List Schema :=
  r.toList.filter (·.category == c)

end Registry

end ScriptGraph
