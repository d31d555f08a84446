import ScriptGraph.Number.Numeral

/-!
# JSON values

The tree of a JSON text. Numbers stay numerals, and objects stay lists of fields, so
nothing is decided here about number range, repeated fields or the depth of nesting:
that is for whoever reads a value of some type out of the tree.
-/
namespace ScriptGraph

namespace Json

/-- A string literal. An escape for one half of a surrogate pair stands for no
character; a literal with such an escape is well formed but has no text. -/
inductive Literal
  | text (s : String)
  | unpaired
deriving DecidableEq

end Json

inductive Json
  | null
  | bool (b : Bool)
  | num (n : Numeral)
  | str (s : Json.Literal)
  | arr (items : List Json)
  | obj (fields : List (Json.Literal × Json))

namespace Json

/-- The JSON string of a text. -/
def ofString (s : String) : Json := .str (.text s)

/-- The JSON number of a count. -/
def ofNat (n : Nat) : Json := .num (.ofNat n)

/-- An object with the given fields, in order. -/
def ofFields (fields : List (String × Json)) : Json :=
  .obj (fields.map fun (name, value) => (.text name, value))

end Json

end ScriptGraph
