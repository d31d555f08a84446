import ScriptGraph.NameMap
import ScriptGraph.Number.Shortest

/-!
# Function calls of a graph

A node calls a function by name, with a value for each parameter that was filled in.
-/
namespace ScriptGraph

/-- A value given to a parameter. -/
inductive Value
  | number (x : Binary64)
  | text (s : String)
deriving DecidableEq

namespace Value

/-- Numbers in scripts have no exponent, however long they get, and no zero fraction;
a half goes up. -/
def scriptStyle : Numeral.Style := ⟨.up, fun _ => true, false⟩

/-- A number as it stands in a script. -/
def numberText (x : Binary64) : String :=
  if x.isNaN then "NaN"
  else if x.isFinite then (Numeral.ofBinary64 scriptStyle x).text
  else if x.negative then "-inf"
  else "inf"

/-- A value as it stands in a script. -/
def toText : Value → String
  | number x => numberText x
  | text s => s

end Value

/-- The values given to parameters, by name. -/
abbrev Parameters := NameMap Value

/-- A function name with the values given to its parameters. -/
structure Call where
  function : String
  parameters : Parameters := .empty
deriving DecidableEq

end ScriptGraph
