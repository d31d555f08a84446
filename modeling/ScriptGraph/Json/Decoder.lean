import ScriptGraph.Json.Basic

/-!
# Reading values out of JSON trees

A decoder is given the number of levels of nesting that are still allowed and a tree.
Each list, object or record it enters costs one level. What a decoder does not look at,
such as the values of fields that a record does not have, costs nothing and is not
checked further.
-/
namespace ScriptGraph

/-- Reads a value out of a tree within a number of levels. -/
abbrev Decoder (α : Type) := Nat → Json → Option α

namespace Decoder

/-- Containers may be nested this deep. -/
def maxDepth : Nat := 127

/-- Reads a value within the depth that is allowed at the top. -/
def run {α : Type} (d : Decoder α) (j : Json) : Option α := d maxDepth j

def string : Decoder String
  | _, .str (.text s) => some s
  | _, _ => none

/-- A number of the binary64 range, rounded to the nearest. -/
def number : Decoder Binary64
  | _, .num n => if n.toBinary64.isFinite then some n.toBinary64 else none
  | _, _ => none

def list {α : Type} (d : Decoder α) : Decoder (List α)
  | depth + 1, .arr items => items.mapM (d depth)
  | _, _ => none

/-- A value that may be absent, written as null. -/
def nullable {α : Type} (d : Decoder α) : Decoder (Option α)
  | _, .null => some none
  | depth, j => (d depth j).map some

/-- One of a few named constants, written as its name or as an object that has the name
as its only field and null as its value. -/
def constant {α : Type} (ofName? : String → Option α) : Decoder α
  | _, .str (.text s) => ofName? s
  | _ + 1, .obj [(.text s, .null)] => ofName? s
  | _, _ => none

/-- The fields of an object with their names as text. -/
def namedFields (fields : List (Json.Literal × Json)) : Option (List (String × Json)) :=
  fields.mapM fun
    | (.text name, j) => some (name, j)
    | (.unpaired, _) => none

/-- The value of one field, which may be absent but not repeated. -/
def field? (fields : List (String × Json)) (name : String) : Option (Option Json) :=
  match fields.filter (·.1 == name) with
  | [] => some none
  | [(_, j)] => some (some j)
  | _ => none

/-- The values of a record's fields, in the order of their names. A record is written as
an object, where other fields are ignored, or as a list of values, where the last ones
may be left out. -/
def fieldValues (names : List String) : Json → Option (List (Option Json))
  | .obj fields => do
    let fields ← namedFields fields
    names.mapM (field? fields)
  | .arr items =>
    if items.length ≤ names.length then
      some (items.map some ++ List.replicate (names.length - items.length) none)
    else none
  | _ => none

/-- A record with the given field names, built from the values of its fields. -/
def record {α : Type} (names : List String)
    (build : Nat → List (Option Json) → Option α) : Decoder α
  | depth + 1, j => (fieldValues names j).bind (build depth)
  | _, _ => none

/-- A field that has to be present. -/
def required {α : Type} (d : Decoder α) (depth : Nat) (value : Option Json) : Option α :=
  value.bind (d depth)

/-- A field with a value to take when it is absent. -/
def withDefault {α : Type} (d : Decoder α) (default : α) (depth : Nat)
    (value : Option Json) : Option α :=
  match value with
  | none => some default
  | some j => d depth j

/-- A field that may be absent or null. -/
def optional {α : Type} (d : Decoder α) (depth : Nat) (value : Option Json) :
    Option (Option α) :=
  withDefault (nullable d) none depth value

end Decoder

end ScriptGraph
