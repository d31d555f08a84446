import ScriptGraph.Graph.Node
import ScriptGraph.Json.Decoder

/-!
# The parts of documents as JSON

How slots, handles, variants, values, parameters, positions and conditions are written
in a document and read from one.
-/
namespace ScriptGraph

namespace Slot

def decoder : Decoder Slot := fun depth j => (Decoder.string depth j).bind ofText?

def toJson (s : Slot) : Json := .ofString s.text

end Slot

namespace Handle

def decoder : Decoder Handle := Decoder.constant ofText?

def toJson (h : Handle) : Json := .ofString h.text

end Handle

namespace Variant

def decoder : Decoder Variant := Decoder.constant ofText?

def toJson (v : Variant) : Json := .ofString v.text

end Variant

namespace Binary64

/-- Numbers in documents are written positionally from `10 ^ (-5)` to below `10 ^ 16`,
with a zero fraction if they are whole, and with an exponent outside; a half goes to the
even digit. -/
def documentStyle : Numeral.Style :=
  ⟨.even, fun order => -5 ≤ order && order < 16, true⟩

/-- A number in a document; what is not finite has no numeral. -/
def toJson (x : Binary64) : Json :=
  if x.isFinite then .num (Numeral.ofBinary64 documentStyle x) else .null

end Binary64

namespace Value

/-- A value is a number or a text. -/
def decoder : Decoder Value
  | depth, .num n => (Decoder.number depth (.num n)).map .number
  | _, .str (.text s) => some (.text s)
  | _, _ => none

def toJson : Value → Json
  | number x => x.toJson
  | text s => .ofString s

end Value

namespace Parameters

/-- An object of values; of two with one name the later one counts. -/
def decoder : Decoder Parameters
  | depth + 1, .obj fields => do
    let fields ← Decoder.namedFields fields
    let entries ← fields.mapM fun (name, j) => (Value.decoder depth j).map (name, ·)
    return .ofList entries
  | _, _ => none

def toJson (p : Parameters) : Json :=
  .ofFields (p.entries.map fun (name, v) => (name, v.toJson))

end Parameters

namespace Position

def decoder : Decoder Position :=
  Decoder.record ["x", "y"] fun
    | depth, [x, y] => do
      let x ← Decoder.required .number depth x
      let y ← Decoder.required .number depth y
      return ⟨x, y⟩
    | _, _ => none

def toJson (p : Position) : Json := .ofFields [("x", p.x.toJson), ("y", p.y.toJson)]

end Position

namespace Comparison

def decoder : Decoder Comparison := Decoder.constant ofText?

def toJson (c : Comparison) : Json := .ofString c.text

end Comparison

namespace Logic

def decoder : Decoder Logic := Decoder.constant ofText?

def toJson (l : Logic) : Json := .ofString l.text

end Logic

namespace Term

def decoder : Decoder Term :=
  Decoder.record ["left", "operator", "right"] fun
    | depth, [left, operator, right] => do
      let left ← Decoder.required .string depth left
      let operator ← Decoder.required Comparison.decoder depth operator
      let right ← Decoder.required .string depth right
      return ⟨left, operator, right⟩
    | _, _ => none

def toJson (t : Term) : Json :=
  .ofFields
    [("left", .ofString t.left), ("operator", t.operator.toJson), ("right", .ofString t.right)]

end Term

namespace Condition

def decoder : Decoder Condition :=
  Decoder.record ["terms", "logic"] fun
    | depth, [terms, logic] => do
      let terms ← Decoder.withDefault (.list Term.decoder) [] depth terms
      let logic ← Decoder.withDefault Logic.decoder .and depth logic
      return ⟨terms, logic⟩
    | _, _ => none

def toJson (c : Condition) : Json :=
  .ofFields [("terms", .arr (c.terms.map Term.toJson)), ("logic", c.logic.toJson)]

end Condition

end ScriptGraph
