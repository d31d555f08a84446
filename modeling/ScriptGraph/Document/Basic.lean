import ScriptGraph.Document.Elements
import ScriptGraph.Graph.Basic
import ScriptGraph.Json.Printer
import ScriptGraph.Json.Reader

/-!
# Documents

A document is the JSON shape of a graph. Every node has the same fields there, whatever
its variant; which of them it needs is checked only when a graph is made of them.
-/
namespace ScriptGraph

namespace Document

/-- A node as it is written. Node documents may hold others to any depth. -/
structure NodeEntry where
  id : NodeId
  variant : Variant
  function : Option String := none
  position : Position := default
  parameters : Parameters := .empty
  slot : Option Slot := none
  embedded : Option NodeEntry := none
  condition : Option Condition := none
deriving Inhabited

end Document

structure Document where
  nodes : List Document.NodeEntry := []
  edges : List Edge := []

namespace Edge

def decoder : Decoder Edge :=
  Decoder.record ["source", "sourceHandle", "target", "targetHandle"] fun
    | depth, [source, sourceHandle, target, targetHandle] => do
      let source ← Decoder.required .string depth source
      let sourceHandle ← Decoder.required Handle.decoder depth sourceHandle
      let target ← Decoder.required .string depth target
      let targetHandle ← Decoder.required Handle.decoder depth targetHandle
      return ⟨source, sourceHandle, target, targetHandle⟩
    | _, _ => none

def toJson (e : Edge) : Json :=
  .ofFields
    [("source", .ofString e.source),
      ("sourceHandle", e.sourceHandle.toJson),
      ("target", .ofString e.target),
      ("targetHandle", e.targetHandle.toJson)]

end Edge

namespace Document

namespace NodeEntry

def fieldNames : List String :=
  ["id", "variant", "functionName", "position", "parameters", "boundVariable", "embeddedNode",
    "condition"]

/-- A node inside a node is one level deeper, so the levels that are left bound the
recursion. -/
def decoder : Decoder NodeEntry
  | depth + 1, j => do
    match ← Decoder.fieldValues fieldNames j with
    | [id, variant, function, position, parameters, slot, embedded, condition] =>
      let id ← Decoder.required .string depth id
      let variant ← Decoder.required Variant.decoder depth variant
      let function ← Decoder.optional .string depth function
      let position ← Decoder.withDefault Position.decoder default depth position
      let parameters ← Decoder.withDefault Parameters.decoder .empty depth parameters
      let slot ← Decoder.optional Slot.decoder depth slot
      let embedded ← match embedded with
        | none => some none
        | some .null => some none
        | some inner => (decoder depth inner).map some
      let condition ← Decoder.optional Condition.decoder depth condition
      return ⟨id, variant, function, position, parameters, slot, embedded, condition⟩
    | _ => none
  | 0, _ => none

/-- A field that is written only when it has a value. -/
def fieldIfSome (name : String) : Option Json → List (String × Json)
  | none => []
  | some j => [(name, j)]

def toJson : NodeEntry → Json
  | ⟨id, variant, function, position, parameters, slot, embedded, condition⟩ =>
    .ofFields
      ([("id", .ofString id), ("variant", variant.toJson)]
        ++ fieldIfSome "functionName" (function.map Json.ofString)
        ++ [("position", position.toJson), ("parameters", parameters.toJson)]
        ++ fieldIfSome "boundVariable" (slot.map Slot.toJson)
        ++ fieldIfSome "embeddedNode" (match embedded with
          | none => none
          | some inner => some (toJson inner))
        ++ fieldIfSome "condition" (condition.map Condition.toJson))

end NodeEntry

def decoder : Decoder Document :=
  Decoder.record ["nodes", "edges"] fun
    | depth, [nodes, edges] => do
      let nodes ← Decoder.withDefault (.list NodeEntry.decoder) [] depth nodes
      let edges ← Decoder.withDefault (.list Edge.decoder) [] depth edges
      return ⟨nodes, edges⟩
    | _, _ => none

def toJson (d : Document) : Json :=
  .ofFields
    [("nodes", .arr (d.nodes.map NodeEntry.toJson)), ("edges", .arr (d.edges.map Edge.toJson))]

/-- Reads the JSON text of a document. -/
def parse? (text : String) : Option Document := (Json.parse? text).bind decoder.run

/-- The JSON text of a document, one field on a line. -/
def text (d : Document) : String := d.toJson.pretty

end Document

end ScriptGraph
