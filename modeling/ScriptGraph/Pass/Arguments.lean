import ScriptGraph.Pass.Context
import ScriptGraph.Script.Basic

/-!
# Arguments of calls

Arguments are written in the order of the schema. If nodes with an edge into the caller
hold slots, the first argument gives way to the slot of the last such edge, whatever
parameter the edge was meant for.
-/
namespace ScriptGraph

/-- The arguments of a call in the order of the schema; a parameter without a value is
written as nothing, and a value without a parameter is dropped. -/
def Schema.arguments (s : Schema) (parameters : Parameters) : List String :=
  s.parameters.map fun name => ((parameters.get? name).map Value.toText).getD ""

namespace Context

/-- The slots held by the sources of the edges into an id, in the order of the edges. -/
def incomingSlots (c : Context) (a : Allocation) (id : NodeId) : List Slot :=
  (c.graph.incoming id).filterMap fun e => a.slotOf? e.source

/-- The arguments with the last of some slots in place of the first one. -/
def substituteFirst (slots : List Slot) : List String → List String
  | [] => []
  | first :: rest => ((slots.getLast?.map Slot.text).getD first) :: rest

/-- The call of a node as it is written, and the problems with it. A function that is not
registered gives no call. -/
def serialize (c : Context) (a : Allocation) (id : NodeId) (call : Call) :
    Option Script.Invocation × List Diagnostic :=
  match c.registry.lookup? call.function with
  | none => (none, [.unknownFunction id call.function])
  | some schema =>
    let arguments := schema.arguments call.parameters
    if c.options.substitute then
      let slots := c.incomingSlots a id
      (some ⟨call.function, substituteFirst slots arguments⟩,
        if arguments = [] then slots.map (.substitutionSkipped id) else [])
    else (some ⟨call.function, arguments⟩, [])

end Context

end ScriptGraph
