import ScriptGraph.Graph.Call
import ScriptGraph.Graph.Condition
import ScriptGraph.Graph.Handle
import ScriptGraph.Slot.Basic

/-!
# Nodes

A node has an id, a place on the canvas and a body. Ids are free-form texts. The place
is for the editor and never reaches a script.
-/
namespace ScriptGraph

abbrev NodeId := String

/-- A place on the canvas. -/
structure Position where
  x : Binary64 := .zero
  y : Binary64 := .zero
deriving DecidableEq, Inhabited

/-- The value call inside an assignment. -/
structure Embedded where
  id : NodeId
  call : Call
deriving DecidableEq

/-- What a node does: trigger the script, acquire a value, have a consequence, branch,
stop early, or bind an embedded value call to a slot, which the user may choose. -/
inductive Body
  | timing (call : Call)
  | valueAcquisition (call : Call)
  | consequence (call : Call)
  | conditional (condition : Condition)
  | continueIf (condition : Condition)
  | assignment (slot : Option Slot) (embedded : Option Embedded)
deriving DecidableEq

namespace Body

def variant : Body → Variant
  | timing _ => .timing
  | valueAcquisition _ => .valueAcquisition
  | consequence _ => .consequence
  | conditional _ => .conditional
  | continueIf _ => .continueIf
  | assignment .. => .assignment

/-- The function that is called; for an assignment, by its embedded call. -/
def call? : Body → Option Call
  | timing call => some call
  | valueAcquisition call => some call
  | consequence call => some call
  | conditional _ => none
  | continueIf _ => none
  | assignment _ embedded => embedded.map (·.call)

def condition? : Body → Option Condition
  | conditional condition => some condition
  | continueIf condition => some condition
  | _ => none

/-- The slot that the user chose. -/
def chosenSlot? : Body → Option Slot
  | assignment slot _ => slot
  | _ => none

end Body

structure Node where
  id : NodeId
  position : Position := default
  body : Body
deriving DecidableEq

namespace Node

def variant (n : Node) : Variant := n.body.variant

/-- The slot that the user chose for this node. -/
def chosenSlot? (n : Node) : Option Slot := n.body.chosenSlot?

end Node

end ScriptGraph
