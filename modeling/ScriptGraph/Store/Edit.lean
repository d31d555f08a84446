import ScriptGraph.Store.Basic

/-!
# Edits as data

The operations of a store with their arguments, so that a history of edits is a list.
-/
namespace ScriptGraph

inductive Edit
  | add (template : Template) (parameters : Parameters) (position : Position)
  | setParameters (id : NodeId) (parameters : Parameters)
  | setCondition (id : NodeId) (condition : Condition)
  | embed (id : NodeId) (function : String) (parameters : Parameters)
  | bindSlot (id : NodeId) (slot : Slot)
  | move (id : NodeId) (position : Position)
  | remove (id : NodeId)
  | connect (edge : Edge)
  | disconnect (edge : Edge)
deriving DecidableEq

namespace Store

/-- The store after one edit. -/
def apply (s : Store) : Edit → Except EditError Store
  | .add template parameters position => (s.add template parameters position).map (·.1)
  | .setParameters id parameters => s.setParameters id parameters
  | .setCondition id condition => s.setCondition id condition
  | .embed id function parameters => s.embed id function parameters
  | .bindSlot id slot => s.bindSlot id slot
  | .move id position => s.move id position
  | .remove id => s.remove id
  | .connect edge => s.connect edge
  | .disconnect edge => s.disconnect edge

/-- The store after a history of edits, if none is refused. -/
def applyAll (s : Store) : List Edit → Except EditError Store
  | [] => .ok s
  | e :: rest => match s.apply e with
    | .ok s' => applyAll s' rest
    | .error error => .error error

end Store

end ScriptGraph
