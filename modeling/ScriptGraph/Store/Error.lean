import ScriptGraph.Function.Schema
import ScriptGraph.Graph.Basic

/-!
# Refused edits

Why an edit of a graph is refused, and how that is said to the user.
-/
namespace ScriptGraph

inductive EditError
  | nodeNotFound (id : NodeId)
  | unknownFunction (name : String)
  | notPlaceable (name : String) (category : Category)
  | notValueProducing (name : String)
  | invalidSource (id : NodeId) (variant : Variant) (handle : Handle)
  | invalidTarget (id : NodeId) (variant : Variant) (handle : Handle)
  | duplicateEdge (edge : Edge)
  | edgeNotFound (edge : Edge)
  | notParameterized (id : NodeId) (variant : Variant)
  | notConditional (id : NodeId) (variant : Variant)
  | notAssignment (id : NodeId)
  | missingEmbedded (id : NodeId)
deriving DecidableEq

namespace EditError

def edgeText (e : Edge) : String :=
  s!"{e.source}:{e.sourceHandle.text} -> {e.target}:{e.targetHandle.text}"

def message : EditError → String
  | nodeNotFound id => s!"Node '{id}' not found"
  | unknownFunction name => s!"Function '{name}' is not registered"
  | notPlaceable name category =>
    s!"Function '{name}' is a {category.text} function and cannot be placed as a node"
  | notValueProducing name =>
    s!"Function '{name}' does not produce a value and cannot be embedded in an Assignment"
  | invalidSource id variant handle =>
    s!"Handle '{handle.text}' is not an output of {variant.text} node '{id}'"
  | invalidTarget id variant handle =>
    s!"Handle '{handle.text}' is not an input of {variant.text} node '{id}'"
  | duplicateEdge edge => s!"Connection {edgeText edge} already exists"
  | edgeNotFound edge => s!"Connection {edgeText edge} does not exist"
  | notParameterized id variant =>
    s!"{variant.text} node '{id}' does not carry function parameters"
  | notConditional id variant => s!"{variant.text} node '{id}' does not carry a condition"
  | notAssignment id => s!"Node '{id}' is not an Assignment node"
  | missingEmbedded id => s!"Assignment node '{id}' has no embedded node"

end EditError

end ScriptGraph
