import ScriptGraph.Graph.Basic

/-!
# Diagnostics

Problems that a compilation reports and goes on after.
-/
namespace ScriptGraph

inductive Diagnostic
  | nodeNotFound (id : NodeId) (referencedBy : NodeId)
  | unknownFunction (id : NodeId) (function : String)
  | missingEmbedded (id : NodeId)
  | branchFanOut (id : NodeId) (handle : Handle) (ignored : Nat)
  | slotsExhausted (id : NodeId)
  | recursiveBranch (id : NodeId)
  | substitutionSkipped (id : NodeId) (slot : Slot)
  | unexpectedTiming (id : NodeId)
  | additionalEntryPoint (id : NodeId)
  | limitReached (id : NodeId) (limit : Nat)
deriving DecidableEq

def Diagnostic.message : Diagnostic → String
  | nodeNotFound id referencedBy =>
    s!"Node '{id}' referenced by '{referencedBy}' does not exist"
  | unknownFunction id function => s!"Node '{id}' calls unregistered function '{function}'"
  | missingEmbedded id => s!"Assignment node '{id}' has no embedded node and emits nothing"
  | branchFanOut id handle ignored =>
    s!"Conditional '{id}' has {ignored} extra connection(s) on '{handle.text}' that were ignored"
  | slotsExhausted id =>
    s!"No free variable slot for node '{id}'; its result is left unbound"
  | recursiveBranch id =>
    s!"Conditional '{id}' is reachable from its own branch and was not expanded again"
  | substitutionSkipped id slot =>
    s!"Node '{id}' has no argument to receive variable {slot.text}"
  | unexpectedTiming id =>
    s!"Timing node '{id}' is reachable from the entry point and was ignored"
  | additionalEntryPoint id => s!"Timing node '{id}' is not the entry point and was ignored"
  | limitReached id limit =>
    s!"Traversal limit of {limit} calls reached at conditional '{id}'; "
      ++ "remaining branches were left empty"

end ScriptGraph
