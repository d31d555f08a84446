import ScriptGraph.Pass.Diagnostic

/-!
# Events of a compilation

What happens during a compilation, in order. Diagnostics and the trace of traversal
calls are views of the events.
-/
namespace ScriptGraph

/-- One traversal call: where it started and the ids it visited, in order. -/
structure TraversalRecord where
  start : NodeId
  visited : List NodeId
deriving DecidableEq

namespace TraversalRecord

/-- How often the most visited id was visited. -/
def maxVisits (r : TraversalRecord) : Nat :=
  (r.visited.map fun id => r.visited.count id).foldr max 0

end TraversalRecord

/-- All traversal calls, in the order in which they began. -/
abbrev Trace := List TraversalRecord

namespace Trace

/-- The highest number of times any id was visited within one call. -/
def maxVisitsPerCall (t : Trace) : Nat := (t.map TraversalRecord.maxVisits).foldr max 0

/-- How many visits all calls made together. -/
def totalVisits : Trace → Nat
  | [] => 0
  | r :: rest => r.visited.length + totalVisits rest

end Trace

inductive Event
  /-- A problem was reported. -/
  | reported (diagnostic : Diagnostic)
  /-- A traversal call began; it goes on to visit the recorded ids. -/
  | called (record : TraversalRecord)
  /-- An edge of the entry point starts a stream of statements. -/
  | streamed (target : NodeId)
  | visited (id : NodeId) (variant : Variant)
  | bound (id : NodeId) (slot : Slot)
  /-- A branch of a conditional is followed. -/
  | branched (id : NodeId) (handle : Handle) (target : NodeId)
deriving DecidableEq

namespace Event

def diagnostic? : Event → Option Diagnostic
  | reported d => some d
  | _ => none

def record? : Event → Option TraversalRecord
  | called r => some r
  | _ => none

/-- The problems reported among some events. -/
def diagnostics (events : List Event) : List Diagnostic := events.filterMap diagnostic?

/-- The traversal calls begun among some events. -/
def trace (events : List Event) : Trace := events.filterMap record?

@[simp] theorem diagnostics_append (xs ys : List Event) :
    diagnostics (xs ++ ys) = diagnostics xs ++ diagnostics ys :=
  List.filterMap_append

@[simp] theorem trace_append (xs ys : List Event) : trace (xs ++ ys) = trace xs ++ trace ys :=
  List.filterMap_append

end Event

end ScriptGraph
