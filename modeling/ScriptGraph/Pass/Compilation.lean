import ScriptGraph.Pass.Walk
import ScriptGraph.Script.Printer

/-!
# Compilation

The first trigger of a graph is the entry point. Each of its output edges starts a walk
of its own, and the statements of these walks, in order, are the script. Only a missing
entry point is fatal.
-/
namespace ScriptGraph

open Script (Statement Header)

inductive CompileError
  | noEntryPoint
deriving DecidableEq

def CompileError.message : CompileError → String
  | noEntryPoint =>
    "No Timing node found: add a Timing node to give the script an entry point"

/-- Everything a compilation gives. -/
structure Compilation where
  script : Script
  diagnostics : List Diagnostic
  trace : Trace
  /-- Ids with their slots, in the order in which they were bound. -/
  bindings : List (NodeId × Slot)

namespace Context

/-- The header of a script and the problems with it. Arguments are written only if the
schema of the trigger has parameters. -/
def header (c : Context) (a : Allocation) (entry : NodeId) (call : Call) :
    Header × List Diagnostic :=
  match c.registry.lookup? call.function with
  | none => (⟨call.function, none⟩, [.unknownFunction entry call.function])
  | some schema =>
    if schema.parameters = [] then (⟨call.function, none⟩, [])
    else
      let (invocation, problems) := c.serialize a entry call
      (⟨call.function, invocation.map (·.arguments)⟩, problems)

/-- One walk for each edge of the entry point, none of them subject to the limit. -/
def streams (c : Context) (entry : NodeId) : List Edge → Progress → Emission (List Statement)
  | [], p => ⟨[], [], p⟩
  | e :: rest, p =>
    let walked := c.walk c.graph.conditionalIds e.target entry p
    let others := c.streams entry rest walked.progress
    ⟨walked.value ++ others.value, .streamed e.target :: walked.events ++ others.events,
      others.progress⟩

/-- The progress before the first walk. -/
def start (c : Context) : Progress := ⟨.ofGraph c.graph, 0, false⟩

/-- The script of a graph, with all events on the way to it. Triggers besides the entry
point are reported first. -/
def run (c : Context) : Except CompileError (Emission Script) :=
  match c.graph.timings with
  | [] => .error .noEntryPoint
  | (entry, call) :: others =>
    let (header, problems) := c.header c.start.allocation entry call
    let walked := c.streams entry (c.graph.outgoing entry .output) c.start
    .ok ⟨⟨header, walked.value⟩,
      others.map (fun other => .reported (.additionalEntryPoint other.1))
        ++ problems.map .reported ++ walked.events,
      walked.progress⟩

end Context

/-- The result of a compilation, seen from its events. -/
def Compilation.ofEmission (e : Emission Script) : Compilation :=
  ⟨e.value, Event.diagnostics e.events, Event.trace e.events, e.progress.allocation.bindings⟩

namespace Graph

/-- Compiles a graph. -/
def compile (g : Graph) (registry : Registry) (options : Options) :
    Except CompileError Compilation :=
  (Context.run ⟨g, registry, options⟩).map Compilation.ofEmission

/-- What is shown in place of a script without an entry point. -/
def noEntryPointText : String :=
  "Error: no Timing node found. Add a Timing node to give the script an entry point."

/-- The script of a graph as text, or a text that says why there is none. -/
def compileText (g : Graph) (registry : Registry) : String :=
  match g.compile registry default with
  | .ok compilation => compilation.script.text
  | .error .noEntryPoint => noEntryPointText

end Graph

end ScriptGraph
