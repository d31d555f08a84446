import ScriptGraph.Command.Host
import ScriptGraph.Pass.Compilation
import ScriptGraph.Text.Quoted

/-!
# Log lines

How the events of a compilation are logged. A line is a message and then named values.
-/
namespace ScriptGraph.Command.Log

/-- The log line of an event. That a traversal call began is not logged. -/
def ofEvent? : Event → Option Message
  | .reported d => some (.log .warn s!"compile diagnostic diagnostic={d.message}")
  | .called _ => none
  | .streamed target => some (.log .debug s!"compiling statement stream target_node={target}")
  | .visited id variant =>
    some (.log .trace s!"visiting node node_id={id} variant={variant.text}")
  | .bound id slot => some (.log .debug s!"bound variable node_id={id} slot={slot.text}")
  | .branched id handle target =>
    some (.log .debug s!"expanding branch node_id={id} handle={handle.text} target={target}")

/-- The log line of an edge that was connected. -/
def ofEdge (e : Edge) : Message :=
  let source := Text.quoted e.source
  let handle := e.sourceHandle.text
  let target := Text.quoted e.target
  .log .debug s!"connected nodes source={source} source_handle={handle} target={target}"

/-- The log lines of a whole compilation. -/
def ofEmission (e : Emission Script) : List Message :=
  let statements := e.value.statements.length
  let problems := (Event.diagnostics e.events).length
  e.events.filterMap ofEvent?
    ++ [.log .info s!"compilation finished statements={statements} diagnostics={problems}"]

end ScriptGraph.Command.Log
