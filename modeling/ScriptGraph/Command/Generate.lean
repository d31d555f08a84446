import ScriptGraph.Command.Arguments
import ScriptGraph.Command.Host
import ScriptGraph.Sample.Generator

/-!
# The generate command

Writes a sample document to a file.
-/
namespace ScriptGraph.Command.Generate

/-- What the command line asks for. -/
structure Settings where
  output : String
  nodes : Nat
  cycles : Nat
  seed : Option Nat

def specs : List OptionSpec :=
  [⟨"output", some 'o', true⟩,
    ⟨"nodes", some 'n', true⟩,
    ⟨"cycles", none, true⟩,
    ⟨"seed", none, true⟩]

def Settings.read (arguments : List String) : Except UsageError Settings := do
  let a ← Arguments.read specs 0 arguments
  let nodes ← a.word "nodes" 25
  let cycles ← a.word "cycles" 0
  let seed ← a.word "seed" 0
  return { output := (a.value? "output").getD "generated_graph.json", nodes, cycles,
           seed := if a.has "seed" then some seed else none }

section

variable {m : Type → Type} [Monad m]

def execute (host : Host m) (settings : Settings) : m Outcome := do
  let seed ← match settings.seed with
    | some seed => pure seed
    | none => host.seed
  let d := Sample.ofSeed seed settings.nodes settings.cycles
  let opening :=
    s!"Generating a graph with {settings.nodes} node(s) and {settings.cycles} back-edge(s)..."
  match ← host.write settings.output d.text with
  | .error e => return ⟨1, [opening], [.note ("Error: " ++ e.message)]⟩
  | .ok () =>
    let nodes := d.nodes.length
    let edges := d.edges.length
    return ⟨0, [opening,
      s!"Successfully generated {nodes} nodes and {edges} edges into '{settings.output}'"], []⟩

/-- The generate command. -/
def run (host : Host m) (arguments : List String) : m (Except UsageError Outcome) := do
  match Settings.read arguments with
  | .error e => return .error e
  | .ok settings => return .ok (← execute host settings)

end

end ScriptGraph.Command.Generate
