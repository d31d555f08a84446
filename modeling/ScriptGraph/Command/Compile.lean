import ScriptGraph.Command.Arguments
import ScriptGraph.Command.Log
import ScriptGraph.Document.Conversion
import ScriptGraph.Function.Loading

/-!
# The compile command

Compiles the document in a file and prints the script or writes it to a file. Problems,
bindings and counts are told as messages.
-/
namespace ScriptGraph.Command.Compile

/-- What the command line asks for. -/
structure Settings where
  graph : Option String
  registry : Option String
  output : Option String
  strict : Bool
  listFunctions : Bool
  level : Level
  options : Options

def specs : List OptionSpec :=
  [⟨"registry", some 'r', true⟩,
    ⟨"output", some 'o', true⟩,
    ⟨"strict", none, false⟩,
    ⟨"no-substitution", none, false⟩,
    ⟨"allow-branch-fanout", none, false⟩,
    ⟨"max-traversal-calls", none, true⟩,
    ⟨"list-functions", none, false⟩,
    ⟨"log-level", none, true⟩]

/-- The level of logging, where warnings are the default. -/
def chosenLevel (a : Arguments) : Except UsageError Level :=
  match a.value? "log-level" with
  | none => .ok .warn
  | some s => match Level.ofText? s with
    | some l => .ok l
    | none => .error (.invalidValue "log-level" s)

def Settings.read (arguments : List String) : Except UsageError Settings := do
  let a ← Arguments.read specs 1 arguments
  let maxCalls ← a.word "max-traversal-calls" 10000
  let level ← chosenLevel a
  return { graph := a.operands.head?, registry := a.value? "registry",
           output := a.value? "output", strict := a.has "strict",
           listFunctions := a.has "list-functions", level,
           options := ⟨!a.has "allow-branch-fanout", !a.has "no-substitution", maxCalls⟩ }

/-- The functions of a registry by category, a line for each. -/
def catalogLines (r : Registry) : List String :=
  Category.all.flatMap fun c =>
    (c.text ++ ":") :: (r.ofCategory c).map fun s =>
      "  " ++ s.name ++ "(" ++ String.intercalate ", " s.parameters ++ ")"

/-- The graph of a document, and what is logged on the way to it. A strict conversion
connects every edge. -/
def convert (strict : Bool) (registry : Registry) (d : Document) :
    Except Document.ImportError Graph × List Message :=
  match d.toGraph with
  | .error e => (.error e, [])
  | .ok g =>
    if strict then
      let (store, refused) := Document.connectGraph g registry
      let log := store.graph.edges.map Log.ofEdge
      match refused with
      | none => (.ok store.graph, log)
      | some e => (.error (.refused e), log)
    else (.ok g, [])

/-- What is told about a finished compilation. -/
def report (c : Compilation) : List Message :=
  let statements := Script.Statement.sizeList c.script.statements
  let visits := c.trace.totalVisits
  let calls := c.trace.length
  c.diagnostics.map (fun d => .note ("warning: " ++ d.message))
    ++ c.bindings.map (fun (id, slot) => .note s!"  -> {slot.text} bound to node '{id}'")
    ++ [.note (s!"{statements} statement(s), {visits} node visit(s) "
      ++ s!"across {calls} traversal call(s)")]

section

variable {m : Type → Type} [Monad m]

/-- The built-in registry, or the one in a file. -/
def loadRegistry (host : Host m) : Option String → m (Except String Registry)
  | none => return .ok .builtIn
  | some path => do
    match ← host.read path with
    | .error e => return .error s!"Failed to read registry file '{path}': {e.message}"
    | .ok text => match Registry.ofJson text with
      | .error e => return .error ("Failed to load registry: " ++ e.message)
      | .ok registry => return .ok registry

/-- Prints or writes a script, and then tells how large the graph was and how long
compiling it and the whole run took. -/
def deliver (host : Host m) (output : Option String) (g : Graph) (script : String)
    (begun compiled : Nat) (messages : List Message) : m Outcome := do
  let nodes := g.nodes.length
  let edges := g.edges.length
  let summary (elapsed total : Nat) : Message :=
    .note s!"Compiled {nodes} nodes / {edges} connections in {elapsed}ms (total {total}ms)"
  match output with
  | none =>
    let now ← host.clock
    return ⟨0, [script], messages ++ [summary compiled (now - begun)]⟩
  | some path => match ← host.write path script with
    | .error e => return .failure messages s!"Failed to write script to '{path}': {e.message}"
    | .ok () =>
      let now ← host.clock
      return ⟨0, [], messages
        ++ [.note s!"Wrote script to '{path}'", summary compiled (now - begun)]⟩

/-- Compiles the document in a file. -/
def compileFile (host : Host m) (settings : Settings) (registry : Registry) (path : String) :
    m Outcome := do
  let begun ← host.clock
  match ← host.read path with
  | .error e => return .failure [] s!"Failed to read graph file '{path}': {e.message}"
  | .ok text => match Document.parse? text with
    | none =>
      return .failure [] ("Failed to parse graph: " ++ Document.ImportError.message .notDocument)
    | some d => match convert settings.strict registry d with
      | (.error e, log) => return .failure log ("Failed to convert graph: " ++ e.message)
      | (.ok g, log) =>
        let started ← host.clock
        let c := (Context.ofGraph g).adjustAll [.registry registry, .options settings.options]
        match c.run with
        | .error .noEntryPoint => return ⟨2, [Graph.noEntryPointText], log⟩
        | .ok emission =>
          let result := Compilation.ofEmission emission
          let script := result.script.text
          let compiled ← host.clock
          deliver host settings.output g script begun (compiled - started)
            (log ++ Log.ofEmission emission ++ report result)

/-- Does what the settings ask for. The registry is loaded first in any case. -/
def execute (host : Host m) (settings : Settings) : m Outcome := do
  match ← loadRegistry host settings.registry with
  | .error text => return .failure [] text
  | .ok registry =>
    if settings.listFunctions then return ⟨0, catalogLines registry, []⟩
    else match settings.graph with
      | none =>
        return .failure [] "A graph path is required unless --list-functions is given."
      | some path => compileFile host settings registry path

/-- The compile command: messages below the chosen level are left out. -/
def run (host : Host m) (arguments : List String) : m (Except UsageError Outcome) := do
  match Settings.read arguments with
  | .error e => return .error e
  | .ok settings =>
    let outcome ← execute host settings
    return .ok ⟨outcome.exit, outcome.output,
      outcome.messages.filter (·.shownAt settings.level)⟩

end

end ScriptGraph.Command.Compile
