import ScriptGraph.Document.Conversion
import ScriptGraph.Function.Catalog
import ScriptGraph.Sample.Choice

/-!
# Sample documents

A sample document has a trigger and a tree of further nodes below it. Each node is
connected from an output of some node before it. Back edges may be added, from a node to
itself or to a node before it, but never to the trigger, which has no input.
-/
namespace ScriptGraph.Sample

open Document (NodeEntry)

/-- Some value for each parameter of a schema: a whole number below ten. -/
def parameters : List String → Draw (List (String × Value))
  | [] => return []
  | name :: rest => do
    let n ← below 10
    return (name, .number (.ofInt n)) :: (← parameters rest)

/-- A coordinate from zero to below one thousand: the thousandfold of a fraction with
fifty-two binary places. -/
def coordinate : Draw Binary64 :=
  return .ofRatio false (1000 * (← below Binary64.fractions)) Binary64.fractions

/-- A node that calls a built-in function of a category. -/
def functionNode (id : NodeId) (variant : Variant) (category : Category) : Draw NodeEntry := do
  let schema ← pick (Registry.builtIn.ofCategory category)
  let values ← parameters schema.parameters
  let x ← coordinate
  let y ← coordinate
  return { id, variant, function := some schema.name, position := ⟨x, y⟩,
           parameters := .ofList values }

/-- A comparison of a slot with a digit. -/
def term : Draw Term := do
  let slot ← pick Slot.all
  let operator ← pick [Comparison.greater, .less, .equal]
  let digit ← below 10
  return ⟨slot.text, operator, toString digit⟩

/-- A node with a condition of at most two terms. -/
def conditionNode (id : NodeId) (variant : Variant) : Draw NodeEntry := do
  let terms ← times term (← below 3)
  let logic ← pick Logic.all
  return { id, variant, condition := some ⟨terms, logic⟩ }

/-- An assignment with a chosen slot and an embedded call. -/
def assignmentNode (id : NodeId) : Draw NodeEntry := do
  let inner ← functionNode (Store.embeddedId id) .valueAcquisition .valueAcquisition
  let slot ← pick Slot.all
  return { id, variant := .assignment, slot := some slot, embedded := some inner }

/-- A node of any variant but the trigger's. -/
def anyNode (id : NodeId) : Draw NodeEntry := do
  match ← below 5 with
  | 0 => functionNode id .valueAcquisition .valueAcquisition
  | 1 => conditionNode id .conditional
  | 2 => conditionNode id .continueIf
  | 3 => assignmentNode id
  | _ => functionNode id .consequence .consequence

/-- An edge from some output of a node to the input of another. -/
def edge (source target : NodeEntry) : Draw Edge := do
  let handle ← pick source.variant.outputs
  return ⟨source.id, handle, target.id, .input⟩

/-- Adds a number of nodes, each below some node before it. -/
def addNodes : Nat → Document → Draw Document
  | 0, d => return d
  | n + 1, d => do
    let node ← anyNode (Store.idOf d.nodes.length)
    let parent ← pick d.nodes
    let e ← edge parent node
    addNodes n ⟨d.nodes ++ [node], d.edges ++ [e]⟩

/-- Adds a number of back edges. -/
def addBackEdges : Nat → Document → Draw Document
  | 0, d => return d
  | n + 1, d => do
    let source ← below (d.nodes.length - 1)
    let target ← below (source + 1)
    let e ← edge (d.nodes.getD (source + 1) default) (d.nodes.getD (target + 1) default)
    addBackEdges n ⟨d.nodes, d.edges ++ [e]⟩

/-- A document with a number of nodes below its trigger and a number of back edges, of
which there are at most as many as nodes. -/
def document (nodes cycles : Nat) : Draw Document := do
  let entry ← functionNode (Store.idOf 0) .timing .timing
  let tree ← addNodes nodes ⟨[entry], []⟩
  addBackEdges (min cycles nodes) tree

/-- The document that belongs to a seed. -/
def ofSeed (seed nodes cycles : Nat) : Document :=
  ((document nodes cycles).run (.ofSeed seed) 0).1

end ScriptGraph.Sample
