import ScriptGraph.Document.Basic
import ScriptGraph.Store.Basic

/-!
# Documents and graphs

A document becomes a graph when its ids are distinct and every node has what its variant
needs; its edges are taken as they are. It becomes a store when moreover every edge can
be connected, in order. Every graph has a document.
-/
namespace ScriptGraph

namespace Document

inductive ImportError
  | notDocument
  | duplicateId (id : NodeId)
  | missingFunction (id : NodeId) (variant : Variant)
  | embeddedVariant (id : NodeId) (inner : NodeId) (variant : Variant)
  | refused (error : EditError)
deriving DecidableEq

def ImportError.message : ImportError → String
  | notDocument => "Failed to parse graph document: not a graph document"
  | duplicateId id => s!"Duplicate node id '{id}'"
  | missingFunction id variant =>
    s!"Node '{id}' is invalid: {variant.text} node requires a functionName"
  | embeddedVariant id inner variant =>
    s!"Node '{id}' is invalid: embedded node '{inner}' must be ValueAcquisition, "
      ++ s!"found {variant.text}"
  | refused error => error.message

namespace NodeEntry

/-- The call of a node that has to name a function. -/
def call (e : NodeEntry) : Except ImportError Call :=
  match e.function with
  | none => .error (.missingFunction e.id e.variant)
  | some function => .ok ⟨function, e.parameters⟩

/-- The call inside an assignment, which has to be a value call. -/
def embeddedCall (e : NodeEntry) : Except ImportError (Option Embedded) :=
  match e.embedded with
  | none => .ok none
  | some inner =>
    if inner.variant = .valueAcquisition then
      inner.call.map fun call => some ⟨inner.id, call⟩
    else .error (.embeddedVariant e.id inner.id inner.variant)

def body (e : NodeEntry) : Except ImportError Body :=
  match e.variant with
  | .timing => e.call.map .timing
  | .valueAcquisition => e.call.map .valueAcquisition
  | .consequence => e.call.map .consequence
  | .conditional => .ok (.conditional (e.condition.getD default))
  | .continueIf => .ok (.continueIf (e.condition.getD default))
  | .assignment => e.embeddedCall.map (.assignment e.slot)

def toNode (e : NodeEntry) : Except ImportError Node :=
  e.body.map fun body => ⟨e.id, e.position, body⟩

/-- The entry of an embedded call; it has no place of its own. -/
def ofEmbedded (e : Embedded) : NodeEntry :=
  { id := e.id, variant := .valueAcquisition, function := some e.call.function,
    parameters := e.call.parameters }

/-- The entry of a node, with the fields that its variant needs. -/
def ofNode (n : Node) : NodeEntry :=
  match n.body with
  | .timing call =>
    { id := n.id, variant := .timing, position := n.position,
      function := some call.function, parameters := call.parameters }
  | .valueAcquisition call =>
    { id := n.id, variant := .valueAcquisition, position := n.position,
      function := some call.function, parameters := call.parameters }
  | .consequence call =>
    { id := n.id, variant := .consequence, position := n.position,
      function := some call.function, parameters := call.parameters }
  | .conditional condition =>
    { id := n.id, variant := .conditional, position := n.position,
      condition := some condition }
  | .continueIf condition =>
    { id := n.id, variant := .continueIf, position := n.position,
      condition := some condition }
  | .assignment slot embedded =>
    { id := n.id, variant := .assignment, position := n.position,
      slot := slot, embedded := embedded.map ofEmbedded }

end NodeEntry

/-- The nodes of entries whose ids are neither in `seen` nor repeated. -/
def toNodes (seen : List NodeId) : List NodeEntry → Except ImportError (List Node)
  | [] => .ok []
  | e :: rest =>
    if e.id ∈ seen then .error (.duplicateId e.id)
    else match e.toNode with
      | .error error => .error error
      | .ok n => (toNodes (e.id :: seen) rest).map (n :: ·)

def toGraph (d : Document) : Except ImportError Graph :=
  (toNodes [] d.nodes).map fun nodes => ⟨nodes, d.edges⟩

/-- A store with the nodes of a graph and the edges that can be connected, up to the
first that is refused. -/
def connectGraph (g : Graph) (registry : Registry) : Store × Option EditError :=
  (Store.ofGraph ⟨g.nodes, []⟩ registry).connectAll g.edges

def toStore (d : Document) (registry : Registry) : Except ImportError Store :=
  match d.toGraph with
  | .error error => .error error
  | .ok g => match connectGraph g registry with
    | (store, none) => .ok store
    | (_, some error) => .error (.refused error)

def ofGraph (g : Graph) : Document := ⟨g.nodes.map NodeEntry.ofNode, g.edges⟩

/-- Reads a graph from the text of a document. -/
def readGraph (text : String) : Except ImportError Graph :=
  match parse? text with
  | none => .error .notDocument
  | some d => d.toGraph

end Document

end ScriptGraph
