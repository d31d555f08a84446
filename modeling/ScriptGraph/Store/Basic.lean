import ScriptGraph.Function.Registry
import ScriptGraph.Store.Error

/-!
# Stores

A store is a graph under edit, the registry its functions come from and a counter for
fresh ids. An edit gives a new store or is refused; it never changes the old one. Where
ids repeat, edits reach the first node with an id, and only removal reaches all of them.
-/
namespace ScriptGraph

structure Store where
  graph : Graph
  registry : Registry
  /-- The least number that no fresh id was made of yet. It grows without bound; a counter of
  sixty-four bits agrees with it until it would pass its largest value. -/
  nextId : Nat
deriving DecidableEq

/-- What kind of node to add. The variant of a function node follows from the category
of its function. -/
inductive Template
  | function (name : String)
  | conditional
  | continueIf
  | assignment
deriving DecidableEq

namespace Store

def ofGraph (graph : Graph) (registry : Registry) : Store := ⟨graph, registry, 0⟩

def new (registry : Registry) : Store := ofGraph .empty registry

/-- The id with a given number. -/
def idOf (k : Nat) : NodeId := "node_" ++ toString k

/-- The least number from the counter on whose id is free. Of as many numbers as there
are nodes and one more, one is free. -/
def freshIndex (s : Store) : Nat :=
  let taken := s.graph.nodes.length
  s.nextId + ((List.range taken).find? fun i => !s.graph.contains (idOf (s.nextId + i))).getD taken

/-- The body of a new node. -/
def templateBody (s : Store) (template : Template) (parameters : Parameters) :
    Except EditError Body :=
  match template with
  | .function name =>
    match s.registry.lookup? name with
    | none => .error (.unknownFunction name)
    | some schema => match schema.category with
      | .timing => .ok (.timing ⟨name, parameters⟩)
      | .valueAcquisition => .ok (.valueAcquisition ⟨name, parameters⟩)
      | .consequence => .ok (.consequence ⟨name, parameters⟩)
      | category => .error (.notPlaceable name category)
  | .conditional => .ok (.conditional default)
  | .continueIf => .ok (.continueIf default)
  | .assignment => .ok (.assignment none none)

/-- Adds a node under a fresh id and gives the node as well. -/
def add (s : Store) (template : Template) (parameters : Parameters) (position : Position) :
    Except EditError (Store × Node) :=
  match s.templateBody template parameters with
  | .error e => .error e
  | .ok body =>
    let k := s.freshIndex
    let node : Node := ⟨idOf k, position, body⟩
    .ok (⟨⟨s.graph.nodes ++ [node], s.graph.edges⟩, s.registry, k + 1⟩, node)

/-- Edits the first node with an id. -/
def editFirst (id : NodeId) (f : Node → Except EditError Node) :
    List Node → Except EditError (List Node)
  | [] => .error (.nodeNotFound id)
  | n :: rest =>
    if n.id = id then (f n).map (· :: rest)
    else (editFirst id f rest).map (n :: ·)

def editNode (s : Store) (id : NodeId) (f : Node → Except EditError Node) :
    Except EditError Store :=
  (editFirst id f s.graph.nodes).map fun nodes =>
    ⟨⟨nodes, s.graph.edges⟩, s.registry, s.nextId⟩

/-- Replaces the parameters of a call; for an assignment, of its embedded call. -/
def setParameters (s : Store) (id : NodeId) (parameters : Parameters) :
    Except EditError Store :=
  s.editNode id fun n => match n.body with
    | .timing call => .ok ⟨n.id, n.position, .timing ⟨call.function, parameters⟩⟩
    | .valueAcquisition call =>
      .ok ⟨n.id, n.position, .valueAcquisition ⟨call.function, parameters⟩⟩
    | .consequence call => .ok ⟨n.id, n.position, .consequence ⟨call.function, parameters⟩⟩
    | .assignment slot (some inner) =>
      .ok ⟨n.id, n.position,
        .assignment slot (some ⟨inner.id, ⟨inner.call.function, parameters⟩⟩)⟩
    | .assignment _ none => .error (.missingEmbedded n.id)
    | .conditional _ => .error (.notParameterized n.id .conditional)
    | .continueIf _ => .error (.notParameterized n.id .continueIf)

/-- Replaces the condition of a conditional or a continue-if node. -/
def setCondition (s : Store) (id : NodeId) (condition : Condition) : Except EditError Store :=
  s.editNode id fun n => match n.body with
    | .conditional _ => .ok ⟨n.id, n.position, .conditional condition⟩
    | .continueIf _ => .ok ⟨n.id, n.position, .continueIf condition⟩
    | body => .error (.notConditional n.id body.variant)

/-- The id of the call inside an assignment. -/
def embeddedId (id : NodeId) : NodeId := id ++ "_embedded"

/-- Puts a call into an assignment, in place of an earlier one. The function is checked
before the node is looked for. -/
def embed (s : Store) (id : NodeId) (function : String) (parameters : Parameters) :
    Except EditError Store :=
  match s.registry.lookup? function with
  | none => .error (.unknownFunction function)
  | some schema =>
    if schema.isValueProducing then
      s.editNode id fun n => match n.body with
        | .assignment slot _ =>
          .ok ⟨n.id, n.position,
            .assignment slot (some ⟨embeddedId id, ⟨function, parameters⟩⟩)⟩
        | _ => .error (.notAssignment n.id)
    else .error (.notValueProducing function)

/-- Chooses the slot of an assignment. -/
def bindSlot (s : Store) (id : NodeId) (slot : Slot) : Except EditError Store :=
  s.editNode id fun n => match n.body with
    | .assignment _ embedded => .ok ⟨n.id, n.position, .assignment (some slot) embedded⟩
    | _ => .error (.notAssignment n.id)

def move (s : Store) (id : NodeId) (position : Position) : Except EditError Store :=
  s.editNode id fun n => .ok ⟨n.id, position, n.body⟩

/-- Removes every node with an id, and every edge that touches it. -/
def remove (s : Store) (id : NodeId) : Except EditError Store :=
  if s.graph.contains id then
    .ok ⟨⟨s.graph.nodes.filter (·.id != id),
      s.graph.edges.filter fun e => e.source != id && e.target != id⟩, s.registry, s.nextId⟩
  else .error (.nodeNotFound id)

/-- Adds an edge between existing nodes, from an output to an input, once. -/
def connect (s : Store) (e : Edge) : Except EditError Store :=
  match s.graph.node? e.source with
  | none => .error (.nodeNotFound e.source)
  | some source => match s.graph.node? e.target with
    | none => .error (.nodeNotFound e.target)
    | some target =>
      if source.variant.hasOutput e.sourceHandle = false then
        .error (.invalidSource e.source source.variant e.sourceHandle)
      else if target.variant.acceptsInput e.targetHandle = false then
        .error (.invalidTarget e.target target.variant e.targetHandle)
      else if e ∈ s.graph.edges then .error (.duplicateEdge e)
      else .ok ⟨⟨s.graph.nodes, s.graph.edges ++ [e]⟩, s.registry, s.nextId⟩

/-- Connects edges in order, up to the first that is refused. -/
def connectAll (s : Store) : List Edge → Store × Option EditError
  | [] => (s, none)
  | e :: rest => match s.connect e with
    | .ok s' => connectAll s' rest
    | .error error => (s, some error)

/-- Removes the first occurrence of an edge. -/
def disconnect (s : Store) (e : Edge) : Except EditError Store :=
  if e ∈ s.graph.edges then
    .ok ⟨⟨s.graph.nodes, s.graph.edges.erase e⟩, s.registry, s.nextId⟩
  else .error (.edgeNotFound e)

end Store

end ScriptGraph
