import ScriptGraph.Graph.Basic

/-!
# Slot allocation

Which slots are reserved and which node holds which slot. A node that is bound keeps its
slot. A chosen slot is given even if it is taken; otherwise the lowest slot that is
neither reserved nor held is given.
-/
namespace ScriptGraph

structure Allocation where
  reserved : List Slot := []
  /-- Ids with their slots, in the order in which they were bound. -/
  bindings : List (NodeId × Slot) := []
deriving DecidableEq

namespace Allocation

def empty : Allocation := ⟨[], []⟩

def reserve (a : Allocation) (slot : Slot) : Allocation := ⟨a.reserved ++ [slot], a.bindings⟩

/-- Reserves every slot that a node of the graph chooses, reachable or not. -/
def ofGraph (g : Graph) : Allocation := ⟨g.nodes.filterMap Node.chosenSlot?, []⟩

/-- The slot that an id holds. -/
def slotOf? (a : Allocation) (id : NodeId) : Option Slot := a.bindings.lookup id

def isTaken (a : Allocation) (slot : Slot) : Bool :=
  a.reserved.contains slot || a.bindings.any (·.2 == slot)

/-- The lowest slot that is not taken. -/
def lowestFree? (a : Allocation) : Option Slot := Slot.all.find? (!a.isTaken ·)

/-- The slot of an id after binding it, and the allocation then. It fails when the id
holds no slot, chooses none and all are taken. -/
def bind (a : Allocation) (id : NodeId) (chosen : Option Slot) : Option (Slot × Allocation) :=
  match a.slotOf? id with
  | some slot => some (slot, a)
  | none => (chosen <|> a.lowestFree?).map fun slot =>
    (slot, ⟨a.reserved, a.bindings ++ [(id, slot)]⟩)

/-- A slot that was found free is neither reserved nor held. -/
theorem isTaken_of_lowestFree? {a : Allocation} {slot : Slot}
    (h : a.lowestFree? = some slot) : a.isTaken slot = false := by
  simpa using List.find?_some h

/-- A free slot is found unless all are taken. -/
theorem lowestFree?_eq_none_iff {a : Allocation} :
    a.lowestFree? = none ↔ ∀ slot, a.isTaken slot = true := by
  simp [lowestFree?, Slot.mem_all]

end Allocation

end ScriptGraph
