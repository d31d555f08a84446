import ScriptGraph.NameMap
import ScriptGraph.Proofs.AllocationUse

/-!
# Allocations kept in three parts

What an allocation knows can be kept in three parts, each for one question: a set of the slots
that are taken, a map from ids to the slots they hold, and a list of the ids in the order in which
they were bound. A ledger has these parts, and only such that are in step with each other: what is
entered is entered in all of them. Whatever is asked of it, a ledger gives the answers of the
allocation.
-/
namespace ScriptGraph

structure Ledger where
  taken : Finset Slot
  held : NameMap Slot
  order : List NodeId
  nodup : order.Nodup
  ordered : ∀ id, id ∈ order ↔ (held.get? id).isSome
  covered : ∀ id slot, held.get? id = some slot → slot ∈ taken

namespace Ledger

open Allocation (Request Origin)

def empty : Ledger where
  taken := ∅
  held := .empty
  order := []
  nodup := List.nodup_nil
  ordered := by simp [NameMap.get?, NameMap.empty]
  covered := by simp [NameMap.get?, NameMap.empty]

def reserve (l : Ledger) (slot : Slot) : Ledger where
  taken := insert slot l.taken
  held := l.held
  order := l.order
  nodup := l.nodup
  ordered := l.ordered
  covered id held hid := Finset.mem_insert_of_mem (l.covered id held hid)

lemma notMem_order (l : Ledger) {id : NodeId} (h : l.held.get? id = none) : id ∉ l.order := by
  simp [l.ordered, h]

/-- Enters the slot of an id that holds none yet. -/
def enter (l : Ledger) (id : NodeId) (slot : Slot) (h : l.held.get? id = none) : Ledger where
  taken := insert slot l.taken
  held := l.held.insert id slot
  order := l.order ++ [id]
  nodup := l.nodup.append (List.nodup_singleton id)
    (List.disjoint_singleton.2 (l.notMem_order h))
  ordered other := by
    by_cases hother : other = id
    · simp [hother]
    · simp [hother, l.ordered]
  covered other held hother := by
    rw [NameMap.get?_insert] at hother
    split_ifs at hother with hsame
    · exact Option.some.inj hother ▸ Finset.mem_insert_self _ _
    · exact Finset.mem_insert_of_mem (l.covered other held hother)

/-- The lowest slot that is not taken. -/
def lowestFree? (l : Ledger) : Option Slot := Slot.all.find? (· ∉ l.taken)

/-- The slot of an id after binding it, and the ledger then. -/
def bind (l : Ledger) (id : NodeId) (chosen : Option Slot) : Option (Slot × Ledger) :=
  match h : l.held.get? id with
  | some slot => some (slot, l)
  | none => (chosen <|> l.lowestFree?).map fun slot => (slot, l.enter id slot h)

/-- Ids with their slots: the order is that of the list, and the slots are those of the map. -/
def bindings (l : Ledger) : List (NodeId × Slot) :=
  l.order.filterMap fun id => (l.held.get? id).map (id, ·)

/-- Of some ids with their slots, an id is found with its own. -/
lemma lookup_filterMap (held : NameMap Slot) (ids : List NodeId) (id : NodeId) :
    (ids.filterMap fun other => (held.get? other).map (other, ·)).lookup id =
      if id ∈ ids then held.get? id else none := by
  induction ids with
  | nil => rfl
  | cons first rest ih =>
    cases hfirst : held.get? first with
    | none =>
      rw [List.filterMap_cons_none (by rw [hfirst]; rfl), ih]
      by_cases hid : id = first
      · simp [hid, hfirst]
      · simp [hid]
    | some slot =>
      rw [List.filterMap_cons_some (by rw [hfirst]; rfl)]
      by_cases hid : id = first
      · simp [hid, hfirst]
      · rw [List.lookup_cons, beq_false_of_ne hid]
        simp [hid, ih]

lemma lookup_bindings (l : Ledger) (id : NodeId) : l.bindings.lookup id = l.held.get? id := by
  rw [bindings, lookup_filterMap]
  split_ifs with hmem
  · rfl
  · rw [l.ordered, Option.not_isSome_iff_eq_none] at hmem
    exact hmem.symm

lemma bindings_enter (l : Ledger) {id : NodeId} (slot : Slot) (h : l.held.get? id = none) :
    (l.enter id slot h).bindings = l.bindings ++ [(id, slot)] := by
  have hold : l.order.filterMap (fun other => ((l.held.insert id slot).get? other).map (other, ·)) =
      l.bindings := by
    refine List.filterMap_congr fun other hmem => ?_
    have hne : other ≠ id := fun hsame => l.notMem_order h (hsame ▸ hmem)
    rw [NameMap.get?_insert, if_neg hne]
  rw [bindings, enter, List.filterMap_append, hold]
  simp

/-- The ledger shows what the allocation knows. -/
structure Keeps (l : Ledger) (a : Allocation) : Prop where
  taken : ∀ slot, slot ∈ l.taken ↔ a.isTaken slot = true
  bindings : l.bindings = a.bindings

namespace Keeps

variable {l : Ledger} {a : Allocation}

lemma get? (h : l.Keeps a) (id : NodeId) : l.held.get? id = a.slotOf? id := by
  rw [← l.lookup_bindings, h.bindings]
  rfl

lemma lowestFree? (h : l.Keeps a) : l.lowestFree? = a.lowestFree? := by
  have hsame : ∀ slot, decide (slot ∉ l.taken) = !a.isTaken slot := by
    intro slot
    simp [h.taken slot]
  simp only [Ledger.lowestFree?, Allocation.lowestFree?, hsame]

lemma reserve (h : l.Keeps a) (slot : Slot) : (l.reserve slot).Keeps (a.reserve slot) where
  taken other := by
    have hother := h.taken other
    rw [Allocation.isTaken_iff] at hother ⊢
    simp only [Ledger.reserve, Allocation.reserve, Finset.mem_insert, hother, List.mem_append,
      List.mem_singleton]
    tauto
  bindings := h.bindings

/-- Slots that are reserved one by one are reserved all. -/
lemma foldl_reserve (h : l.Keeps a) (slots : List Slot) :
    (slots.foldl Ledger.reserve l).Keeps ⟨a.reserved ++ slots, a.bindings⟩ := by
  induction slots generalizing l a with
  | nil => rwa [List.append_nil]
  | cons slot rest ih => simpa [Allocation.reserve] using ih (h.reserve slot)

lemma enter (h : l.Keeps a) {id : NodeId} (slot : Slot) (hid : l.held.get? id = none) :
    (l.enter id slot hid).Keeps ⟨a.reserved, a.bindings ++ [(id, slot)]⟩ where
  taken other := by
    have hother := h.taken other
    rw [Allocation.isTaken_iff] at hother ⊢
    simp only [Ledger.enter, Finset.mem_insert, hother, List.map_append, List.mem_append,
      List.map_singleton, List.mem_singleton]
    tauto
  bindings := by rw [bindings_enter, h.bindings]

/-- A binding gives the same slot in both, or none in both. -/
theorem bind (h : l.Keeps a) (id : NodeId) (chosen : Option Slot) :
    Option.Rel (fun x y => x.1 = y.1 ∧ x.2.Keeps y.2) (l.bind id chosen) (a.bind id chosen) := by
  unfold Ledger.bind Allocation.bind
  rw [← h.get? id, ← h.lowestFree?]
  split
  next slot hheld =>
    simp only [hheld]
    exact .some ⟨rfl, h⟩
  next hnone =>
    simp only [hnone]
    cases (chosen <|> l.lowestFree?) with
    | none => exact .none
    | some slot => exact .some ⟨rfl, h.enter slot hnone⟩

end Keeps

/-- The ledger after a request. A binding that fails leaves it as it is. -/
def serve (l : Ledger) : Request → Ledger
  | .reserve slot => l.reserve slot
  | .bind n => ((l.bind n.id n.chosenSlot?).map Prod.snd).getD l

def serveAll (l : Ledger) (requests : List Request) : Ledger := requests.foldl serve l

/-- What a request is granted: a slot for the id of the node. -/
def grant? (l : Ledger) : Request → Option (NodeId × Slot)
  | .reserve _ => none
  | .bind n => (l.bind n.id n.chosenSlot?).map fun bound => (n.id, bound.1)

/-- What some requests are granted, in order and with repeats. -/
def grants (l : Ledger) : List Request → List (NodeId × Slot)
  | [] => []
  | request :: rest => (l.grant? request).toList ++ (l.serve request).grants rest

/-- The ledger in which a history of requests begins. The slots that nodes of a graph choose are
reserved one by one. -/
def ofOrigin : Origin → Ledger
  | .blank => empty
  | .graph g => (g.nodes.filterMap Node.chosenSlot?).foldl reserve empty

lemma keeps_empty : empty.Keeps .empty where
  taken slot := by simp [empty, Allocation.empty, Allocation.isTaken]
  bindings := rfl

lemma keeps_ofOrigin (o : Origin) : (ofOrigin o).Keeps o.allocation := by
  cases o with
  | blank => exact keeps_empty
  | graph g => exact keeps_empty.foldl_reserve (g.nodes.filterMap Node.chosenSlot?)

/-- A request is granted the same, and leaves the two in step. -/
lemma Keeps.serve {l : Ledger} {a : Allocation} (h : l.Keeps a) (request : Request) :
    l.grant? request = a.grant? request ∧ (l.serve request).Keeps (a.serve request) := by
  cases request with
  | reserve slot => exact ⟨rfl, h.reserve slot⟩
  | bind n =>
    have hbind := h.bind n.id n.chosenSlot?
    simp only [grant?, Allocation.grant?, Ledger.serve, Allocation.serve]
    generalize l.bind n.id n.chosenSlot? = bound at hbind ⊢
    generalize a.bind n.id n.chosenSlot? = bound' at hbind ⊢
    cases hbind with
    | none => exact ⟨rfl, h⟩
    | some hsame => exact ⟨congrArg (fun slot => some (n.id, slot)) hsame.1, hsame.2⟩

lemma Keeps.serveAll {l : Ledger} {a : Allocation} (h : l.Keeps a) (requests : List Request) :
    l.grants requests = a.grants requests ∧ (l.serveAll requests).Keeps (a.serveAll requests) := by
  induction requests generalizing l a with
  | nil => exact ⟨rfl, h⟩
  | cons request rest ih =>
    obtain ⟨hgrant, hafter⟩ := h.serve request
    obtain ⟨hgrants, hkeeps⟩ := ih hafter
    refine ⟨?_, hkeeps⟩
    rw [grants, Allocation.grants, hgrant, hgrants]

/-- After any history a ledger grants and shows what the allocation does: the same slots to the
same requests, the same slot for each id, and the same bindings in the same order. -/
theorem serveAll_keeps (o : Origin) (requests : List Request) :
    (ofOrigin o).grants requests = o.allocation.grants requests ∧
      ((ofOrigin o).serveAll requests).bindings = (o.allocation.serveAll requests).bindings ∧
      (∀ id, ((ofOrigin o).serveAll requests).held.get? id =
        (o.allocation.serveAll requests).slotOf? id) ∧
      ∀ slot, slot ∈ ((ofOrigin o).serveAll requests).taken ↔
        (o.allocation.serveAll requests).isTaken slot = true := by
  obtain ⟨hgrants, hkeeps⟩ := (keeps_ofOrigin o).serveAll requests
  exact ⟨hgrants, hkeeps.bindings, hkeeps.get?, hkeeps.taken⟩

end Ledger

end ScriptGraph
