import ScriptGraph.Proofs.AssignedSlots

/-!
# Allocations in use

An allocation may be used in any order of requests, each to reserve a slot or to bind a node,
also with several nodes of one id. What an allocation knows is compared here with the history
of its requests: which slots were reserved, and which were granted to whom. The bindings are
the grants without repeats, and a slot is taken exactly if the history has taken it.
-/
namespace ScriptGraph

namespace Allocation

/-- One use of an allocation. -/
inductive Request
  | reserve (slot : Slot)
  | bind (node : Node)

/-- Where a history of requests begins: with nothing reserved, or with the slots that the nodes
of a graph choose. -/
inductive Origin
  | blank
  | graph (g : Graph)

def Origin.allocation : Origin → Allocation
  | blank => empty
  | graph g => ofGraph g

/-- A node of the graph chooses the slot. -/
def Origin.Reserves : Origin → Slot → Prop
  | blank, _ => False
  | graph g, slot => ∃ n ∈ g.nodes, n.chosenSlot? = some slot

/-- The allocation after a request. A binding that fails leaves it as it is. -/
def serve (a : Allocation) : Request → Allocation
  | .reserve slot => a.reserve slot
  | .bind n => ((a.bind n.id n.chosenSlot?).map Prod.snd).getD a

def serveAll (a : Allocation) (requests : List Request) : Allocation := requests.foldl serve a

/-- What a request is granted: a slot for the id of the node. -/
def grant? (a : Allocation) : Request → Option (NodeId × Slot)
  | .reserve _ => none
  | .bind n => (a.bind n.id n.chosenSlot?).map fun bound => (n.id, bound.1)

/-- What some requests are granted, in order and with repeats. -/
def grants (a : Allocation) : List Request → List (NodeId × Slot)
  | [] => []
  | request :: rest => (a.grant? request).toList ++ (a.serve request).grants rest

/-- The history has taken the slot: it was reserved, at the beginning or later, or granted. -/
def Origin.Takes (o : Origin) (requests : List Request) (slot : Slot) : Prop :=
  o.Reserves slot ∨ .reserve slot ∈ requests ∨
    slot ∈ (o.allocation.grants requests).map Prod.snd

/-- The id was bound by an assignment that chose the slot, and not before. -/
def Origin.Chose (o : Origin) (requests : List Request) (id : NodeId) (slot : Slot) : Prop :=
  ∃ before n after, requests = before ++ Request.bind n :: after ∧
    (o.allocation.serveAll before).slotOf? id = none ∧ n.id = id ∧
    ∃ embedded, n.body = .assignment (some slot) embedded

/-- Later requests have no part in this. -/
lemma Origin.Chose.concat {o : Origin} {requests : List Request} {id : NodeId} {slot : Slot}
    (h : o.Chose requests id slot) (request : Request) :
    o.Chose (requests ++ [request]) id slot := by
  obtain ⟨before, n, after, hrequests, hrest⟩ := h
  exact ⟨before, n, after ++ [request], by simp [hrequests], hrest⟩

lemma serveAll_concat (a : Allocation) (requests : List Request) (request : Request) :
    a.serveAll (requests ++ [request]) = (a.serveAll requests).serve request := by
  simp [serveAll]

lemma grants_concat (a : Allocation) (requests : List Request) (request : Request) :
    a.grants (requests ++ [request]) =
      a.grants requests ++ ((a.serveAll requests).grant? request).toList := by
  induction requests generalizing a with
  | nil => simp [grants, serveAll]
  | cons first rest ih =>
    rw [List.cons_append, grants, ih, grants, List.append_assoc]
    rfl

/-- All that a request can come to. A binding is one that the id has already, a new one, or
none. -/
inductive Outcome (a : Allocation) : Request → Option (NodeId × Slot) → Allocation → Prop
  | reserved {slot : Slot} : Outcome a (.reserve slot) none (a.reserve slot)
  | held {n : Node} {slot : Slot} : a.slotOf? n.id = some slot →
      Outcome a (.bind n) (some (n.id, slot)) a
  | granted {n : Node} {slot : Slot} : a.slotOf? n.id = none →
      (n.chosenSlot? = some slot ∨ n.chosenSlot? = none ∧ a.lowestFree? = some slot) →
      Outcome a (.bind n) (some (n.id, slot)) ⟨a.reserved, a.bindings ++ [(n.id, slot)]⟩
  | refused {n : Node} : a.bind n.id n.chosenSlot? = none → Outcome a (.bind n) none a

theorem serve_outcome (a : Allocation) (request : Request) :
    a.Outcome request (a.grant? request) (a.serve request) := by
  cases request with
  | reserve slot => exact .reserved
  | bind n =>
    cases hb : a.bind n.id n.chosenSlot? with
    | none =>
      simp only [grant?, serve, hb, Option.map_none, Option.getD_none]
      exact .refused hb
    | some bound =>
      obtain ⟨slot, a'⟩ := bound
      simp only [grant?, serve, hb, Option.map_some, Option.getD_some]
      rcases bind_cases hb with ⟨hheld, rfl⟩ | ⟨hnone, rfl, hslot⟩
      · exact .held hheld
      · exact .granted hnone hslot

section Bindings

variable {a b : Allocation}

lemma mem_bindings_of_slotOf? {id : NodeId} {slot : Slot} (h : a.slotOf? id = some slot) :
    (id, slot) ∈ a.bindings := by
  obtain ⟨before, after, hbindings, -⟩ := List.lookup_eq_some_iff.1 h
  rw [hbindings]
  simp

/-- Where no id is bound twice, a binding is what is found under its id. -/
lemma mem_bindings_iff (hnodup : (a.bindings.map Prod.fst).Nodup) {id : NodeId} {slot : Slot} :
    (id, slot) ∈ a.bindings ↔ a.slotOf? id = some slot := by
  refine ⟨fun hmem => ?_, mem_bindings_of_slotOf?⟩
  cases hfound : a.slotOf? id with
  | none => exact absurd (List.mem_map_of_mem hmem) (slotOf?_eq_none.1 hfound)
  | some other =>
    have hsame := List.inj_on_of_nodup_map hnodup (mem_bindings_of_slotOf? hfound) hmem rfl
    rw [(Prod.mk.inj hsame).2]

/-- Bindings that are kept are found again. -/
lemma slotOf?_of_prefix (h : a.bindings <+: b.bindings) {id : NodeId} {slot : Slot}
    (hslot : a.slotOf? id = some slot) : b.slotOf? id = some slot := by
  obtain ⟨more, hmore⟩ := h
  have hlookup : a.bindings.lookup id = some slot := hslot
  simp [slotOf?, ← hmore, List.lookup_append, hlookup]

lemma bindings_prefix_serve (a : Allocation) (request : Request) :
    a.bindings <+: (a.serve request).bindings := by
  have hout := a.serve_outcome request
  generalize a.grant? request = grant at hout
  generalize a.serve request = b at hout
  cases hout with
  | reserved => exact List.prefix_refl _
  | held _ => exact List.prefix_refl _
  | granted _ _ => exact List.prefix_append _ _
  | refused _ => exact List.prefix_refl _

lemma bindings_prefix_serveAll (a : Allocation) (requests : List Request) :
    a.bindings <+: (a.serveAll requests).bindings := by
  induction requests generalizing a with
  | nil => exact List.prefix_refl _
  | cons request rest ih => exact (a.bindings_prefix_serve request).trans (ih (a.serve request))

end Bindings

/-- Below the lowest free slot all are taken. -/
lemma isTaken_of_lt_lowestFree? {a : Allocation} {slot lower : Slot}
    (h : a.lowestFree? = some slot) (hlower : lower.index < slot.index) :
    a.isTaken lower = true := by
  have hascending : Slot.all.Pairwise fun x y => x.index < y.index := by decide
  obtain ⟨-, before, after, hall, hbefore⟩ := List.find?_eq_some_iff_append.1 h
  have hmem : lower ∈ before ++ slot :: after := hall ▸ Slot.mem_all lower
  rw [hall, List.pairwise_append] at hascending
  rcases List.mem_append.1 hmem with hmem | hmem
  · simpa using hbefore lower hmem
  · rcases List.mem_cons.1 hmem with rfl | hmem
    · omega
    · have habove := (List.pairwise_cons.1 hascending.2.1).1 lower hmem
      omega

/-- What an allocation shows of its history. -/
structure Shows (o : Origin) (requests : List Request) (a : Allocation) : Prop where
  bindings : a.bindings = (o.allocation.grants requests).eraseDups
  nodup : (a.bindings.map Prod.fst).Nodup
  taken : ∀ slot, a.isTaken slot = true ↔ o.Takes requests slot
  shared : ∀ earlier later id other slot, a.bindings = earlier ++ (id, slot) :: later →
    (other, slot) ∈ earlier → o.Chose requests id slot

lemma isTaken_iff {a : Allocation} {slot : Slot} :
    a.isTaken slot = true ↔ slot ∈ a.reserved ∨ slot ∈ a.bindings.map Prod.snd := by
  simp [isTaken]

lemma body_of_chosenSlot? {n : Node} {slot : Slot} (h : n.chosenSlot? = some slot) :
    ∃ embedded, n.body = .assignment (some slot) embedded := by
  cases hbody : n.body with
  | assignment chosen embedded =>
    simp only [Node.chosenSlot?, hbody, Body.chosenSlot?] at h
    exact ⟨embedded, by rw [h]⟩
  | _ => simp [Node.chosenSlot?, hbody, Body.chosenSlot?] at h

lemma shows_origin (o : Origin) : o.allocation.Shows o [] := by
  have hbindings : o.allocation.bindings = [] := by cases o <;> rfl
  have hreserved : ∀ slot, slot ∈ o.allocation.reserved ↔ o.Reserves slot := by
    intro slot
    cases o with
    | blank => simp [Origin.allocation, Origin.Reserves, empty]
    | graph g => simp [Origin.allocation, Origin.Reserves, ofGraph]
  constructor
  case bindings => rw [hbindings]; rfl
  case nodup => rw [hbindings]; exact List.nodup_nil
  case taken =>
    intro slot
    rw [isTaken_iff, hbindings, hreserved]
    simp [Origin.Takes, grants]
  case shared =>
    intro earlier later id other slot hsplit
    simp [hbindings] at hsplit

namespace Shows

variable {o : Origin} {requests : List Request} {a : Allocation}

/-- A request that binds nothing new. -/
lemma unbound (h : a.Shows o requests) {request : Request} {b : Allocation}
    (hbindings : b.bindings = a.bindings)
    (hgrants : ∀ grant ∈ (o.allocation.serveAll requests).grant? request, grant ∈ a.bindings)
    (htaken : ∀ slot, b.isTaken slot = true ↔
      a.isTaken slot = true ∨ .reserve slot = request) :
    b.Shows o (requests ++ [request]) := by
  have hrepeat : (o.allocation.grants (requests ++ [request])).eraseDups =
      (o.allocation.grants requests).eraseDups := by
    rw [grants_concat]
    cases hgrant : (o.allocation.serveAll requests).grant? request with
    | none => simp
    | some grant =>
      have hmem : grant ∈ a.bindings := hgrants grant hgrant
      rw [h.bindings, List.mem_eraseDups] at hmem
      exact eraseDups_concat_of_mem hmem
  constructor
  case bindings => rw [hbindings, h.bindings, hrepeat]
  case nodup => rw [hbindings]; exact h.nodup
  case taken =>
    intro slot
    have hsame : ∀ grant, grant ∈ o.allocation.grants (requests ++ [request]) ↔
        grant ∈ o.allocation.grants requests := by
      intro grant
      rw [← List.mem_eraseDups, hrepeat, List.mem_eraseDups]
    have hmem : slot ∈ (o.allocation.grants (requests ++ [request])).map Prod.snd ↔
        slot ∈ (o.allocation.grants requests).map Prod.snd := by
      simp only [List.mem_map, hsame]
    rw [htaken, h.taken, Origin.Takes, Origin.Takes, hmem]
    simp only [List.mem_append, List.mem_singleton]
    tauto
  case shared =>
    intro earlier later id other slot hsplit hother
    exact (h.shared earlier later id other slot (hbindings ▸ hsplit) hother).concat request

/-- A request that binds an id for the first time. -/
lemma granted (h : a.Shows o requests) (ha : o.allocation.serveAll requests = a) {n : Node}
    {slot : Slot} (hnone : a.slotOf? n.id = none)
    (hslot : n.chosenSlot? = some slot ∨ n.chosenSlot? = none ∧ a.lowestFree? = some slot)
    (hgrant : a.grant? (.bind n) = some (n.id, slot)) :
    Shows o (requests ++ [.bind n]) ⟨a.reserved, a.bindings ++ [(n.id, slot)]⟩ := by
  have hunbound := slotOf?_eq_none.1 hnone
  have hgrants : o.allocation.grants (requests ++ [.bind n]) =
      o.allocation.grants requests ++ [(n.id, slot)] := by
    rw [grants_concat, ha, hgrant]
    rfl
  constructor
  case bindings =>
    have hnew : (n.id, slot) ∉ o.allocation.grants requests := by
      rw [← List.mem_eraseDups, ← h.bindings]
      exact fun hmem => hunbound (List.mem_map_of_mem hmem)
    rw [hgrants, List.eraseDups_append, ← h.bindings]
    simp [List.removeAll, hnew, List.eraseDups_cons]
  case nodup =>
    rw [List.map_append, List.map_singleton]
    exact h.nodup.append (List.nodup_singleton _) (List.disjoint_singleton.2 hunbound)
  case taken =>
    intro other
    have hother := h.taken other
    rw [isTaken_iff, Origin.Takes] at hother
    rw [isTaken_iff, Origin.Takes, hgrants]
    simp only [List.map_append, List.mem_append, List.map_singleton, List.mem_singleton,
      reduceCtorEq, or_false]
    rw [← or_assoc, hother, or_assoc, or_assoc]
  case shared =>
    intro earlier later id other slot' hsplit hother
    rcases List.eq_nil_or_concat later with rfl | ⟨rest, last, rfl⟩
    -- The last binding is the new one, and a slot that was free is not shared.
    · obtain ⟨rfl, hlast⟩ := List.append_inj' hsplit rfl
      obtain ⟨rfl, rfl⟩ := Prod.mk.inj (List.singleton_inj.1 hlast)
      have htaken : a.isTaken slot = true :=
        isTaken_iff.2 (.inr (List.mem_map.2 ⟨(other, slot), hother, rfl⟩))
      rcases hslot with hchosen | ⟨-, hfree⟩
      · exact ⟨requests, n, [], rfl, ha ▸ hnone, rfl, body_of_chosenSlot? hchosen⟩
      · rw [isTaken_of_lowestFree? hfree] at htaken
        cases htaken
    · have hsplit' : a.bindings ++ [(n.id, slot)] = (earlier ++ (id, slot') :: rest) ++ [last] := by
        simpa using hsplit
      have hold := (List.append_inj' hsplit' rfl).1
      exact (h.shared earlier rest id other slot' hold hother).concat (.bind n)

/-- One more request. -/
lemma serve (h : a.Shows o requests) (ha : o.allocation.serveAll requests = a)
    (request : Request) : (a.serve request).Shows o (requests ++ [request]) := by
  have hout := a.serve_outcome request
  generalize hgrant : a.grant? request = grant at hout
  generalize a.serve request = b at hout
  cases hout with
  | @reserved slot =>
    refine h.unbound rfl (by simp [ha, hgrant]) fun other => ?_
    rw [isTaken_iff, isTaken_iff, Request.reserve.injEq]
    simp only [reserve, List.mem_append, List.mem_singleton]
    tauto
  | @held n slot hheld =>
    refine h.unbound rfl ?_ (by simp)
    simpa [ha, hgrant] using mem_bindings_of_slotOf? hheld
  | @granted n slot hnone hslot => exact h.granted ha hnone hslot hgrant
  | @refused n _ => exact h.unbound rfl (by simp [ha, hgrant]) (by simp)

end Shows

/-- An allocation always shows its history. -/
theorem shows_serveAll (o : Origin) (requests : List Request) :
    (o.allocation.serveAll requests).Shows o requests := by
  induction requests using List.reverseRecOn with
  | nil => exact shows_origin o
  | append_singleton requests request ih =>
    rw [serveAll_concat]
    exact ih.serve rfl request

/-- Whatever is asked of an allocation, and in whatever order, it is a consistent map. Its
bindings are what was granted, each id once and in the order of its first grant. An id that is
bound keeps its slot, and binding it again changes nothing. An id that is not bound gets the slot
that its node chooses or, if it chooses none, the lowest one that the history has not taken;
it gets none exactly if there is no such slot, and then nothing changes. Two ids share a slot
only if the later one was bound by an assignment that chose it. -/
theorem serveAll_consistent (o : Origin) (requests : List Request) (a : Allocation)
    (h : o.allocation.serveAll requests = a) :
    (a.bindings = (o.allocation.grants requests).eraseDups ∧ (a.bindings.map Prod.fst).Nodup ∧
      ∀ id slot, (id, slot) ∈ a.bindings ↔ a.slotOf? id = some slot) ∧
    (∀ id slot, a.slotOf? id = some slot →
      (∀ more, (a.serveAll more).slotOf? id = some slot) ∧
      ∀ n : Node, n.id = id → a.bind n.id n.chosenSlot? = some (slot, a)) ∧
    (∀ n : Node, a.slotOf? n.id = none →
      (∀ slot, n.chosenSlot? = some slot → a.bind n.id n.chosenSlot? =
        some (slot, ⟨a.reserved, a.bindings ++ [(n.id, slot)]⟩)) ∧
      ∀ slot b, n.chosenSlot? = none → a.bind n.id n.chosenSlot? = some (slot, b) →
        ¬ o.Takes requests slot ∧
          ∀ lower : Slot, lower.index < slot.index → o.Takes requests lower) ∧
    (∀ n : Node, (a.bind n.id n.chosenSlot? = none ↔
        a.slotOf? n.id = none ∧ n.chosenSlot? = none ∧ ∀ slot, o.Takes requests slot) ∧
      (a.bind n.id n.chosenSlot? = none → a.serve (.bind n) = a)) ∧
    ∀ earlier later id other slot, a.bindings = earlier ++ (id, slot) :: later →
      (other, slot) ∈ earlier → o.Chose requests id slot := by
  have hshows : a.Shows o requests := h ▸ shows_serveAll o requests
  refine ⟨⟨hshows.bindings, hshows.nodup, fun id slot => mem_bindings_iff hshows.nodup⟩, ?_, ?_, ?_,
    hshows.shared⟩
  · intro id slot hheld
    refine ⟨fun more => slotOf?_of_prefix (a.bindings_prefix_serveAll more) hheld, ?_⟩
    rintro n rfl
    simp only [bind, hheld]
  · intro n hnone
    constructor
    · intro slot hchosen
      simp only [bind, hnone, hchosen]
      rfl
    · intro slot b hunchosen hb
      rcases bind_cases hb with ⟨hheld, -⟩ | ⟨-, -, hchosen | ⟨-, hfree⟩⟩
      · simp [hnone] at hheld
      · simp [hunchosen] at hchosen
      · refine ⟨fun htakes => ?_, fun lower hlower => ?_⟩
        · have hnot := isTaken_of_lowestFree? hfree
          rw [(hshows.taken slot).2 htakes] at hnot
          cases hnot
        · exact (hshows.taken lower).1 (isTaken_of_lt_lowestFree? hfree hlower)
  · intro n
    constructor
    · rw [bind_eq_none_iff, lowestFree?_eq_none_iff]
      simp only [hshows.taken]
    · intro hb
      simp only [serve, hb, Option.map_none, Option.getD_none]

/-- A value that is bound twice, and an assignment in between that chooses a slot. Another slot is
reserved. -/
def haggle (chosen reserved : Slot) : List Request :=
  [.bind ⟨"first", default, .valueAcquisition ⟨"Roll", .empty⟩⟩, .reserve reserved,
    .bind ⟨"second", default, .assignment (some chosen) none⟩,
    .bind ⟨"first", default, .assignment (some reserved) none⟩]

/-- A graph with one chosen slot. -/
def stake (chosen : Slot) : Graph := ⟨[⟨"other", default, .assignment (some chosen) none⟩], []⟩

/-- The assignment chooses the slot that the value got, and both keep it. -/
theorem serveAll_consistent_haggle :
    ∃ a, (Origin.graph (stake ⟨0⟩)).allocation.serveAll (haggle ⟨1⟩ ⟨2⟩) = a ∧
      a.bindings = [("first", ⟨1⟩), ("second", ⟨1⟩)] ∧
      a.bindings =
        ((Origin.graph (stake ⟨0⟩)).allocation.grants (haggle ⟨1⟩ ⟨2⟩)).eraseDups ∧
      (Origin.graph (stake ⟨0⟩)).Chose (haggle ⟨1⟩ ⟨2⟩) "second" ⟨1⟩ ∧
      (∃ b, a.bind "third" none = some (⟨3⟩, b)) ∧
      ¬ (Origin.graph (stake ⟨0⟩)).Takes (haggle ⟨1⟩ ⟨2⟩) ⟨3⟩ ∧
      (Origin.graph (stake ⟨0⟩)).Takes (haggle ⟨1⟩ ⟨2⟩) ⟨2⟩ := by
  have hbindings : ((Origin.graph (stake ⟨0⟩)).allocation.serveAll (haggle ⟨1⟩ ⟨2⟩)).bindings =
      [("first", ⟨1⟩), ("second", ⟨1⟩)] := by cbv
  obtain ⟨b, hb⟩ : ∃ b, ((Origin.graph (stake ⟨0⟩)).allocation.serveAll
      (haggle ⟨1⟩ ⟨2⟩)).bind "third" none = some (⟨3⟩, b) := ⟨_, by cbv⟩
  obtain ⟨⟨hgrants, -⟩, -, hunbound, -, hshared⟩ :=
    serveAll_consistent (.graph (stake ⟨0⟩)) (haggle ⟨1⟩ ⟨2⟩) _ rfl
  obtain ⟨hfree, hlower⟩ :=
    (hunbound ⟨"third", default, .valueAcquisition ⟨"Roll", .empty⟩⟩ (by cbv)).2 ⟨3⟩ b rfl hb
  have hchose := hshared [("first", ⟨1⟩)] [] "second" "first" ⟨1⟩ hbindings List.mem_cons_self
  exact ⟨_, rfl, hbindings, hgrants, hchose, ⟨b, hb⟩, hfree, hlower ⟨2⟩ (by decide)⟩

end Allocation

end ScriptGraph
