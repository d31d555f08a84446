import ScriptGraph.Proofs.Runs

/-!
# How slots are given out

Slots that a node of the graph chooses are never given to another node. The others are
given in ascending order, so at every point of a compilation those given so far are the
first ones of the free slots. Once a node goes without a slot all are taken, and stay so.
-/
namespace ScriptGraph

/-- The call of a node that yields a value, which is then bound to a slot. -/
def Node.valueCall? (n : Node) : Option Call :=
  match n.body with
  | .valueAcquisition call => some call
  | .assignment _ (some embedded) => some embedded.call
  | _ => none

namespace Graph

/-- The slots that nodes of the graph choose, reachable or not. -/
def chosenSlots (g : Graph) : List Slot := g.nodes.filterMap Node.chosenSlot?

/-- The slot that the node of an id chooses. -/
def chosenSlot? (g : Graph) (id : NodeId) : Option Slot := (g.node? id).bind Node.chosenSlot?

/-- The slots that no node chooses, ascending. -/
def freeSlots (g : Graph) : List Slot := Slot.all.filter (· ∉ g.chosenSlots)

/-- The slots of those bindings that were not chosen, in the order of the bindings. -/
def automaticSlots (g : Graph) (bindings : List (NodeId × Slot)) : List Slot :=
  (bindings.filter fun b => (g.chosenSlot? b.1).isNone).map Prod.snd

lemma chosenSlot?_of_node? {g : Graph} {n : Node} (h : g.node? n.id = some n) :
    g.chosenSlot? n.id = n.chosenSlot? := by
  simp [chosenSlot?, h]

lemma mem_chosenSlots {g : Graph} {id : NodeId} {slot : Slot} (h : g.chosenSlot? id = some slot) :
    slot ∈ g.chosenSlots := by
  obtain ⟨n, hn, hslot⟩ := Option.bind_eq_some_iff.1 h
  exact List.mem_filterMap.2 ⟨n, List.mem_of_find?_eq_some hn, hslot⟩

lemma mem_freeSlots {g : Graph} {slot : Slot} : slot ∈ g.freeSlots ↔ slot ∉ g.chosenSlots := by
  simp [freeSlots, Slot.mem_all]

lemma nodup_slots : Slot.all.Nodup := by decide

lemma nodup_freeSlots (g : Graph) : g.freeSlots.Nodup := nodup_slots.filter _

/-- Of the ten slots, those that are not chosen are free. -/
lemma length_freeSlots (g : Graph) :
    g.freeSlots.length = 10 - g.chosenSlots.toFinset.card := by
  have hall : g.chosenSlots.toFinset ⊆ Slot.all.toFinset := by
    intro slot _
    simp [Slot.mem_all]
  have hfree : g.freeSlots.toFinset = Slot.all.toFinset \ g.chosenSlots.toFinset := by
    ext slot
    simp [mem_freeSlots, Slot.mem_all]
  have hten : Slot.all.toFinset.card = 10 := by decide
  rw [← List.toFinset_card_of_nodup g.nodup_freeSlots, hfree, Finset.card_sdiff_of_subset hall,
    hten]

@[simp] theorem automaticSlots_append (g : Graph) (xs ys : List (NodeId × Slot)) :
    g.automaticSlots (xs ++ ys) = g.automaticSlots xs ++ g.automaticSlots ys := by
  simp [automaticSlots]

end Graph

namespace Allocation

lemma slotOf?_eq_none {a : Allocation} {id : NodeId} :
    a.slotOf? id = none ↔ id ∉ a.bindings.map Prod.fst := by
  simp only [slotOf?, List.lookup_eq_none_iff, bne_iff_ne, List.mem_map, not_exists, not_and]
  exact ⟨fun h b hb he => h b hb he.symm, fun h b hb he => h b hb he.symm⟩

lemma slotOf?_mem {a : Allocation} {id : NodeId} {slot : Slot} (h : a.slotOf? id = some slot) :
    slot ∈ a.bindings.map Prod.snd := by
  obtain ⟨before, after, hbindings, -⟩ := List.lookup_eq_some_iff.1 h
  rw [hbindings]
  simp

/-- What a binding comes to: the id is bound already, or it gets the slot that was chosen
or, if none was, the lowest free one. -/
lemma bind_cases {a a' : Allocation} {id : NodeId} {chosen : Option Slot} {slot : Slot}
    (h : a.bind id chosen = some (slot, a')) :
    (a.slotOf? id = some slot ∧ a' = a) ∨
      a.slotOf? id = none ∧ a' = ⟨a.reserved, a.bindings ++ [(id, slot)]⟩ ∧
        (chosen = some slot ∨ chosen = none ∧ a.lowestFree? = some slot) := by
  unfold bind at h
  cases hs : a.slotOf? id with
  | some held =>
    simp only [hs, Option.some.injEq, Prod.mk.injEq] at h
    exact .inl ⟨by rw [h.1], h.2.symm⟩
  | none =>
    simp only [hs] at h
    obtain ⟨given, hgiven, he⟩ := Option.map_eq_some_iff.1 h
    obtain ⟨rfl, rfl⟩ := Prod.mk.inj he
    refine .inr ⟨rfl, rfl, ?_⟩
    cases chosen with
    | some s => exact .inl hgiven
    | none => exact .inr ⟨rfl, hgiven⟩

/-- An allocation as a compilation of the graph makes it. -/
structure Fits (g : Graph) (a : Allocation) : Prop where
  reserved : a.reserved = g.chosenSlots
  nodup : (a.bindings.map Prod.fst).Nodup
  chosen : ∀ b ∈ a.bindings, ∀ slot, g.chosenSlot? b.1 = some slot → b.2 = slot
  automatic : g.automaticSlots a.bindings <+: g.freeSlots

/-- The id goes without a slot: it chooses none and all are taken. -/
structure Starved (g : Graph) (a : Allocation) (id : NodeId) : Prop where
  unchosen : g.chosenSlot? id = none
  unbound : a.slotOf? id = none
  exhausted : a.lowestFree? = none

lemma fits_ofGraph (g : Graph) : (ofGraph g).Fits g where
  reserved := rfl
  nodup := .nil
  chosen := by simp [ofGraph]
  automatic := List.nil_prefix

namespace Fits

variable {g : Graph} {a a' : Allocation}

lemma isTaken_iff (h : a.Fits g) {slot : Slot} :
    a.isTaken slot = true ↔ slot ∈ g.chosenSlots ∨ slot ∈ g.automaticSlots a.bindings := by
  simp only [isTaken, h.reserved, Bool.or_eq_true, List.contains_iff_mem, List.any_eq_true,
    beq_iff_eq, Graph.automaticSlots, List.mem_map, List.mem_filter]
  constructor
  · rintro (hmem | ⟨b, hb, rfl⟩)
    · exact .inl hmem
    · cases hc : g.chosenSlot? b.1 with
      | some slot => exact .inl (h.chosen b hb slot hc ▸ Graph.mem_chosenSlots hc)
      | none => exact .inr ⟨b, ⟨hb, by simp [hc]⟩, rfl⟩
  · rintro (hmem | ⟨b, ⟨hb, -⟩, rfl⟩)
    · exact .inl hmem
    · exact .inr ⟨b, hb, rfl⟩

/-- The lowest free slot is the first one behind those given so far. -/
lemma lowestFree?_eq_head? (h : a.Fits g) {rest : List Slot}
    (hrest : g.automaticSlots a.bindings ++ rest = g.freeSlots) : a.lowestFree? = rest.head? := by
  have hnodup : (g.automaticSlots a.bindings ++ rest).Nodup := hrest ▸ g.nodup_freeSlots
  have hdisjoint := List.disjoint_of_nodup_append hnodup
  have hfree : a.lowestFree? = g.freeSlots.find? (· ∉ g.automaticSlots a.bindings) := by
    rw [lowestFree?, Graph.freeSlots, List.find?_filter]
    congr 1
    funext slot
    by_cases htaken : a.isTaken slot = true
    · rcases h.isTaken_iff.1 htaken with hmem | hmem <;> simp [htaken, hmem]
    · have hmem := mt h.isTaken_iff.2 htaken
      simp_all
  have hgiven : (g.automaticSlots a.bindings).find? (· ∉ g.automaticSlots a.bindings) = none := by
    simp
  rw [hfree, ← hrest, List.find?_append, hgiven, Option.none_or]
  cases rest with
  | nil => rfl
  | cons slot rest =>
    have hslot : slot ∉ g.automaticSlots a.bindings :=
      fun hmem => hdisjoint hmem List.mem_cons_self
    simp [hslot]

/-- If no slot is free, all free slots of the graph were given. -/
lemma automaticSlots_eq (h : a.Fits g) (hnone : a.lowestFree? = none) :
    g.automaticSlots a.bindings = g.freeSlots := by
  obtain ⟨rest, hrest⟩ := h.automatic
  rw [h.lowestFree?_eq_head? hrest, List.head?_eq_none_iff] at hnone
  rw [← hrest, hnone, List.append_nil]

/-- Binding a node of the graph keeps the order of the given slots. -/
lemma bind (h : a.Fits g) {n : Node} {slot : Slot} (hn : g.node? n.id = some n)
    (hb : a.bind n.id n.chosenSlot? = some (slot, a')) : a'.Fits g := by
  have hchosen := Graph.chosenSlot?_of_node? hn
  rcases bind_cases hb with ⟨-, rfl⟩ | ⟨hnone, rfl, hslot⟩
  · exact h
  refine ⟨h.reserved, ?_, ?_, ?_⟩
  · rw [List.map_append, List.map_singleton, List.nodup_append_comm]
    exact List.nodup_cons.2 ⟨slotOf?_eq_none.1 hnone, h.nodup⟩
  · intro b hb s hs
    rcases List.mem_append.1 hb with hb | hb
    · exact h.chosen b hb s hs
    · obtain rfl := List.mem_singleton.1 hb
      rw [hchosen] at hs
      rcases hslot with hslot | ⟨hslot, -⟩
      · exact Option.some.inj (hslot.symm.trans hs)
      · simp [hslot] at hs
  · rw [Graph.automaticSlots_append]
    rcases hslot with hslot | ⟨hslot, hfree⟩
    -- A chosen slot does not count among the given ones; another one is the next of them.
    · have hnew : g.automaticSlots [(n.id, slot)] = [] := by
        simp [Graph.automaticSlots, hchosen, hslot]
      rw [hnew, List.append_nil]
      exact h.automatic
    · have hnew : g.automaticSlots [(n.id, slot)] = [slot] := by
        simp [Graph.automaticSlots, hchosen, hslot]
      obtain ⟨rest, hrest⟩ := h.automatic
      rw [h.lowestFree?_eq_head? hrest] at hfree
      obtain ⟨rest', rfl⟩ := List.head?_eq_some_iff.1 hfree
      exact ⟨rest', by rw [hnew, List.append_assoc, List.singleton_append, hrest]⟩

end Fits

/-- A slot that is taken stays taken. -/
lemma lowestFree?_append_eq_none {a : Allocation} (h : a.lowestFree? = none)
    (bindings : List (NodeId × Slot)) :
    (⟨a.reserved, a.bindings ++ bindings⟩ : Allocation).lowestFree? = none := by
  rw [lowestFree?_eq_none_iff] at h ⊢
  intro slot
  have htaken := h slot
  simp only [isTaken, Bool.or_eq_true, List.any_append] at htaken ⊢
  tauto

/-- Once an id goes without a slot it does so for good. -/
lemma Starved.bind {g : Graph} {a a' : Allocation} {id : NodeId} (h : a.Starved g id) {n : Node}
    {slot : Slot} (hn : g.node? n.id = some n)
    (hb : a.bind n.id n.chosenSlot? = some (slot, a')) : a'.Starved g id := by
  rcases bind_cases hb with ⟨-, rfl⟩ | ⟨-, rfl, hslot | ⟨-, hslot⟩⟩
  · exact h
  · have hne : n.id ≠ id := by
      rintro rfl
      have hunchosen := h.unchosen
      rw [Graph.chosenSlot?_of_node? hn, hslot] at hunchosen
      simp at hunchosen
    have hunbound := slotOf?_eq_none.1 h.unbound
    refine ⟨h.unchosen, slotOf?_eq_none.2 ?_, lowestFree?_append_eq_none h.exhausted _⟩
    simpa [hne.symm] using hunbound
  · simp [h.exhausted] at hslot

end Allocation

namespace Context

/-- The id holds a slot, or was reported to go without. -/
def Served (a : Allocation) (events : List Event) (id : NodeId) : Prop :=
  id ∈ a.bindings.map Prod.fst ∨ .reported (.slotsExhausted id) ∈ events

/-- What a stretch of a run does about slots. -/
structure Allots (c : Context) (p : Progress) (events : List Event) (q : Progress) : Prop where
  bound : p.allocation.bindings ⊆ q.allocation.bindings
  fits : p.allocation.Fits c.graph → q.allocation.Fits c.graph
  starved : ∀ id, p.allocation.Starved c.graph id → q.allocation.Starved c.graph id
  refused : ∀ id, .reported (.slotsExhausted id) ∈ events → q.allocation.Starved c.graph id
  served : ∀ id variant, .visited id variant ∈ events → ∀ n call, c.graph.node? id = some n →
    n.valueCall? = some call → c.registry.contains call.function = true →
    Served q.allocation events id
  recorded : ∀ r, .called r ∈ events → ∀ id ∈ r.visited, ∃ variant, .visited id variant ∈ events

lemma Served.mono {a b : Allocation} {xs ys : List Event} {id : NodeId} (h : Served a xs id)
    (hbindings : a.bindings ⊆ b.bindings) (hevents : xs ⊆ ys) : Served b ys id :=
  h.imp (fun hid => List.map_subset _ hbindings hid) (fun hid => hevents hid)

section Allots

variable {c : Context} {p q r : Progress} {xs ys : List Event}

lemma Allots.append (hx : c.Allots p xs q) (hy : c.Allots q ys r) :
    c.Allots p (xs ++ ys) r where
  bound := List.Subset.trans hx.bound hy.bound
  fits h := hy.fits (hx.fits h)
  starved id h := hy.starved id (hx.starved id h)
  refused := by
    intro id hmem
    rcases List.mem_append.1 hmem with hmem | hmem
    · exact hy.starved id (hx.refused id hmem)
    · exact hy.refused id hmem
  served := by
    intro id variant hmem n call hn hcall hs
    rcases List.mem_append.1 hmem with hmem | hmem
    · exact (hx.served id variant hmem n call hn hcall hs).mono hy.bound
        (List.subset_append_left _ _)
    · exact (hy.served id variant hmem n call hn hcall hs).mono (List.Subset.refl _)
        (List.subset_append_right _ _)
  recorded := by
    intro record hmem id hid
    rcases List.mem_append.1 hmem with hmem | hmem
    · obtain ⟨variant, hv⟩ := hx.recorded record hmem id hid
      exact ⟨variant, List.mem_append_left _ hv⟩
    · obtain ⟨variant, hv⟩ := hy.recorded record hmem id hid
      exact ⟨variant, List.mem_append_right _ hv⟩

/-- The event is a report or a remark that has nothing to do with slots running out. -/
def Unconcerned (event : Event) : Prop :=
  (∀ id, event ≠ .reported (.slotsExhausted id)) ∧ (∀ id variant, event ≠ .visited id variant) ∧
    ∀ record, event ≠ .called record

lemma allots_unconcerned (h : ∀ event ∈ xs, Unconcerned event)
    (hq : q.allocation = p.allocation) : c.Allots p xs q where
  bound := by rw [hq]; exact List.Subset.refl _
  fits := by rw [hq]; exact id
  starved := by rw [hq]; exact fun _ => id
  refused id hmem := absurd rfl ((h _ hmem).1 id)
  served id variant hmem := absurd rfl ((h _ hmem).2.1 id variant)
  recorded record hmem := absurd rfl ((h _ hmem).2.2 record)

/-- The visit itself: a node that yields a value is served by what follows. -/
lemma Allots.visited (h : c.Allots p xs q) {n : Node} (hn : c.graph.node? n.id = some n)
    (hserved : ∀ call, n.valueCall? = some call → c.registry.contains call.function = true →
      Served q.allocation xs n.id) : c.Allots p (.visited n.id n.variant :: xs) q where
  bound := h.bound
  fits := h.fits
  starved := h.starved
  refused id hmem := h.refused id (by simpa using hmem)
  served := by
    intro id variant hmem m call hm hcall hs
    rcases List.mem_cons.1 hmem with he | hmem
    · obtain ⟨rfl, -⟩ := Event.visited.inj he
      obtain rfl : n = m := Option.some.inj (hn.symm.trans hm)
      exact (hserved call hcall hs).mono (List.Subset.refl _) (List.subset_cons_self _ _)
    · exact (h.served id variant hmem m call hm hcall hs).mono (List.Subset.refl _)
        (List.subset_cons_self _ _)
  recorded record hmem id hid := by
    obtain ⟨variant, hv⟩ := h.recorded record (by simpa using hmem) id hid
    exact ⟨variant, List.mem_cons_of_mem _ hv⟩

lemma unconcerned_problems (c : Context) (a : Allocation) (id : NodeId) (call : Call) :
    ∀ event ∈ (c.serialize a id call).2.map Event.reported, Unconcerned event := by
  intro event hevent
  obtain ⟨d, hd, rfl⟩ := List.mem_map.1 hevent
  rcases c.serialize_cases a id call with ⟨-, he⟩ | ⟨schema, arguments, slots, -, he, -⟩
  · rw [he] at hd
    simp [List.mem_singleton.1 hd, Unconcerned]
  · rw [he] at hd
    obtain ⟨slot, -, rfl⟩ := List.mem_map.1 hd
    simp [Unconcerned]

/-- A value that is acquired gets the slot that its node is due, or is reported. -/
lemma allots_acquire {n : Node} (hn : c.graph.node? n.id = some n) (call : Call) (p : Progress) :
    c.Allots p (c.acquire n call p).events (c.acquire n call p).progress ∧
      (c.registry.contains call.function = true →
        Served (c.acquire n call p).progress.allocation (c.acquire n call p).events n.id) := by
  have hproblems := c.unconcerned_problems p.allocation n.id call
  unfold acquire
  rcases c.serialize_cases p.allocation n.id call with
    ⟨hs, he⟩ | ⟨schema, arguments, slots, hs, he, -⟩
  · rw [he] at hproblems ⊢
    refine ⟨allots_unconcerned hproblems rfl, fun hcontains => ?_⟩
    simp [Registry.contains, NameMap.contains, show c.registry.schemas.get? call.function = none
      from hs] at hcontains
  rw [he] at hproblems ⊢
  have hquiet : c.Allots p _ p := allots_unconcerned hproblems rfl
  cases hb : p.allocation.bind n.id n.chosenSlot? with
  | none =>
    obtain ⟨hunbound, hunchosen, hexhausted⟩ := Allocation.bind_eq_none_iff.1 hb
    have hstarved : p.allocation.Starved c.graph n.id :=
      ⟨by rw [Graph.chosenSlot?_of_node? hn, hunchosen], hunbound, hexhausted⟩
    have hreport : c.Allots p [.reported (.slotsExhausted n.id)] p :=
      { bound := List.Subset.refl _, fits := id, starved := fun _ => id,
        refused := by simpa using hstarved, served := by simp, recorded := by simp }
    exact ⟨hquiet.append hreport, fun _ => .inr (by simp)⟩
  | some result =>
    obtain ⟨slot, a'⟩ := result
    have hbindings : p.allocation.bindings ⊆ a'.bindings ∧ n.id ∈ a'.bindings.map Prod.fst := by
      rcases Allocation.bind_cases hb with ⟨hheld, rfl⟩ | ⟨-, rfl, -⟩
      · refine ⟨List.Subset.refl _, not_not.1 fun hno => ?_⟩
        simp [Allocation.slotOf?_eq_none.2 hno] at hheld
      · exact ⟨List.subset_append_left _ _, by simp⟩
    have hbind : c.Allots p
        (if (p.allocation.slotOf? n.id).isSome then [] else [.bound n.id slot])
        ⟨a', p.calls, p.limitReported⟩ :=
      { bound := hbindings.1
        fits := fun h => h.bind hn hb
        starved := fun id h => h.bind hn hb
        refused := by intro id hmem; split_ifs at hmem <;> simp at hmem
        served := by intro id variant hmem; split_ifs at hmem <;> simp at hmem
        recorded := by intro record hmem; split_ifs at hmem <;> simp at hmem }
    exact ⟨hquiet.append hbind, fun _ => .inl hbindings.2⟩

/-- A node that yields a value is visited by acquiring it. -/
lemma visit_valueCall {expandable : List NodeId}
    {follow : (id : NodeId) → id ∈ expandable → Follow} {n : Node} {call : Call}
    (h : n.valueCall? = some call) :
    c.visit expandable follow n p = c.acquire n call p := by
  unfold Node.valueCall? at h
  split at h <;> simp_all [visit]

/-- Any other node that is no conditional leaves the progress as it is. -/
lemma visit_valueless {expandable : List NodeId}
    {follow : (id : NodeId) → id ∈ expandable → Follow} {n : Node}
    (h : n.valueCall? = none) (hv : n.variant ≠ .conditional) :
    (c.visit expandable follow n p).progress = p ∧
      ∀ event ∈ (c.visit expandable follow n p).events, Unconcerned event := by
  unfold visit
  split
  · exact ⟨rfl, by simp [Unconcerned]⟩
  · rename_i hbody
    simp [Node.valueCall?, hbody] at h
  · exact ⟨rfl, c.unconcerned_problems _ _ _⟩
  · rename_i hbody
    exact absurd (Node.variant_eq_conditional.2 ⟨_, hbody⟩) hv
  · exact ⟨rfl, by simp⟩
  · exact ⟨rfl, by simp [Unconcerned]⟩
  · rename_i hbody
    simp [Node.valueCall?, hbody] at h

lemma Aside.unconcerned_or {event : Event} (h : c.Aside event) :
    Unconcerned event ∨ ∃ n, c.graph.node? n.id = some n ∧ n.variant = .conditional ∧
      event = .visited n.id n.variant := by
  cases h with
  | conditional hid =>
    obtain ⟨n, hn, hv⟩ := hid
    obtain rfl := Graph.node?_id hn
    exact .inr ⟨n, hn, hv, by rw [hv]⟩
  | _ => exact .inl (by simp [Unconcerned])

lemma allots_aside {event : Event} (h : c.Aside event) (p : Progress) :
    c.Allots p [event] p := by
  rcases h.unconcerned_or with h | ⟨n, hn, hv, rfl⟩
  · exact allots_unconcerned (by simpa using h) rfl
  · have hnone : n.valueCall? = none := by
      obtain ⟨condition, hbody⟩ := Node.variant_eq_conditional.1 hv
      simp [Node.valueCall?, hbody]
    exact (allots_unconcerned (by simp) rfl).visited hn (by simp [hnone])

/-- Every run gives out slots in this way. -/
lemma threaded_allots (c : Context) : Threaded c c.Allots where
  nothing p := allots_unconcerned (by simp) rfl
  append := Allots.append
  aside p h := allots_aside h p
  limited id p _ _ := allots_unconcerned (by simp [Unconcerned]) rfl
  visit := by
    intro expandable follow n p hn hv
    dsimp only [visitStretch]
    cases hcall : n.valueCall? with
    | some call =>
      rw [visit_valueCall hcall]
      obtain ⟨hallots, hserved⟩ := allots_acquire hn call p
      refine hallots.visited hn fun call' hcall' => ?_
      obtain rfl : call = call' := Option.some.inj (hcall.symm.trans hcall')
      exact hserved
    | none =>
      obtain ⟨hprogress, hevents⟩ := visit_valueless (c := c) (p := p) hcall hv
      have hallots := allots_unconcerned (c := c) hevents (congrArg Progress.allocation hprogress)
      exact hallots.visited hn (by simp [hcall])
  call := by
    intro start visited p events q hvisited h
    refine ⟨h.bound, h.fits, h.starved, fun id hmem => h.refused id (by simpa using hmem), ?_, ?_⟩
    · intro id variant hmem n call hn hcall hs
      exact (h.served id variant (by simpa using hmem) n call hn hcall hs).mono
        (List.Subset.refl _) (List.subset_cons_self _ _)
    · intro record hmem id hid
      have hfound : ∃ variant, .visited id variant ∈ events := by
        rcases List.mem_cons.1 hmem with he | hmem
        · obtain rfl := Event.called.inj he
          exact hvisited id hid
        · exact h.recorded record hmem id hid
      obtain ⟨variant, hv⟩ := hfound
      exact ⟨variant, List.mem_cons_of_mem _ hv⟩

end Allots

/-- What comes before the streams does not concern slots. -/
lemma unconcerned_preamble {c : Context} {a : Allocation} {entry : NodeId} {call : Call}
    {others : List (NodeId × Call)} :
    ∀ event ∈ others.map (fun other => .reported (.additionalEntryPoint other.1)) ++
      (c.header a entry call).2.map .reported, Unconcerned event := by
  intro event hevent
  rcases mem_preamble hevent with ⟨id, rfl⟩ | rfl | ⟨slot, rfl⟩ <;> simp [Unconcerned]

lemma allots_of_run {c : Context} {out : Emission Script} (h : c.run = .ok out) :
    c.Allots c.start out.events out.progress := by
  cases ht : c.graph.timings with
  | nil => simp [run, ht] at h
  | cons first others =>
    rw [run_eq ht] at h
    obtain rfl := Except.ok.inj h
    refine Allots.append (q := c.start) ?_ (c.threaded_allots.streams _ _ _)
    exact allots_unconcerned unconcerned_preamble rfl

end Context

namespace Graph

/-- The slots of a compilation are given out exactly. No id is bound twice, a slot that a
node chooses goes to that node, and the other bindings take the lowest free slots, in
order. Only when these are used up is an id reported to go without, and then it is not
bound; every visited value is bound or so reported. -/
theorem compile_allocation (g : Graph) (registry : Registry) (options : Options)
    (result : Compilation) (h : g.compile registry options = .ok result) :
    (result.bindings.map Prod.fst).Nodup ∧
    (∀ id slot chosen, (id, slot) ∈ result.bindings → g.chosenSlot? id = some chosen →
      slot = chosen) ∧
    (∃ k ≤ 10 - g.chosenSlots.toFinset.card,
      g.automaticSlots result.bindings = g.freeSlots.take k ∧
      (g.automaticSlots result.bindings).Nodup ∧
      (∀ slot ∈ g.automaticSlots result.bindings, slot ∉ g.chosenSlots) ∧
      ∀ id, .slotsExhausted id ∈ result.diagnostics →
        g.chosenSlot? id = none ∧ id ∉ result.bindings.map Prod.fst ∧
          k = 10 - g.chosenSlots.toFinset.card) ∧
    ∀ r ∈ result.trace, ∀ id ∈ r.visited, ∀ n call, g.node? id = some n →
      n.valueCall? = some call → registry.contains call.function = true →
      id ∈ result.bindings.map Prod.fst ∨ .slotsExhausted id ∈ result.diagnostics := by
  obtain ⟨out, hrun, rfl⟩ := run_of_compile h
  have hallots := Context.allots_of_run hrun
  have hfits : out.progress.allocation.Fits g := hallots.fits (Allocation.fits_ofGraph g)
  refine ⟨hfits.nodup, ?_, ?_, ?_⟩
  · exact fun id slot chosen hmem hchosen => hfits.chosen (id, slot) hmem chosen hchosen
  · refine ⟨(g.automaticSlots out.progress.allocation.bindings).length, ?_, ?_, ?_, ?_, ?_⟩
    · rw [← g.length_freeSlots]
      exact hfits.automatic.length_le
    · exact List.prefix_iff_eq_take.1 hfits.automatic
    · exact g.nodup_freeSlots.sublist hfits.automatic.sublist
    · exact fun slot hslot => mem_freeSlots.1 (hfits.automatic.subset hslot)
    · intro id hid
      have hstarved := hallots.refused id (Event.mem_diagnostics.1 hid)
      refine ⟨hstarved.unchosen, Allocation.slotOf?_eq_none.1 hstarved.unbound, ?_⟩
      rw [hfits.automaticSlots_eq hstarved.exhausted, g.length_freeSlots]
  · intro r hr id hid n call hn hcall hs
    obtain ⟨variant, hv⟩ := hallots.recorded r (Event.mem_trace.1 hr) id hid
    refine (hallots.served id variant hv n call hn hcall hs).imp_right fun hmem => ?_
    exact Event.mem_diagnostics.2 hmem

/-- A graph that leaves one slot free. Nine assignments that nothing leads to choose the
others; of the two values that follow the trigger one has to go without a slot, and the
assignment after them chooses a slot that is chosen already. -/
def crowded : Graph where
  nodes := ⟨"start", default, .timing ⟨"Begin", .empty⟩⟩ ::
    (Slot.all.take 9).map (fun slot => ⟨slot.text, default, .assignment (some slot) none⟩) ++
    [⟨"first", default, .valueAcquisition ⟨"Roll", .empty⟩⟩,
      ⟨"second", default, .valueAcquisition ⟨"Roll", .empty⟩⟩,
      ⟨"third", default, .assignment (some ⟨3⟩) (some ⟨"inner", ⟨"Roll", .empty⟩⟩)⟩]
  edges := [⟨"start", .output, "first", .input⟩, ⟨"first", .output, "second", .input⟩,
    ⟨"second", .output, "third", .input⟩]

/-- A registry with a single function, which yields a value. -/
def dice : Registry := Registry.empty.register ⟨"Roll", .valueAcquisition, ["sides"]⟩

theorem compile_allocation_crowded : ∃ result, crowded.compile dice {} = .ok result ∧
    result.bindings = [("first", ⟨9⟩), ("third", ⟨3⟩)] ∧
    crowded.freeSlots = [⟨9⟩] ∧ crowded.automaticSlots result.bindings = [⟨9⟩] ∧
    .slotsExhausted "second" ∈ result.diagnostics ∧
    crowded.chosenSlot? "second" = none ∧ "second" ∉ result.bindings.map Prod.fst ∧
    ("second" ∈ result.bindings.map Prod.fst ∨ .slotsExhausted "second" ∈ result.diagnostics) := by
  have hview : (crowded.compile dice {}).toOption.map
      (fun result => (result.bindings, result.diagnostics, result.trace)) =
      some ([("first", ⟨9⟩), ("third", ⟨3⟩)],
        [.unknownFunction "start" "Begin", .slotsExhausted "second"],
        [⟨"first", ["first", "second", "third"]⟩]) := by cbv
  obtain ⟨result, hok, hparts⟩ := exists_ok_of_map hview
  simp only [Prod.mk.injEq] at hparts
  obtain ⟨hbindings, hdiagnostics, htrace⟩ := hparts
  have hexhausted : .slotsExhausted "second" ∈ result.diagnostics := by simp [hdiagnostics]
  obtain ⟨-, -, ⟨k, -, -, -, -, hstarved⟩, hserved⟩ :=
    compile_allocation crowded dice {} result hok
  obtain ⟨hunchosen, hunbound, -⟩ := hstarved "second" hexhausted
  refine ⟨result, hok, hbindings, by decide, by rw [hbindings]; decide, hexhausted, hunchosen,
    hunbound, ?_⟩
  exact hserved ⟨"first", ["first", "second", "third"]⟩ (by simp [htrace]) "second" (by simp)
    ⟨"second", default, .valueAcquisition ⟨"Roll", .empty⟩⟩ ⟨"Roll", .empty⟩ (by decide) rfl
    (by decide)

end Graph

end ScriptGraph
