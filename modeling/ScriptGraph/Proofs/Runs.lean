import ScriptGraph.Proofs.BreadthFirst

/-!
# Induction over runs

What holds of every visit, and of one stretch of a run after another, holds of whole walks
and of all streams. Two runs that go through the same sweeps can be compared visit by visit;
a property of a single run is a relation that looks at only one of the two. The induction
over steps and nested walks is done here once, for two graphs whose sweeps agree wherever
the relation looks into them. Two runs over one graph are the common case.
-/
namespace ScriptGraph

open Script (Statement)

/-- One stretch of a run and then another. -/
def Emission.append (x y : Emission (List Statement)) : Emission (List Statement) :=
  ⟨x.value ++ y.value, x.events ++ y.events, y.progress⟩

namespace Context

/-- A visit with its event, as a stretch of a run. -/
def visitStretch (c : Context) (expandable : List NodeId)
    (follow : (id : NodeId) → id ∈ expandable → Follow) (n : Node) (p : Progress) :
    Emission (List Statement) :=
  let visited := c.visit expandable follow n p
  ⟨visited.value.toList, .visited n.id n.variant :: visited.events, visited.progress⟩

/-- A relation between stretches of two runs, each with the progress before it. -/
abbrev StretchRelation :=
  Progress → Emission (List Statement) → Progress → Emission (List Statement) → Prop

/-- Two runs in step, over graphs that may differ. `R` relates stretches inside of walks, `W`
whole walks from a start. It is for `W` to see to it that the sweeps of the two walks are the
same and visit only ids with the property `P`; then the walks are related if their stretches
are. For the ids with the property both graphs have the same conditionals. -/
structure Lockstep (c c' : Context) (P : NodeId → Prop) (R : StretchRelation)
    (W : NodeId → StretchRelation) : Prop where
  conditional : ∀ id, P id → (c'.graph.IsConditional id ↔ c.graph.IsConditional id)
  nothing : ∀ p p', R p ⟨[], [], p⟩ p' ⟨[], [], p'⟩
  append : ∀ {p x y p' x' y'}, R p x p' x' → R x.progress y x'.progress y' →
    R p (x.append y) p' (x'.append y')
  absent : ∀ id referencedBy p p', R p ⟨[], [.reported (.nodeNotFound id referencedBy)], p⟩
    p' ⟨[], [.reported (.nodeNotFound id referencedBy)], p'⟩
  visit : ∀ {expandable : List NodeId} {follow follow' : (id : NodeId) → id ∈ expandable → Follow}
    {n : Node} (p p'), c.graph.node? n.id = some n → P n.id →
    (∀ id h target q q', W target q (follow id h target q) q' (follow' id h target q')) →
    R p (c.visitStretch expandable follow n p) p' (c'.visitStretch expandable follow' n p')
  call : ∀ {start referencedBy p x p' x'},
    (∀ id ∈ (c.graph.sweep start referencedBy).filterMap Step.visitedId?,
      ∃ variant, .visited id variant ∈ x.events) →
    (c'.graph.sweep start referencedBy = c.graph.sweep start referencedBy →
      (∀ id ∈ (c.graph.sweep start referencedBy).filterMap Step.visitedId?, P id) →
      R ⟨p.allocation, p.calls + 1, p.limitReported⟩ x
        ⟨p'.allocation, p'.calls + 1, p'.limitReported⟩ x') →
    W start
      p ⟨x.value,
        .called ⟨start, (c.graph.sweep start referencedBy).filterMap Step.visitedId?⟩ ::
          x.events, x.progress⟩
      p' ⟨x'.value,
        .called ⟨start, (c'.graph.sweep start referencedBy).filterMap Step.visitedId?⟩ ::
          x'.events, x'.progress⟩

/-- The relation holds of whole runs if it holds of their parts. Branches may be taken to
be related already. The ids of a traversal call were visited after it began. -/
structure Coupling (c c' : Context) (R : StretchRelation) : Prop where
  graph_eq : c'.graph = c.graph
  nothing : ∀ p p', R p ⟨[], [], p⟩ p' ⟨[], [], p'⟩
  append : ∀ {p x y p' x' y'}, R p x p' x' → R x.progress y x'.progress y' →
    R p (x.append y) p' (x'.append y')
  absent : ∀ id referencedBy p p', R p ⟨[], [.reported (.nodeNotFound id referencedBy)], p⟩
    p' ⟨[], [.reported (.nodeNotFound id referencedBy)], p'⟩
  visit : ∀ {expandable : List NodeId} {follow follow' : (id : NodeId) → id ∈ expandable → Follow}
    {n : Node} (p p'), c.graph.node? n.id = some n →
    (∀ id h target q q', R q (follow id h target q) q' (follow' id h target q')) →
    R p (c.visitStretch expandable follow n p) p' (c'.visitStretch expandable follow' n p')
  call : ∀ {start visited p x p' x'},
    (∀ id ∈ visited, ∃ variant, .visited id variant ∈ x.events) →
    R ⟨p.allocation, p.calls + 1, p.limitReported⟩ x
      ⟨p'.allocation, p'.calls + 1, p'.limitReported⟩ x' →
    R p ⟨x.value, .called ⟨start, visited⟩ :: x.events, x.progress⟩
      p' ⟨x'.value, .called ⟨start, visited⟩ :: x'.events, x'.progress⟩
  streamed : ∀ target p p', R p ⟨[], [.streamed target], p⟩ p' ⟨[], [.streamed target], p'⟩

lemma perform_present (c : Context) (expandable : List NodeId)
    (follow : (id : NodeId) → id ∈ expandable → Follow) (n : Node) (rest : List Step)
    (p : Progress) : c.perform expandable follow (.present n :: rest) p =
      (c.visitStretch expandable follow n p).append
        (c.perform expandable follow rest (c.visitStretch expandable follow n p).progress) := rfl

/-- Every node that a sweep meets is visited. -/
lemma visited_of_perform (c : Context) (expandable : List NodeId)
    (follow : (id : NodeId) → id ∈ expandable → Follow) (steps : List Step) (p : Progress) :
    ∀ id ∈ steps.filterMap Step.visitedId?,
      ∃ variant, .visited id variant ∈ (c.perform expandable follow steps p).events := by
  induction steps generalizing p with
  | nil => simp
  | cons s rest ih =>
    intro id hid
    cases s with
    | absent other referencedBy =>
      obtain ⟨variant, hmem⟩ := ih p id hid
      exact ⟨variant, List.mem_cons_of_mem _ hmem⟩
    | present n =>
      rw [perform_present]
      rcases List.mem_cons.1 hid with rfl | hid
      · exact ⟨n.variant, List.mem_append_left _ List.mem_cons_self⟩
      · obtain ⟨variant, hmem⟩ := ih (c.visitStretch expandable follow n p).progress id hid
        exact ⟨variant, List.mem_append_right _ hmem⟩

/-- A visit depends on the expandable ids only in whether the node is one of them. -/
lemma visitStretch_congr (c : Context) {ids ids' : List NodeId}
    {follow : (id : NodeId) → id ∈ ids → Follow} {follow' : (id : NodeId) → id ∈ ids' → Follow}
    {n : Node} (hmem : n.id ∈ ids' ↔ n.id ∈ ids)
    (hfollow : ∀ h' h, follow' n.id h' = follow n.id h) (p : Progress) :
    c.visitStretch ids' follow' n p = c.visitStretch ids follow n p := by
  have hvisit : c.visit ids' follow' n p = c.visit ids follow n p := by
    unfold visit
    split <;> try rfl
    by_cases hid : n.id ∈ ids
    · rw [dif_pos hid, dif_pos (hmem.2 hid), hfollow (hmem.2 hid) hid]
    · rw [dif_neg hid, dif_neg (mt hmem.1 hid)]
  unfold visitStretch
  rw [hvisit]

namespace Lockstep

variable {c c' : Context} {P : NodeId → Prop} {R : StretchRelation} {W : NodeId → StretchRelation}

lemma perform (h : Lockstep c c' P R W) {ids ids' : List NodeId}
    (hids : ∀ id, P id → (id ∈ ids' ↔ id ∈ ids))
    (hwalk : ∀ id ∈ ids, ∀ target q q', W target q (c.walk (without ids id) target id q)
      q' (c'.walk (without ids' id) target id q'))
    {steps : List Step} (htrue : ∀ s ∈ steps, s.IsTrue c.graph)
    (hP : ∀ id ∈ steps.filterMap Step.visitedId?, P id) (p p' : Progress) :
    R p (c.perform ids (c.nested ids) steps p) p' (c'.perform ids' (c'.nested ids') steps p') := by
  induction steps generalizing p p' with
  | nil => exact h.nothing p p'
  | cons s rest ih =>
    obtain ⟨hs, hrest⟩ := List.forall_mem_cons.1 htrue
    cases s with
    | absent id referencedBy => exact h.append (h.absent id referencedBy p p') (ih hrest hP p p')
    | present n =>
      obtain ⟨hn, hP⟩ := List.forall_mem_cons.1 hP
      -- The second run may expand other ids, but not at this node.
      have hsame : c'.visitStretch ids' (c'.nested ids') n p' = c'.visitStretch ids
          (fun id _ target q => c'.walk (without ids' id) target id q) n p' :=
        c'.visitStretch_congr (hids n.id hn) (fun _ _ => rfl) p'
      rw [perform_present, perform_present, hsame]
      exact h.append (h.visit p p' hs hn hwalk) (ih hrest hP _ _)

/-- Related visits make related walks. -/
theorem walk (h : Lockstep c c' P R W) {ids ids' : List NodeId}
    (hids : ∀ id, P id → (id ∈ ids' ↔ id ∈ ids)) (start referencedBy : NodeId) (p p' : Progress) :
    W start p (c.walk ids start referencedBy p) p' (c'.walk ids' start referencedBy p') := by
  induction ids using walk_induction generalizing ids' start referencedBy p p' with
  | step ids ih =>
    have hnested : ∀ id ∈ ids, ∀ target q q', W target q (c.walk (without ids id) target id q)
        q' (c'.walk (without ids' id) target id q') := by
      intro id hid target q q'
      refine ih id hid (fun other hother => ?_) target id q q'
      rw [mem_without, mem_without, hids other hother]
    rw [walk_eq, walk_eq]
    refine h.call (c.visited_of_perform ids _ _ _) fun hsweep hP => ?_
    rw [hsweep]
    exact h.perform hids hnested (c.graph.sweepFrom_isTrue _ _) hP _ _

/-- The walks of the streams may expand every conditional. -/
lemma streamWalk (h : Lockstep c c' P R W) (start referencedBy : NodeId) (p p' : Progress) :
    W start p (c.walk c.graph.conditionalIds start referencedBy p)
      p' (c'.walk c'.graph.conditionalIds start referencedBy p') := by
  refine h.walk (fun id hid => ?_) start referencedBy p p'
  rw [Graph.mem_conditionalIds, Graph.mem_conditionalIds, h.conditional id hid]

/-- Related walks make related streams, if they do so one by one. -/
theorem streams (h : Lockstep c c' P R W)
    (hstream : ∀ {target p x p' x'}, W target p x p' x' →
      R p ⟨x.value, .streamed target :: x.events, x.progress⟩
        p' ⟨x'.value, .streamed target :: x'.events, x'.progress⟩)
    (entry : NodeId) (edges : List Edge) (p p' : Progress) :
    R p (c.streams entry edges p) p' (c'.streams entry edges p') := by
  induction edges generalizing p p' with
  | nil => exact h.nothing p p'
  | cons e rest ih =>
    have hwalk := h.streamWalk e.target entry p p'
    exact h.append (hstream hwalk) (ih _ _)

end Lockstep

namespace Coupling

variable {c c' : Context} {R : StretchRelation}

/-- Over one graph all sweeps are the same. -/
lemma lockstep (h : Coupling c c' R) : Lockstep c c' (fun _ => True) R (fun _ => R) where
  conditional _ _ := by rw [h.graph_eq]
  nothing := h.nothing
  append := h.append
  absent := h.absent
  visit p p' hn _ hfollow := h.visit p p' hn hfollow
  call := by
    intro start referencedBy p x p' x' hvisited hx
    rw [h.graph_eq]
    exact h.call hvisited (hx (by rw [h.graph_eq]) fun _ _ => trivial)

/-- Related visits make related streams. -/
theorem streams (h : Coupling c c' R) (entry : NodeId) (edges : List Edge) (p p' : Progress) :
    R p (c.streams entry edges p) p' (c'.streams entry edges p') := by
  refine h.lockstep.streams (fun {target p x p' x'} hwalk => ?_) entry edges p p'
  exact h.append (h.streamed target p p') hwalk

end Coupling

/-- Events that are neither of a traversal call nor of a node with a statement of its own.
They leave the progress as it is. -/
inductive Aside (c : Context) : Event → Prop
  | absent {id referencedBy : NodeId} : Aside c (.reported (.nodeNotFound id referencedBy))
  | conditional {id : NodeId} : c.graph.IsConditional id → Aside c (.visited id .conditional)
  | refused {id : NodeId} : Aside c (.reported (.recursiveBranch id))
  | fannedOut {id : NodeId} {handle : Handle} {ignored : ℕ} :
      Aside c (.reported (.branchFanOut id handle ignored))
  | branched {id target : NodeId} {handle : Handle} : Aside c (.branched id handle target)
  | streamed {target : NodeId} : Aside c (.streamed target)

/-- A property of the events of a stretch and of the progress before and after it holds of
whole runs if it holds of their parts. Branches are put together from these. -/
structure Threaded (c : Context) (E : Progress → List Event → Progress → Prop) : Prop where
  nothing : ∀ p, E p [] p
  append : ∀ {p xs q ys r}, E p xs q → E q ys r → E p (xs ++ ys) r
  aside : ∀ {event} (p), c.Aside event → E p [event] p
  limited : ∀ id p, c.options.maxCalls ≤ p.calls → p.limitReported = false →
    E p [.reported (.limitReached id c.options.maxCalls)] ⟨p.allocation, p.calls, true⟩
  visit : ∀ {expandable : List NodeId} {follow : (id : NodeId) → id ∈ expandable → Follow}
    {n : Node} (p), c.graph.node? n.id = some n → n.variant ≠ .conditional →
    E p (c.visitStretch expandable follow n p).events
      (c.visitStretch expandable follow n p).progress
  call : ∀ {start visited p events q},
    (∀ id ∈ visited, ∃ variant, .visited id variant ∈ events) →
    E ⟨p.allocation, p.calls + 1, p.limitReported⟩ events q →
    E p (.called ⟨start, visited⟩ :: events) q

namespace Threaded

variable {c : Context} {E : Progress → List Event → Progress → Prop}

lemma cons (h : Threaded c E) {event : Event} {events : List Event} {p q : Progress}
    (hevent : c.Aside event) (hevents : E p events q) : E p (event :: events) q :=
  h.append (h.aside p hevent) hevents

lemma fanOut (h : Threaded c E) (id : NodeId) (handle : Handle) (ignored : List Edge)
    (p : Progress) : E p (c.fanOut id handle ignored) p := by
  unfold Context.fanOut
  split_ifs
  · exact h.aside p .fannedOut
  · exact h.nothing p

lemma branch (h : Threaded c E) {id : NodeId} {follow : Follow} {handle : Handle}
    (hfollow : ∀ target q, E q (follow target q).events (follow target q).progress)
    (p : Progress) : E p (c.branch id follow handle p).events
      (c.branch id follow handle p).progress := by
  have hout := c.branch_outcome id follow handle p
  generalize c.branch id follow handle p = out at hout
  cases hout with
  | unconnected ho => exact h.nothing p
  | @followed first ignored ho hcalls =>
    exact h.append (h.fanOut id handle ignored p) (h.cons .branched (hfollow first.target p))
  | @dropped first ignored ho hcalls hr => exact h.fanOut id handle ignored p
  | @limited first ignored ho hcalls hr =>
    exact h.append (h.fanOut id handle ignored p) (h.limited id p hcalls hr)

lemma visitConditional (h : Threaded c E) {expandable : List NodeId}
    {follow : (id : NodeId) → id ∈ expandable → Follow} {n : Node}
    (hn : c.graph.node? n.id = some n) (hv : n.variant = .conditional)
    (hfollow : ∀ id hmem target q,
      E q (follow id hmem target q).events (follow id hmem target q).progress)
    (p : Progress) : E p (c.visitStretch expandable follow n p).events
      (c.visitStretch expandable follow n p).progress := by
  have hvisited : c.Aside (.visited n.id n.variant) := hv ▸ .conditional ⟨n, hn, hv⟩
  refine h.cons hvisited ?_
  dsimp only [visitStretch]
  have hout := c.visit_outcome expandable follow n p
  generalize c.visit expandable follow n p = out at hout
  cases hout with
  | omitted homit =>
    rw [omission?_conditional hv] at homit
    split_ifs at homit
    obtain rfl := Option.some.inj homit
    exact h.aside p .refused
  | written _ hv' => exact absurd hv hv'
  | expanded hmem hbody =>
    exact h.append (h.branch (hfollow n.id hmem) p) (h.branch (hfollow n.id hmem) _)

lemma coupling (h : Threaded c E) : Coupling c c fun p x _ _ => E p x.events x.progress where
  graph_eq := rfl
  nothing p _ := h.nothing p
  append := h.append
  absent id referencedBy p _ := h.aside p .absent
  visit := by
    intro expandable follow _ n p _ hn hfollow
    by_cases hv : n.variant = .conditional
    · exact h.visitConditional hn hv (fun id hmem target q => hfollow id hmem target q q) p
    · exact h.visit p hn hv
  call := h.call
  streamed target p _ := h.aside p .streamed

/-- The streams of a run have the property. -/
theorem streams (h : Threaded c E) (entry : NodeId) (edges : List Edge) (p : Progress) :
    E p (c.streams entry edges p).events (c.streams entry edges p).progress :=
  h.coupling.streams entry edges p p

end Threaded

end Context

end ScriptGraph
