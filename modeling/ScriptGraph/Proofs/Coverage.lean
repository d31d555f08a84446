import ScriptGraph.Proofs.BreadthFirst

/-!
# What a compilation covers

A compilation visits nothing but live ids. If its limit is never reached it visits every
live node, although a conditional is not expanded inside its own branches: a route through
such a branch can be cut short behind the last time that it leaves the conditional, so what
the inner walk leaves out is found by the outer one.
-/
namespace ScriptGraph

open ScriptGraph.Graph (IsBranch)
open Context (without)

namespace Graph

lemma OutputRoute.cons {g : Graph} {u v x : NodeId} {k : ℕ} (hs : g.OutputStep u v)
    (h : g.OutputRoute v k x) : g.OutputRoute u (k + 1) x := by
  induction h with
  | nil => exact .snoc .nil hs
  | snoc _ hlast ih => exact .snoc ih hlast

/-- A followed step that takes branches only at the given conditionals. -/
def StepWithin (g : Graph) (ids : List NodeId) (u v : NodeId) : Prop :=
  g.OutputStep u v ∨ u ∈ ids ∧ g.BranchStep u v

abbrev Within (g : Graph) (ids : List NodeId) : NodeId → NodeId → Prop :=
  Relation.ReflTransGen (g.StepWithin ids)

lemma Follows.within {g : Graph} {u x : NodeId} (h : g.Follows u x) :
    g.Within g.conditionalIds u x :=
  Relation.ReflTransGen.mono (fun _ _ hs =>
    hs.imp_right fun hb => ⟨mem_conditionalIds.2 hb.1, hb⟩) _ _ h

/-- Behind the last branch that a route takes at some conditional, it takes none there. -/
lemma Within.without {g : Graph} {ids : List NodeId} {u x : NodeId} (h : g.Within ids u x)
    (id : NodeId) : g.Within (without ids id) u x ∨
      ∃ v, g.BranchStep id v ∧ g.Within (without ids id) v x := by
  induction h using Relation.ReflTransGen.head_induction_on with
  | refl => exact .inl .refl
  | @head u v hs _ ih =>
    rcases ih with hrest | hlater
    · rcases hs with hout | ⟨hmem, hb⟩
      · exact .inl (.head (.inl hout) hrest)
      · by_cases hid : u = id
        · exact .inr ⟨v, hid ▸ hb, hrest⟩
        · exact .inl (.head (.inr ⟨Context.mem_without.2 ⟨hmem, hid⟩, hb⟩) hrest)
    · exact .inr hlater

/-- A route that takes branches has a first conditional where it does so, and may then
leave that conditional for the last time. -/
lemma Within.cases {g : Graph} {ids : List NodeId} {u x : NodeId} (h : g.Within ids u x) :
    (∃ k, g.OutputRoute u k x) ∨
      ∃ id ∈ ids, (∃ k, g.OutputRoute u k id) ∧
        ∃ v, g.BranchStep id v ∧ g.Within (Context.without ids id) v x := by
  induction h using Relation.ReflTransGen.head_induction_on with
  | refl => exact .inl ⟨0, .nil⟩
  | @head u v hs hrest ih =>
    rcases hs with hout | ⟨hmem, hb⟩
    · rcases ih with ⟨k, hk⟩ | ⟨id, hid, ⟨k, hk⟩, hv⟩
      · exact .inl ⟨k + 1, .cons hout hk⟩
      · exact .inr ⟨id, hid, ⟨k + 1, .cons hout hk⟩, hv⟩
    · refine .inr ⟨u, hmem, ⟨0, .nil⟩, ?_⟩
      rcases Within.without hrest u with hfree | hlater
      · exact ⟨v, hb, hfree⟩
      · exact hlater

end Graph

namespace Event

/-- What the event says about ids is true, and said only of ids with the property. -/
def Reaches (g : Graph) (P : NodeId → Prop) : Event → Prop
  | called r => ∀ id ∈ r.visited, P id ∧ (g.node? id).isSome
  | reported (.nodeNotFound id _) => P id ∧ g.node? id = none
  | reported (.unexpectedTiming id) => P id ∧ ∃ n, g.node? id = some n ∧ n.variant = .timing
  | _ => True

lemma Reaches.mono {g : Graph} {P Q : NodeId → Prop} {event : Event} (h : event.Reaches g P)
    (hPQ : ∀ id, P id → Q id) : event.Reaches g Q := by
  cases event with
  | called r => exact fun id hid => ⟨hPQ id (h id hid).1, (h id hid).2⟩
  | reported d =>
    cases d with
    | nodeNotFound id referencedBy => exact ⟨hPQ id h.1, h.2⟩
    | unexpectedTiming id => exact ⟨hPQ id h.1, h.2⟩
    | _ => trivial
  | _ => trivial

end Event

namespace Context

lemma Causes.reaches {c : Context} {expandable : List NodeId} {start referencedBy : NodeId}
    {s : Step} {event : Event} (hs : s ∈ c.graph.sweep start referencedBy)
    (h : c.Causes expandable s event) : event.Reaches c.graph (c.graph.Follows start) := by
  obtain ⟨k, hroute⟩ := (Graph.mem_sweep_id_iff referencedBy).1 ⟨s, hs, rfl⟩
  have htrue := c.graph.sweepFrom_isTrue _ _ s hs
  cases h with
  | notFound => exact ⟨hroute.follows, htrue⟩
  | @omitted n d homit =>
    rcases omission?_cases homit with ⟨rfl, hv⟩ | ⟨rfl, -⟩ | ⟨rfl, -⟩ | ⟨call, rfl, -⟩
    · exact ⟨hroute.follows, n, htrue, hv⟩
    all_goals trivial
  | remarked hremark => cases hremark <;> trivial
  | _ => trivial

/-- A walk stays among the ids that can be followed to. -/
lemma Happens.reaches {c : Context} {expandable : List NodeId} {start : NodeId} {event : Event}
    (h : c.Happens expandable start event) :
    event.Reaches c.graph (c.graph.Follows start) := by
  induction h with
  | called =>
    intro id hid
    obtain ⟨hn, k, hroute⟩ := Graph.mem_visitedIds.1 hid
    exact ⟨hroute.follows, hn⟩
  | caused hs hcause => exact hcause.reaches hs
  | nested hs hv hmem hb hf _ ih =>
    obtain ⟨hn, k, hroute⟩ := Graph.present_mem_sweep.1 hs
    have hstep := hroute.follows.tail (.inr ⟨⟨_, hn, hv⟩, _, _, hb, hf, rfl⟩)
    exact ih.mono fun id hid => hstep.trans hid

/-- Whatever happens in a walk, besides its calls, is caused by a step at an id that can be
followed to. -/
lemma Happens.exists_step {c : Context} {expandable : List NodeId} {start : NodeId}
    {event : Event} (h : c.Happens expandable start event) (hevent : event.record? = none) :
    ∃ ids s, c.Causes ids s event ∧ s.IsTrue c.graph ∧ c.graph.Follows start s.id := by
  induction h with
  | called => simp [Event.record?] at hevent
  | @caused expandable start referencedBy s event hs hcause =>
    obtain ⟨k, hroute⟩ := (Graph.mem_sweep_id_iff referencedBy).1 ⟨s, hs, rfl⟩
    exact ⟨expandable, s, hcause, c.graph.sweepFrom_isTrue _ _ s hs, hroute.follows⟩
  | nested hs hv hmem hb hf _ ih =>
    obtain ⟨ids, s, hcause, htrue, hfollows⟩ := ih hevent
    obtain ⟨hn, k, hroute⟩ := Graph.present_mem_sweep.1 hs
    have hstep := hroute.follows.tail (.inr ⟨⟨_, hn, hv⟩, _, _, hb, hf, rfl⟩)
    exact ⟨ids, s, hcause, htrue, hstep.trans hfollows⟩

/-- The limit is not reported among the events. -/
def Unlimited (events : List Event) : Prop :=
  ∀ id limit, .reported (.limitReached id limit) ∉ events

lemma Unlimited.of_subset {xs ys : List Event} (h : Unlimited ys) (hsub : xs ⊆ ys) :
    Unlimited xs :=
  fun id limit hmem => h id limit (hsub hmem)

/-- A walk that is followed before the limit is reported, and reports nothing of it. -/
def FollowedWithin (follow : Follow) (target : NodeId) (events : List Event) : Prop :=
  ∃ p, p.limitReported = false ∧ (follow target p).events ⊆ events

/-- A walk that reports nothing of the limit leaves it unreported. -/
def KeepsUnlimited (follow : Follow) : Prop :=
  ∀ target p, p.limitReported = false → Unlimited (follow target p).events →
    (follow target p).progress.limitReported = false

lemma branch_unlimited {c : Context} {id : NodeId} {follow : Follow} {handle : Handle}
    {p : Progress} (hfollow : KeepsUnlimited follow) (hp : p.limitReported = false)
    (hu : Unlimited (c.branch id follow handle p).events) :
    (c.branch id follow handle p).progress.limitReported = false ∧
      ∀ first, (c.graph.outgoing id handle).head? = some first →
        FollowedWithin follow first.target (c.branch id follow handle p).events := by
  have hout := c.branch_outcome id follow handle p
  generalize c.branch id follow handle p = out at hu hout
  cases hout with
  | unconnected ho => exact ⟨hp, by simp [ho]⟩
  | @followed first ignored ho hcalls =>
    have hsub : (follow first.target p).events ⊆ c.fanOut id handle ignored ++
        .branched id handle first.target :: (follow first.target p).events :=
      List.subset_append_of_subset_right _ (List.subset_cons_self _ _)
    refine ⟨hfollow _ _ hp (hu.of_subset hsub), fun edge hedge => ⟨p, hp, ?_⟩⟩
    obtain rfl : first = edge := by simpa [ho] using hedge
    exact hsub
  -- The limit cannot have been reported before, and is not reported now.
  | dropped ho hcalls hr => simp [hp] at hr
  | limited ho hcalls hr => exact absurd (by simp) (hu id c.options.maxCalls)

/-- What a step tells when the limit is not reported: the missing id, the trigger, and
everything in the walks behind the branches of a conditional that is expanded. -/
def Told (c : Context) (expandable : List NodeId)
    (follow : (id : NodeId) → id ∈ expandable → Follow) (events : List Event) : Step → Prop
  | .absent id referencedBy => .reported (.nodeNotFound id referencedBy) ∈ events
  | .present n => (n.variant = .timing → .reported (.unexpectedTiming n.id) ∈ events) ∧
    (n.variant = .conditional → ∀ (h : n.id ∈ expandable) (handle : Handle) (first : Edge),
      IsBranch handle → (c.graph.outgoing n.id handle).head? = some first →
      FollowedWithin (follow n.id h) first.target events)

section Told

variable {c : Context} {expandable : List NodeId}
  {follow : (id : NodeId) → id ∈ expandable → Follow}

lemma Told.of_subset {xs ys : List Event} {s : Step} (h : c.Told expandable follow xs s)
    (hsub : xs ⊆ ys) : c.Told expandable follow ys s := by
  cases s with
  | absent id referencedBy => exact hsub h
  | present n =>
    refine ⟨fun hv => hsub (h.1 hv), fun hv hmem handle first hb hf => ?_⟩
    obtain ⟨p, hp, hevents⟩ := h.2 hv hmem handle first hb hf
    exact ⟨p, hp, List.Subset.trans hevents hsub⟩

lemma visit_unlimited (hfollow : ∀ id h, KeepsUnlimited (follow id h)) {n : Node} {p : Progress}
    (hp : p.limitReported = false) (hu : Unlimited (c.visit expandable follow n p).events) :
    (c.visit expandable follow n p).progress.limitReported = false ∧
      c.Told expandable follow (c.visit expandable follow n p).events (.present n) := by
  have hout := c.visit_outcome expandable follow n p
  generalize c.visit expandable follow n p = out at hu hout
  cases hout with
  | @omitted d homit =>
    refine ⟨hp, fun hv => ?_, fun hv hmem => ?_⟩
    · rw [omission?_timing hv] at homit
      simp [← Option.some.inj homit]
    · simp [omission?_conditional hv, hmem] at homit
  | written homit hv hr hnotes =>
    refine ⟨hp, fun ht => ?_, fun hv' => absurd hv' hv⟩
    rw [omission?_timing ht] at homit
    simp at homit
  | @expanded condition hmem hbody =>
    have hv : n.variant = .conditional := Node.variant_eq_conditional.2 ⟨_, hbody⟩
    simp only [expand] at hu ⊢
    obtain ⟨hp', htrue⟩ := branch_unlimited (hfollow n.id hmem) hp
      (hu.of_subset (List.subset_append_left _ _))
    obtain ⟨hp'', hfalse⟩ := branch_unlimited (hfollow n.id hmem) hp'
      (hu.of_subset (List.subset_append_right _ _))
    refine ⟨hp'', fun ht => by simp [hv] at ht, fun _ _ handle first hb hf => ?_⟩
    rcases hb with rfl | rfl
    · obtain ⟨q, hq, hsub⟩ := htrue first hf
      exact ⟨q, hq, List.subset_append_of_subset_left _ hsub⟩
    · obtain ⟨q, hq, hsub⟩ := hfalse first hf
      exact ⟨q, hq, List.subset_append_of_subset_right _ hsub⟩

lemma perform_unlimited (hfollow : ∀ id h, KeepsUnlimited (follow id h)) {steps : List Step}
    {p : Progress} (hp : p.limitReported = false)
    (hu : Unlimited (c.perform expandable follow steps p).events) :
    (c.perform expandable follow steps p).progress.limitReported = false ∧
      ∀ s ∈ steps, c.Told expandable follow (c.perform expandable follow steps p).events s := by
  induction steps generalizing p with
  | nil => exact ⟨hp, by simp⟩
  | cons s rest ih =>
    cases s with
    | absent id referencedBy =>
      have hsub : (c.perform expandable follow rest p).events ⊆
          (c.perform expandable follow (.absent id referencedBy :: rest) p).events :=
        List.subset_cons_self _ _
      obtain ⟨hp', hrest⟩ := ih hp (hu.of_subset hsub)
      refine ⟨hp', List.forall_mem_cons.2 ⟨List.mem_cons_self, fun s hs => ?_⟩⟩
      exact (hrest s hs).of_subset hsub
    | present n =>
      have hfirst : (c.visit expandable follow n p).events ⊆
          (c.perform expandable follow (.present n :: rest) p).events :=
        List.subset_append_of_subset_left _ (List.subset_cons_self _ _)
      have hsub : (c.perform expandable follow rest
            (c.visit expandable follow n p).progress).events ⊆
          (c.perform expandable follow (.present n :: rest) p).events :=
        List.subset_append_right _ _
      obtain ⟨hp', htold⟩ := visit_unlimited hfollow hp (hu.of_subset hfirst)
      obtain ⟨hp'', hrest⟩ := ih hp' (hu.of_subset hsub)
      refine ⟨hp'', List.forall_mem_cons.2 ⟨htold.of_subset hfirst, fun s hs => ?_⟩⟩
      exact (hrest s hs).of_subset hsub

end Told

end Context

namespace Event

/-- The events tell what the id stands for: it is reported missing, or visited by some
call and, for a trigger, reported. -/
def TellOf (g : Graph) (events : List Event) (id : NodeId) : Prop :=
  (g.node? id = none → ∃ referencedBy, .reported (.nodeNotFound id referencedBy) ∈ events) ∧
    ∀ n, g.node? id = some n → (∃ r, .called r ∈ events ∧ id ∈ r.visited) ∧
      (n.variant = .timing → .reported (.unexpectedTiming id) ∈ events)

lemma TellOf.of_subset {g : Graph} {xs ys : List Event} {id : NodeId} (h : TellOf g xs id)
    (hsub : xs ⊆ ys) : TellOf g ys id := by
  refine ⟨fun hn => ?_, fun n hn => ⟨?_, fun hv => hsub ((h.2 n hn).2 hv)⟩⟩
  · obtain ⟨referencedBy, hmem⟩ := h.1 hn
    exact ⟨referencedBy, hsub hmem⟩
  · obtain ⟨r, hr, hid⟩ := (h.2 n hn).1
    exact ⟨r, hsub hr, hid⟩

end Event

namespace Context

open Event (TellOf)

/-- The ids that a sweep meets are told of by the call and by its steps. -/
lemma tellOf_of_route {c : Context} {expandable : List NodeId}
    {follow : (id : NodeId) → id ∈ expandable → Follow} {start referencedBy x : NodeId}
    {events : List Event} {k : ℕ} (hroute : c.graph.OutputRoute start k x)
    (hcalled : .called ⟨start, (c.graph.sweep start referencedBy).filterMap Step.visitedId?⟩
      ∈ events)
    (htold : ∀ s ∈ c.graph.sweep start referencedBy, c.Told expandable follow events s) :
    TellOf c.graph events x := by
  constructor
  · intro hn
    obtain ⟨s, hs, rfl⟩ := (Graph.mem_sweep_id_iff referencedBy).2 ⟨k, hroute⟩
    have htrue := c.graph.sweepFrom_isTrue _ _ s hs
    cases s with
    | absent id source => exact ⟨source, htold _ hs⟩
    | present n => simp [Step.IsTrue, show c.graph.node? n.id = none from hn] at htrue
  · intro n hn
    obtain rfl := Graph.node?_id hn
    refine ⟨⟨_, hcalled, Graph.mem_visitedIds.2 ⟨by simp [hn], k, hroute⟩⟩, ?_⟩
    exact (htold _ (Graph.present_mem_sweep.2 ⟨hn, k, hroute⟩)).1

/-- A walk that does not report the limit leaves it unreported, and everything is told that
its sweep meets. -/
lemma walk_told {c : Context} {expandable : List NodeId} {start referencedBy : NodeId}
    {p : Progress} (hp : p.limitReported = false)
    (hu : Unlimited (c.walk expandable start referencedBy p).events) :
    (c.walk expandable start referencedBy p).progress.limitReported = false ∧
      ∀ s ∈ c.graph.sweep start referencedBy, c.Told expandable (c.nested expandable)
        (c.walk expandable start referencedBy p).events s := by
  induction expandable using walk_induction generalizing start referencedBy p with
  | step expandable ih =>
    rw [walk_eq] at hu ⊢
    dsimp only at hu ⊢
    have hkeeps : ∀ id hmem, KeepsUnlimited (c.nested expandable id hmem) :=
      fun id hmem target q hq hq' => (ih id hmem hq hq').1
    have hstart : (⟨p.allocation, p.calls + 1, p.limitReported⟩ : Progress).limitReported =
        false := hp
    obtain ⟨hp', htold⟩ := perform_unlimited hkeeps hstart
      (hu.of_subset (List.subset_cons_self _ _))
    exact ⟨hp', fun s hs => (htold s hs).of_subset (List.subset_cons_self _ _)⟩

/-- A walk that does not report the limit tells of every id that it can follow to by
branches of expandable conditionals. -/
lemma walk_unlimited {c : Context} {expandable : List NodeId} {start referencedBy : NodeId}
    {p : Progress} (hp : p.limitReported = false)
    (hu : Unlimited (c.walk expandable start referencedBy p).events) :
    ∀ x, c.graph.Within expandable start x →
      TellOf c.graph (c.walk expandable start referencedBy p).events x := by
  induction expandable using walk_induction generalizing start referencedBy p with
  | step expandable ih =>
    have htold := (walk_told hp hu).2
    have hcalled : .called ⟨start, (c.graph.sweep start referencedBy).filterMap Step.visitedId?⟩ ∈
        (c.walk expandable start referencedBy p).events := by
      rw [walk_eq]
      exact List.mem_cons_self
    intro x hx
    -- A route without branches is swept; otherwise the walk of its first branch has the rest.
    rcases hx.cases with ⟨k, hroute⟩ | ⟨id, hmem, ⟨k, hroute⟩, v, hb, hrest⟩
    · exact tellOf_of_route hroute hcalled htold
    · obtain ⟨⟨n, hn, hv⟩, handle, first, hbranch, hf, rfl⟩ := hb
      obtain rfl := Graph.node?_id hn
      obtain ⟨q, hq, hsub⟩ := (htold _ (Graph.present_mem_sweep.2 ⟨hn, k, hroute⟩)).2 hv hmem
        handle first hbranch hf
      exact (ih n.id hmem hq (hu.of_subset hsub) x hrest).of_subset hsub

/-- The walk of each edge of the entry point begins before the limit is reported, if it is
not reported at all. -/
lemma streams_followed {c : Context} {entry : NodeId} {edges : List Edge} {p : Progress}
    (hp : p.limitReported = false) (hu : Unlimited (c.streams entry edges p).events) :
    ∀ e ∈ edges, FollowedWithin (fun target q => c.walk c.graph.conditionalIds target entry q)
      e.target (c.streams entry edges p).events := by
  induction edges generalizing p with
  | nil => simp
  | cons e rest ih =>
    have hfirst : (c.walk c.graph.conditionalIds e.target entry p).events ⊆
        (c.streams entry (e :: rest) p).events :=
      List.subset_append_of_subset_left _ (List.subset_cons_self _ _)
    have hsub : (c.streams entry rest
          (c.walk c.graph.conditionalIds e.target entry p).progress).events ⊆
        (c.streams entry (e :: rest) p).events :=
      List.subset_append_right _ _
    have hp' := (walk_told hp (hu.of_subset hfirst)).1
    refine List.forall_mem_cons.2 ⟨⟨p, hp, hfirst⟩, fun f hf => ?_⟩
    obtain ⟨q, hq, hevents⟩ := ih hp' (hu.of_subset hsub) f hf
    exact ⟨q, hq, List.Subset.trans hevents hsub⟩

lemma streams_unlimited {c : Context} {entry : NodeId} {edges : List Edge} {p : Progress}
    (hp : p.limitReported = false) (hu : Unlimited (c.streams entry edges p).events) :
    ∀ e ∈ edges, ∀ x, c.graph.Follows e.target x →
      TellOf c.graph (c.streams entry edges p).events x := by
  intro e he x hx
  obtain ⟨q, hq, hsub⟩ := streams_followed hp hu e he
  exact (walk_unlimited hq (hu.of_subset hsub) x hx.within).of_subset hsub

end Context

namespace Graph

/-- The ids that a compilation can come to: those that can be followed to from the ends
of the output edges of the entry point. -/
def Live (g : Graph) (entry id : NodeId) : Prop :=
  ∃ e ∈ g.edges, e.source = entry ∧ e.sourceHandle = .output ∧ g.Follows e.target id

lemma Live.exists_edge {g : Graph} {entry id : NodeId} (h : g.Live entry id) :
    ∃ e ∈ g.edges, e.target = id := by
  obtain ⟨e, he, -, -, hfollows⟩ := h
  cases hfollows with
  | refl => exact ⟨e, he, rfl⟩
  | tail _ hstep => exact hstep.exists_edge

lemma reaches_of_run {c : Context} {entry : NodeId} {call : Call}
    {others : List (NodeId × Call)} {out : Emission Script}
    (h : c.graph.timings = (entry, call) :: others) (hrun : c.run = .ok out) :
    ∀ event ∈ out.events, event.Reaches c.graph (c.graph.Live entry) := by
  rw [Context.run_eq h] at hrun
  obtain rfl := Except.ok.inj hrun
  intro event hevent
  rcases List.mem_append.1 hevent with hevent | hevent
  · rcases Context.mem_preamble hevent with ⟨id, rfl⟩ | rfl | ⟨slot, rfl⟩ <;> trivial
  · obtain ⟨e, he, rfl | hh⟩ := Context.happens_of_mem_streams hevent
    · trivial
    · obtain ⟨hmem, hsource, hhandle⟩ := mem_outgoing.1 he
      exact hh.reaches.mono fun id hid => ⟨e, hmem, hsource, hhandle, hid⟩

/-- A problem that a run reports is one of the header or of other triggers, or it is caused by
a step at a live id. -/
lemma exists_step_of_run {c : Context} {entry : NodeId} {call : Call}
    {others : List (NodeId × Call)} {out : Emission Script} {d : Diagnostic}
    (h : c.graph.timings = (entry, call) :: others) (hrun : c.run = .ok out)
    (hd : .reported d ∈ out.events) :
    .reported d ∈ others.map (fun other => Event.reported (.additionalEntryPoint other.1)) ++
        (c.header c.start.allocation entry call).2.map .reported ∨
      ∃ ids s, c.Causes ids s (.reported d) ∧ s.IsTrue c.graph ∧ c.graph.Live entry s.id := by
  rw [Context.run_eq h] at hrun
  obtain rfl := Except.ok.inj hrun
  rcases List.mem_append.1 hd with hd | hd
  · exact .inl hd
  · obtain ⟨e, he, hstreamed | hhappens⟩ := Context.happens_of_mem_streams hd
    · cases hstreamed
    · obtain ⟨ids, s, hcause, htrue, hfollows⟩ := hhappens.exists_step rfl
      obtain ⟨hmem, hsource, hhandle⟩ := mem_outgoing.1 he
      exact .inr ⟨ids, s, hcause, htrue, e, hmem, hsource, hhandle, hfollows⟩

lemma tellOf_of_run {c : Context} {entry : NodeId} {call : Call}
    {others : List (NodeId × Call)} {out : Emission Script}
    (h : c.graph.timings = (entry, call) :: others) (hrun : c.run = .ok out)
    (hu : Context.Unlimited out.events) :
    ∀ id, c.graph.Live entry id → Event.TellOf c.graph out.events id := by
  rw [Context.run_eq h] at hrun
  obtain rfl := Except.ok.inj hrun
  rintro id ⟨e, hmem, hsource, hhandle, hfollows⟩
  have hsub := List.subset_append_right
    (others.map (fun other => Event.reported (.additionalEntryPoint other.1)) ++
      (c.header c.start.allocation entry call).2.map .reported)
    (c.streams entry (c.graph.outgoing entry .output) c.start).events
  have htell := Context.streams_unlimited rfl (hu.of_subset hsub) e
    (mem_outgoing.2 ⟨hmem, hsource, hhandle⟩) id hfollows
  exact htell.of_subset hsub

/-- A compilation visits only live nodes. If it does not come to its limit, it visits all
of them, and reports exactly the live ids without a node and the live triggers. -/
theorem compile_coverage (g : Graph) (registry : Registry) (options : Options)
    (entry : NodeId) (call : Call) (others : List (NodeId × Call))
    (h : g.timings = (entry, call) :: others) :
    ∃ result, g.compile registry options = .ok result ∧
      (∀ r ∈ result.trace, ∀ id ∈ r.visited, g.Live entry id ∧ (g.node? id).isSome) ∧
      ((∀ id limit, .limitReached id limit ∉ result.diagnostics) →
        (∀ id, (∃ r ∈ result.trace, id ∈ r.visited) ↔
          g.Live entry id ∧ (g.node? id).isSome) ∧
        (∀ id, (∃ referencedBy, .nodeNotFound id referencedBy ∈ result.diagnostics) ↔
          g.Live entry id ∧ g.node? id = none) ∧
        ∀ id, .unexpectedTiming id ∈ result.diagnostics ↔
          g.Live entry id ∧ ∃ n, g.node? id = some n ∧ n.variant = .timing) := by
  set c : Context := ⟨g, registry, options⟩
  obtain ⟨out, hrun⟩ : ∃ out, c.run = .ok out := ⟨_, Context.run_eq h⟩
  have hreach := reaches_of_run h hrun
  refine ⟨.ofEmission out, by rw [compile, hrun]; rfl, ?_, ?_⟩
  · exact fun r hr => hreach _ (Event.mem_trace.1 hr)
  · intro hlimit
    have htell := tellOf_of_run h hrun fun id limit hmem =>
      hlimit id limit (Event.mem_diagnostics.2 hmem)
    simp only [Compilation.ofEmission, Event.mem_trace, Event.mem_diagnostics]
    refine ⟨fun id => ⟨?_, ?_⟩, fun id => ⟨?_, ?_⟩, fun id => ⟨?_, ?_⟩⟩
    · rintro ⟨r, hr, hid⟩
      exact hreach _ hr id hid
    · rintro ⟨hlive, hsome⟩
      obtain ⟨n, hn⟩ := Option.isSome_iff_exists.1 hsome
      exact ((htell id hlive).2 n hn).1
    · rintro ⟨referencedBy, hmem⟩
      exact hreach _ hmem
    · rintro ⟨hlive, hn⟩
      exact (htell id hlive).1 hn
    · intro hmem
      exact hreach _ hmem
    · rintro ⟨hlive, n, hn, hv⟩
      exact ((htell id hlive).2 n hn).2 hv

theorem compile_coverage_knot : knot.timings = [("start", ⟨"Begin", .empty⟩)] ∧
    ∃ result, knot.compile .empty {} = .ok result ∧
      (∀ id limit, .limitReached id limit ∉ result.diagnostics) ∧
      (∀ id, (∃ r ∈ result.trace, id ∈ r.visited) ↔
        knot.Live "start" id ∧ (knot.node? id).isSome) ∧
      knot.Live "start" "gone" ∧ knot.Live "start" "start" := by
  have hview : (knot.compile .empty {}).toOption.map (·.diagnostics) =
      some [.unknownFunction "start" "Begin", .recursiveBranch "check",
        .unknownFunction "strike" "Strike", .unexpectedTiming "start",
        .nodeNotFound "gone" "check", .unknownFunction "strike" "Strike",
        .unexpectedTiming "start"] := by cbv
  obtain ⟨result, hok, hdiagnostics⟩ := exists_ok_of_map hview
  have hlimit : ∀ id limit, .limitReached id limit ∉ result.diagnostics := by
    simp [hdiagnostics]
  obtain ⟨other, hother, -, hall⟩ :=
    compile_coverage knot .empty {} "start" ⟨"Begin", .empty⟩ [] (by cbv)
  obtain rfl : result = other := Except.ok.inj (hok.symm.trans hother)
  obtain ⟨hvisited, hmissing, htrigger⟩ := hall hlimit
  refine ⟨by cbv, result, hok, hlimit, hvisited, ?_, ?_⟩
  · exact ((hmissing "gone").1 ⟨"check", by simp [hdiagnostics]⟩).1
  · exact ((htrigger "start").1 (by simp [hdiagnostics])).1

end Graph

end ScriptGraph
