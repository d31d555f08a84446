import ScriptGraph.Proofs.WalkEvents

/-!
# Sweeps are breadth-first searches

A sweep meets exactly the ids with an output route from its start, each once, and nearer
ones before farther ones. The invariant gives every queued entry the length of the route
by which it was queued; lengths along the queue differ by at most one. The visited ids
of every traversal call of a compilation are those of such a sweep.
-/
namespace ScriptGraph

namespace Step

/-- The id that is met, whether a node has it or not. -/
def id : Step → NodeId
  | absent id _ => id
  | present n => n.id

/-- The step is right about the graph: its node is the one that its id stands for, or the
id stands for none. -/
def IsTrue (g : Graph) : Step → Prop
  | absent id _ => g.node? id = none
  | present n => g.node? n.id = some n

end Step

namespace Graph

lemma sweepFrom_isTrue (g : Graph) (queue : List (NodeId × NodeId)) (met : List NodeId) :
    ∀ s ∈ g.sweepFrom queue met, s.IsTrue g := by
  fun_induction g.sweepFrom queue met with
  | case1 => simp
  | case2 met id referencedBy rest hmem ih => exact ih
  | case3 met id referencedBy rest hnew hn ih =>
    exact List.forall_mem_cons.2 ⟨hn, ih⟩
  | case4 met id referencedBy rest hnew n hn ih =>
    exact List.forall_mem_cons.2 ⟨node?_self hn, ih⟩

/-- A route of output edges, with its length, on which no id was met before. -/
inductive FreshRoute (g : Graph) (met : List NodeId) : NodeId → ℕ → NodeId → Prop
  | here {x : NodeId} : x ∉ met → FreshRoute g met x 0 x
  | step {u v x : NodeId} {k : ℕ} :
      u ∉ met → g.OutputStep u v → FreshRoute g met v k x → FreshRoute g met u (k + 1) x

lemma FreshRoute.notMem {g : Graph} {met : List NodeId} {u x : NodeId} {k : ℕ}
    (h : g.FreshRoute met u k x) : u ∉ met := by
  cases h <;> assumption

/-- When one more id is met, a fresh route stays fresh, or ends at that id, or can be
entered one step behind its last visit to that id. -/
lemma FreshRoute.meet {g : Graph} {met : List NodeId} {u x : NodeId} {k : ℕ}
    (h : g.FreshRoute met u k x) (id : NodeId) :
    g.FreshRoute (id :: met) u k x ∨ x = id ∨
      ∃ v j, g.OutputStep id v ∧ g.FreshRoute (id :: met) v j x ∧ j + 1 ≤ k := by
  induction h with
  | @here x hx =>
    by_cases hid : x = id
    · exact .inr (.inl hid)
    · exact .inl (.here (by simp [hid, hx]))
  | @step u v x k hu hs hr ih =>
    rcases ih with hfresh | hend | ⟨w, j, hw, hj, hle⟩
    · by_cases hid : u = id
      · subst hid
        exact .inr (.inr ⟨v, k, hs, hfresh, le_rfl⟩)
      · exact .inl (.step (by simp [hid, hu]) hs hfresh)
    · exact .inr (.inl hend)
    · exact .inr (.inr ⟨w, j, hw, hj, by omega⟩)

/-- Before anything is met every route is fresh. Routes grow at their end and fresh
routes at their front, so the one is put before the other. -/
lemma OutputRoute.append_fresh {g : Graph} {start x y : NodeId} {k j : ℕ}
    (h : g.OutputRoute start k x) (hj : g.FreshRoute [] x j y) :
    g.FreshRoute [] start (k + j) y := by
  induction h generalizing j with
  | nil => simpa using hj
  | @snoc k u v _ hs ih =>
    have hh := ih (.step (by simp) hs hj)
    rwa [show k + (j + 1) = k + 1 + j by omega] at hh

/-- The invariant of a sweep from `start`. Each queued entry has a level, the length of
the route by which it was queued. Levels ascend by at most one along the queue, and a
route to an id that was not met yet is at least as long as one through the queue. -/
structure Frontier (g : Graph) (start : NodeId) (queue : List ((NodeId × NodeId) × ℕ))
    (met : List NodeId) : Prop where
  routed : ∀ q ∈ queue, g.OutputRoute start q.2 q.1.1
  ascending : queue.Pairwise (fun a b => a.2 ≤ b.2)
  narrow : ∀ a ∈ queue, ∀ b ∈ queue, b.2 ≤ a.2 + 1
  complete : ∀ k x, g.OutputRoute start k x → x ∉ met →
    ∃ q ∈ queue, ∃ j, g.FreshRoute met q.1.1 j x ∧ q.2 + j ≤ k

namespace Frontier

variable {g : Graph} {start : NodeId} {q : (NodeId × NodeId) × ℕ}
  {rest : List ((NodeId × NodeId) × ℕ)} {met : List NodeId}

lemma initial (g : Graph) (start referencedBy : NodeId) :
    g.Frontier start [((start, referencedBy), 0)] [] where
  routed := by simpa using OutputRoute.nil
  ascending := List.pairwise_singleton _ _
  narrow := by simp
  complete := by
    intro k x hroute _
    exact ⟨_, List.mem_singleton_self _, k, hroute.append_fresh (.here (by simp)), by simp⟩

/-- The first entry of the queue is as near to the start as any id not met yet. -/
lemma level_le (h : g.Frontier start (q :: rest) met) {k : ℕ} {x : NodeId}
    (hroute : g.OutputRoute start k x) (hx : x ∉ met) : q.2 ≤ k := by
  obtain ⟨p, hp, j, -, hle⟩ := h.complete k x hroute hx
  rcases List.mem_cons.1 hp with rfl | hp
  · omega
  · have hq := (List.pairwise_cons.1 h.ascending).1 p hp
    omega

/-- An entry with an id that was met before is dropped. -/
lemma drop (h : g.Frontier start (q :: rest) met) (hq : q.1.1 ∈ met) :
    g.Frontier start rest met where
  routed p hp := h.routed p (List.mem_cons_of_mem _ hp)
  ascending := (List.pairwise_cons.1 h.ascending).2
  narrow a ha b hb := h.narrow a (List.mem_cons_of_mem _ ha) b (List.mem_cons_of_mem _ hb)
  complete := by
    intro k x hroute hx
    obtain ⟨p, hp, j, hj, hle⟩ := h.complete k x hroute hx
    rcases List.mem_cons.1 hp with rfl | hp
    · exact absurd hq hj.notMem
    · exact ⟨p, hp, j, hj, hle⟩

/-- An entry that is met gives way to the ends of the output steps out of it, one level
up. An id without output steps gives way to nothing. -/
lemma meet (h : g.Frontier start (q :: rest) met) (next : List (NodeId × NodeId))
    (hnext : ∀ v, g.OutputStep q.1.1 v → ∃ p ∈ next, p.1 = v)
    (hstep : ∀ p ∈ next, g.OutputStep q.1.1 p.1) :
    g.Frontier start (rest ++ next.map (·, q.2 + 1)) (q.1.1 :: met) where
  routed := by
    intro p hp
    rcases List.mem_append.1 hp with hp | hp
    · exact h.routed p (List.mem_cons_of_mem _ hp)
    · obtain ⟨v, hv, rfl⟩ := List.mem_map.1 hp
      exact .snoc (h.routed q List.mem_cons_self) (hstep v hv)
  ascending := by
    refine List.pairwise_append.2 ⟨(List.pairwise_cons.1 h.ascending).2, ?_, ?_⟩
    · exact List.pairwise_map.2 (List.pairwise_of_forall fun _ _ => le_rfl)
    · intro a ha b hb
      obtain ⟨v, -, rfl⟩ := List.mem_map.1 hb
      exact h.narrow q List.mem_cons_self a (List.mem_cons_of_mem _ ha)
  narrow := by
    have hlow : ∀ a ∈ rest ++ next.map (·, q.2 + 1), q.2 ≤ a.2 := by
      intro a ha
      rcases List.mem_append.1 ha with ha | ha
      · exact (List.pairwise_cons.1 h.ascending).1 a ha
      · obtain ⟨v, -, rfl⟩ := List.mem_map.1 ha
        exact Nat.le_succ _
    have hhigh : ∀ b ∈ rest ++ next.map (·, q.2 + 1), b.2 ≤ q.2 + 1 := by
      intro b hb
      rcases List.mem_append.1 hb with hb | hb
      · exact h.narrow q List.mem_cons_self b (List.mem_cons_of_mem _ hb)
      · obtain ⟨v, -, rfl⟩ := List.mem_map.1 hb
        exact le_rfl
    intro a ha b hb
    have hla := hlow a ha
    have hhb := hhigh b hb
    omega
  complete := by
    intro k x hroute hx
    rw [List.mem_cons, not_or] at hx
    obtain ⟨p, hp, j, hj, hle⟩ := h.complete k x hroute hx.2
    have hlow : q.2 ≤ p.2 := by
      rcases List.mem_cons.1 hp with rfl | hp
      · exact le_rfl
      · exact (List.pairwise_cons.1 h.ascending).1 p hp
    -- A route through the met id is entered behind it, from one of the new entries.
    rcases hj.meet q.1.1 with hfresh | hend | ⟨v, i, hv, hi, hij⟩
    · rcases List.mem_cons.1 hp with rfl | hp
      · exact absurd List.mem_cons_self hfresh.notMem
      · exact ⟨p, List.mem_append_left _ hp, j, hfresh, hle⟩
    · exact absurd hend hx.1
    · obtain ⟨w, hw, rfl⟩ := hnext v hv
      exact ⟨(w, q.2 + 1), List.mem_append_right _ (List.mem_map_of_mem hw), i, hi, by
        simp only; omega⟩

/-- An id that stands for no node gives way to nothing. -/
lemma absent (h : g.Frontier start (q :: rest) met) (hn : g.node? q.1.1 = none) :
    g.Frontier start rest (q.1.1 :: met) := by
  have hh := h.meet [] (fun v hv => absurd hv (not_outputStep_of_absent hn)) (by simp)
  simpa using hh

/-- A node gives way to its followers. -/
lemma present (h : g.Frontier start (q :: rest) met) {n : Node} (hn : g.node? q.1.1 = some n) :
    g.Frontier start (rest ++ (g.followers n).map (·, q.2 + 1)) (q.1.1 :: met) := by
  have hid := node?_id hn
  have hself := node?_self hn
  refine h.meet (g.followers n) (fun v hv => ?_) (fun p hp => ?_)
  · rw [← hid] at hv
    exact ⟨_, (outputStep_iff hself).1 hv, rfl⟩
  · rw [← hid]
    exact outputStep_of_mem_followers hself hp

end Frontier

/-- What a sweep is when some ids were met before: the other ids that output routes lead
to, each once, nearer ones first. -/
structure Swept (g : Graph) (start : NodeId) (met : List NodeId) (steps : List Step) : Prop where
  routed : ∀ s ∈ steps, ∃ k, g.OutputRoute start k s.id
  fresh : ∀ s ∈ steps, s.id ∉ met
  complete : ∀ k x, g.OutputRoute start k x → x ∉ met → ∃ s ∈ steps, s.id = x
  nodup : (steps.map Step.id).Nodup
  ordered : steps.Pairwise fun a b => g.outputDistance start a.id ≤ g.outputDistance start b.id

/-- One more step in front of a sweep, as near to the start as any id not met before. -/
lemma Swept.cons {g : Graph} {start : NodeId} {met : List NodeId} {steps : List Step} {s : Step}
    {level : ℕ} (h : g.Swept start (s.id :: met) steps) (hroute : g.OutputRoute start level s.id)
    (hnear : ∀ k x, g.OutputRoute start k x → x ∉ met → level ≤ k) (hs : s.id ∉ met) :
    g.Swept start met (s :: steps) := by
  have hfresh : ∀ t ∈ steps, t.id ≠ s.id ∧ t.id ∉ met := by
    simpa only [List.mem_cons, not_or] using h.fresh
  refine ⟨List.forall_mem_cons.2 ⟨⟨level, hroute⟩, h.routed⟩,
    List.forall_mem_cons.2 ⟨hs, fun t ht => (hfresh t ht).2⟩, ?_, ?_, ?_⟩
  · intro k x hx hmet
    by_cases hid : x = s.id
    · exact ⟨s, List.mem_cons_self, hid.symm⟩
    · obtain ⟨t, ht, he⟩ := h.complete k x hx (by simp [hid, hmet])
      exact ⟨t, List.mem_cons_of_mem _ ht, he⟩
  · refine List.nodup_cons.2 ⟨fun hmem => ?_, h.nodup⟩
    obtain ⟨t, ht, he⟩ := List.mem_map.1 hmem
    exact (hfresh t ht).1 he
  · refine List.pairwise_cons.2 ⟨fun t ht => ?_, h.ordered⟩
    obtain ⟨k, hk⟩ := h.routed t ht
    calc g.outputDistance start s.id
        ≤ level := outputDistance_le hroute
      _ ≤ g.outputDistance start t.id :=
          hnear _ _ (outputRoute_outputDistance hk) (hfresh t ht).2

/-- Whatever is queued, a sweep that keeps the invariant gives what it should. -/
lemma Frontier.swept {g : Graph} {start : NodeId} {queue : List ((NodeId × NodeId) × ℕ)}
    {met : List NodeId} (h : g.Frontier start queue met) :
    g.Swept start met (g.sweepFrom (queue.map Prod.fst) met) := by
  -- The sweep sees the entries only; the levels are carried along beside them.
  generalize hqueue : queue.map Prod.fst = entries
  fun_induction g.sweepFrom entries met generalizing queue with
  | case1 met =>
    have hnil : queue = [] := List.map_eq_nil_iff.1 hqueue
    subst hnil
    refine ⟨by simp, by simp, fun k x hx hmet => ?_, by simp, .nil⟩
    obtain ⟨q, hq, -⟩ := h.complete k x hx hmet
    simp at hq
  | case2 met id referencedBy rest hmem ih =>
    obtain ⟨q, queue, rfl, hq, hrest⟩ := List.map_eq_cons_iff.1 hqueue
    exact ih (h.drop (by simpa [hq] using hmem)) hrest
  | case3 met id referencedBy rest hnew hn ih =>
    obtain ⟨q, queue, rfl, hq, hrest⟩ := List.map_eq_cons_iff.1 hqueue
    have hid : q.1.1 = id := by rw [hq]
    subst hid
    exact (ih (h.absent hn) hrest).cons (h.routed q List.mem_cons_self)
      (fun k x hx hmet => h.level_le hx hmet) hnew
  | case4 met id referencedBy rest hnew n hn ih =>
    obtain ⟨q, queue, rfl, hq, hrest⟩ := List.map_eq_cons_iff.1 hqueue
    have hid : q.1.1 = id := by rw [hq]
    subst hid
    have hself : (Step.present n).id = q.1.1 := node?_id hn
    have hh := ih (h.present hn) (by simp [hrest, Function.comp_def])
    exact Swept.cons (by rwa [hself]) (hself ▸ h.routed q List.mem_cons_self)
      (fun k x hx hmet => h.level_le hx hmet) (by rwa [hself])

lemma sweep_swept (g : Graph) (start referencedBy : NodeId) :
    g.Swept start [] (g.sweep start referencedBy) :=
  (Frontier.initial g start referencedBy).swept

/-- The sweep from an id meets exactly the ids with an output route from it. -/
lemma mem_sweep_id_iff {g : Graph} {start x : NodeId} (referencedBy : NodeId) :
    (∃ s ∈ g.sweep start referencedBy, s.id = x) ↔ ∃ k, g.OutputRoute start k x := by
  have hswept := g.sweep_swept start referencedBy
  constructor
  · rintro ⟨s, hs, rfl⟩
    exact hswept.routed s hs
  · rintro ⟨k, hk⟩
    exact hswept.complete k x hk (by simp)

/-- A node is visited by a sweep if its id stands for it and an output route leads there. -/
lemma present_mem_sweep {g : Graph} {start referencedBy : NodeId} {n : Node} :
    .present n ∈ g.sweep start referencedBy ↔
      g.node? n.id = some n ∧ ∃ k, g.OutputRoute start k n.id := by
  constructor
  · intro h
    exact ⟨g.sweepFrom_isTrue _ _ _ h, (mem_sweep_id_iff referencedBy).1 ⟨_, h, rfl⟩⟩
  · rintro ⟨hn, hroute⟩
    obtain ⟨s, hs, hid⟩ := (mem_sweep_id_iff referencedBy).2 hroute
    have htrue := g.sweepFrom_isTrue _ _ s hs
    cases s with
    | absent id _ =>
      have hid' : id = n.id := hid
      simp [Step.IsTrue, hid', hn] at htrue
    | present m =>
      have hid' : m.id = n.id := hid
      rw [Step.IsTrue, hid', hn, Option.some.injEq] at htrue
      rwa [htrue]

lemma visitedIds_sublist (steps : List Step) :
    (steps.filterMap Step.visitedId?).Sublist (steps.map Step.id) := by
  induction steps with
  | nil => simp
  | cons s rest ih =>
    cases s with
    | absent id referencedBy => exact ih.cons id
    | present n => exact ih.cons_cons n.id

lemma mem_visitedIds {g : Graph} {start referencedBy id : NodeId} :
    id ∈ (g.sweep start referencedBy).filterMap Step.visitedId? ↔
      (g.node? id).isSome ∧ ∃ k, g.OutputRoute start k id := by
  simp only [List.mem_filterMap]
  constructor
  · rintro ⟨s, hs, hid⟩
    cases s with
    | absent _ _ => simp [Step.visitedId?] at hid
    | present n =>
      obtain rfl : n.id = id := by simpa [Step.visitedId?] using hid
      obtain ⟨hn, hroute⟩ := present_mem_sweep.1 hs
      exact ⟨by simp [hn], hroute⟩
  · rintro ⟨hsome, hroute⟩
    obtain ⟨n, hn⟩ := Option.isSome_iff_exists.1 hsome
    obtain rfl := node?_id hn
    exact ⟨.present n, present_mem_sweep.2 ⟨hn, hroute⟩, rfl⟩

end Graph

namespace TraversalRecord

/-- The visited ids are those of a sweep. -/
def IsSweep (g : Graph) (r : TraversalRecord) : Prop :=
  ∃ referencedBy, r.visited = (g.sweep r.start referencedBy).filterMap Step.visitedId?

/-- The call is an exact breadth-first search along output edges: no id is visited twice,
the visited ids are those with a node and an output route from the start, and nearer ones
come first. -/
structure IsBreadthFirst (g : Graph) (r : TraversalRecord) : Prop where
  nodup : r.visited.Nodup
  mem_iff : ∀ id, id ∈ r.visited ↔ (g.node? id).isSome ∧ ∃ k, g.OutputRoute r.start k id
  ordered : r.visited.Pairwise fun a b =>
    g.outputDistance r.start a ≤ g.outputDistance r.start b

lemma IsSweep.isBreadthFirst {g : Graph} {r : TraversalRecord} (h : r.IsSweep g) :
    r.IsBreadthFirst g := by
  obtain ⟨start, visited⟩ := r
  obtain ⟨referencedBy, hvisited⟩ := h
  dsimp only at hvisited
  subst hvisited
  have hswept := g.sweep_swept start referencedBy
  have hsub := Graph.visitedIds_sublist (g.sweep start referencedBy)
  have hordered : ((g.sweep start referencedBy).map Step.id).Pairwise fun a b =>
      g.outputDistance start a ≤ g.outputDistance start b := List.pairwise_map.2 hswept.ordered
  exact ⟨hswept.nodup.sublist hsub, fun id => Graph.mem_visitedIds, hordered.sublist hsub⟩

lemma maxVisits_le_one {r : TraversalRecord} (h : r.visited.Nodup) : r.maxVisits ≤ 1 := by
  refine List.max_le_of_forall_le _ _ fun k hk => ?_
  obtain ⟨id, -, rfl⟩ := List.mem_map.1 hk
  exact List.nodup_iff_count_le_one.1 h id

end TraversalRecord

/-- Every traversal call of a walk is a sweep, also those of its branches. -/
lemma Context.Happens.isSweep {c : Context} {expandable : List NodeId} {start : NodeId}
    {event : Event} (h : c.Happens expandable start event) :
    ∀ r, event = .called r → r.IsSweep c.graph := by
  induction h with
  | @called expandable start referencedBy =>
    rintro r ⟨⟩
    exact ⟨referencedBy, rfl⟩
  | caused hs hcause =>
    rintro r rfl
    cases hcause with
    | remarked hremark => cases hremark
  | nested hs hv hmem hb hf hh ih => exact ih

namespace Graph

lemma isSweep_of_compile {g : Graph} {registry : Registry} {options : Options}
    {result : Compilation} (h : g.compile registry options = .ok result) :
    ∀ r ∈ result.trace, r.IsSweep g := by
  obtain ⟨entry, call, others, ht⟩ := timings_of_compile h
  rw [compile, Context.run_eq ht] at h
  obtain rfl := Except.ok.inj h
  intro r hr
  rcases List.mem_append.1 (Event.mem_trace.1 hr) with hr | hr
  · rcases Context.mem_preamble hr with ⟨id, he⟩ | he | ⟨slot, he⟩ <;> simp at he
  · obtain ⟨e, -, he | hh⟩ := Context.happens_of_mem_streams hr
    · simp at he
    · exact hh.isSweep r rfl

/-- Every traversal call of a compilation is an exact breadth-first search. -/
theorem trace_breadthFirst (g : Graph) (registry : Registry) (options : Options)
    (result : Compilation) (h : g.compile registry options = .ok result) :
    result.trace.maxVisitsPerCall ≤ 1 ∧ ∀ r ∈ result.trace, r.IsBreadthFirst g := by
  have hsearch : ∀ r ∈ result.trace, r.IsBreadthFirst g :=
    fun r hr => (isSweep_of_compile h r hr).isBreadthFirst
  refine ⟨List.max_le_of_forall_le _ _ fun k hk => ?_, hsearch⟩
  obtain ⟨r, hr, rfl⟩ := List.mem_map.1 hk
  exact TraversalRecord.maxVisits_le_one (hsearch r hr).nodup

theorem trace_breadthFirst_knot : ∃ result, knot.compile .empty {} = .ok result ∧
    result.trace = [⟨"stop", ["stop", "check", "strike", "start"]⟩,
      ⟨"stop", ["stop", "check", "strike", "start"]⟩, ⟨"gone", []⟩] ∧
    result.trace.maxVisitsPerCall ≤ 1 ∧ ∀ r ∈ result.trace, r.IsBreadthFirst knot := by
  have hview : (knot.compile .empty {}).toOption.map (·.trace) =
      some [⟨"stop", ["stop", "check", "strike", "start"]⟩,
        ⟨"stop", ["stop", "check", "strike", "start"]⟩, ⟨"gone", []⟩] := by cbv
  obtain ⟨result, hok, htrace⟩ := exists_ok_of_map hview
  exact ⟨result, hok, htrace, trace_breadthFirst knot .empty {} result hok⟩

end Graph

end ScriptGraph
