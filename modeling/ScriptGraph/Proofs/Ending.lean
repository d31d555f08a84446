import ScriptGraph.Proofs.WalkEvents

/-!
# Compilations end

The rules by which a compilation runs are given once more, as relations that hold only of
runs that end: a loop over a queue with the ids it has met, and a stack of the
conditionals whose branches are being expanded. Every run ends, as `Context.run` says. The
stack alone makes it end: no rule counts calls down, and the limit may be any number.
-/
namespace ScriptGraph

open Script (Statement)

namespace Script.Statement

mutual

/-- How deep conditionals stand inside each other, the statement itself included. -/
def nesting : Statement → ℕ
  | .conditional _ onTrue onFalse => 1 + max (nestingList onTrue) (nestingBranch onFalse)
  | _ => 0

def nestingList : List Statement → ℕ
  | [] => 0
  | s :: rest => max (nesting s) (nestingList rest)

def nestingBranch : Option (List Statement) → ℕ
  | none => 0
  | some statements => nestingList statements

end

@[simp] theorem nestingList_append (xs ys : List Statement) :
    nestingList (xs ++ ys) = max (nestingList xs) (nestingList ys) := by
  induction xs with
  | nil => simp [nestingList]
  | cons s rest ih => simp [nestingList, ih, max_assoc]

lemma nestingList_getD (branch : Option (List Statement)) :
    nestingList (branch.getD []) = nestingBranch branch := by
  cases branch <;> simp [nestingList, nestingBranch]

end Script.Statement

namespace Graph

/-- Induction along a sweep. Once a node is met, the property may be used for any queue,
since fewer nodes are left to meet. -/
theorem queue_induction {g : Graph} {P : List (NodeId × NodeId) → List NodeId → Prop}
    (nil : ∀ met, P [] met)
    (again : ∀ id referencedBy rest met, id ∈ met → P rest met →
      P ((id, referencedBy) :: rest) met)
    (absent : ∀ id referencedBy rest met, id ∉ met → g.node? id = none →
      P rest (id :: met) → P ((id, referencedBy) :: rest) met)
    (present : ∀ id referencedBy rest met n, id ∉ met → g.node? id = some n →
      (∀ queue, P queue (id :: met)) → P ((id, referencedBy) :: rest) met)
    (queue : List (NodeId × NodeId)) (met : List NodeId) : P queue met := by
  -- Nodes left to meet come first, then the queue, as in the recursion of a sweep.
  induction hm : g.unmet met using Nat.strong_induction_on generalizing queue met with
  | _ k ih =>
    induction queue generalizing met with
    | nil => exact nil met
    | cons entry rest ihrest =>
      obtain ⟨id, referencedBy⟩ := entry
      by_cases hmem : id ∈ met
      · exact again id referencedBy rest met hmem (ihrest met hm)
      cases hn : g.node? id with
      | none =>
        refine absent id referencedBy rest met hmem hn ?_
        rcases Nat.lt_or_eq_of_le (g.unmet_cons_le met id) with hlt | heq
        · exact ih _ (hm ▸ hlt) rest (id :: met) rfl
        · exact ihrest (id :: met) (heq.trans hm)
      | some n =>
        refine present id referencedBy rest met n hmem hn fun queue => ?_
        exact ih _ (hm ▸ unmet_cons_lt hn hmem) queue (id :: met) rfl

section Equations

variable {g : Graph} {id referencedBy : NodeId} {rest : List (NodeId × NodeId)}
  {met : List NodeId}

lemma sweepFrom_again (h : id ∈ met) :
    g.sweepFrom ((id, referencedBy) :: rest) met = g.sweepFrom rest met := by
  rw [sweepFrom, dif_pos h]

lemma sweepFrom_absent (h : id ∉ met) (hn : g.node? id = none) :
    g.sweepFrom ((id, referencedBy) :: rest) met =
      .absent id referencedBy :: g.sweepFrom rest (id :: met) := by
  rw [sweepFrom, dif_neg h]
  split <;> simp_all

lemma sweepFrom_present (h : id ∉ met) {n : Node} (hn : g.node? id = some n) :
    g.sweepFrom ((id, referencedBy) :: rest) met =
      .present n :: g.sweepFrom (rest ++ g.followers n) (id :: met) := by
  rw [sweepFrom, dif_neg h]
  split <;> simp_all

end Equations

/-- Entries whose ids were met before do not change a sweep. -/
lemma sweepFrom_append_met (g : Graph) {before : List (NodeId × NodeId)}
    {met : List NodeId} (queue : List (NodeId × NodeId)) (h : ∀ entry ∈ before, entry.1 ∈ met) :
    g.sweepFrom (before ++ queue) met = g.sweepFrom queue met := by
  induction before with
  | nil => rfl
  | cons entry rest ih =>
    obtain ⟨hentry, hrest⟩ := List.forall_mem_cons.1 h
    rw [List.cons_append, sweepFrom_again hentry, ih hrest]

lemma pending_cons_met {met : List NodeId} {xs ys : List (NodeId × NodeId)} (id : NodeId)
    (h : xs.filter (·.1 ∉ met) = ys.filter (·.1 ∉ met)) :
    xs.filter (·.1 ∉ id :: met) = ys.filter (·.1 ∉ id :: met) := by
  have hsplit : ∀ queue : List (NodeId × NodeId), queue.filter (·.1 ∉ id :: met) =
      (queue.filter (·.1 ∉ met)).filter (·.1 ≠ id) := by
    intro queue
    rw [List.filter_filter]
    congr 1
    funext entry
    simp
  rw [hsplit, hsplit, h]

/-- Two queues that agree on the ids not met yet give the same sweep. -/
lemma sweepFrom_congr {g : Graph} {met : List NodeId} (xs ys : List (NodeId × NodeId))
    (h : xs.filter (·.1 ∉ met) = ys.filter (·.1 ∉ met)) :
    g.sweepFrom xs met = g.sweepFrom ys met := by
  induction xs, met using queue_induction (g := g) generalizing ys with
  | nil met =>
    have hmet : ∀ entry ∈ ys, entry.1 ∈ met := by
      simpa using List.filter_eq_nil_iff.1 h.symm
    have hh := g.sweepFrom_append_met [] hmet
    rw [← hh, List.append_nil]
  | again id referencedBy rest met hmem ih =>
    rw [sweepFrom_again hmem]
    exact ih ys (by simpa [hmem] using h)
  | absent id referencedBy rest met hmem hn ih =>
    rw [List.filter_cons_of_pos (by simpa using hmem)] at h
    -- The other queue holds the same entry behind some that were met before.
    obtain ⟨before, after, rfl, hmet, -, hafter⟩ := List.filter_eq_cons_iff.1 h.symm
    rw [g.sweepFrom_append_met _ (by simpa using hmet), sweepFrom_absent hmem hn,
      sweepFrom_absent hmem hn, ih after (pending_cons_met id hafter.symm)]
  | present id referencedBy rest met n hmem hn ih =>
    rw [List.filter_cons_of_pos (by simpa using hmem)] at h
    obtain ⟨before, after, rfl, hmet, -, hafter⟩ := List.filter_eq_cons_iff.1 h.symm
    rw [g.sweepFrom_append_met _ (by simpa using hmet), sweepFrom_present hmem hn,
      sweepFrom_present hmem hn, ih _ (after ++ g.followers n)]
    rw [List.filter_append, List.filter_append, pending_cons_met id hafter.symm]

/-- Queueing only the targets not met yet gives the same sweep. -/
lemma sweepFrom_unmet_targets {g : Graph} {rest : List (NodeId × NodeId)} {n : Node}
    {met : List NodeId} (h : n.variant ≠ .timing) :
    g.sweepFrom (rest ++ ((g.outgoing n.id .output).filter (·.target ∉ met)).map
      fun e => (e.target, n.id)) met = g.sweepFrom (rest ++ g.followers n) met := by
  refine sweepFrom_congr _ _ ?_
  rw [followers, if_neg h, List.filter_append, List.filter_append, List.filter_map,
    List.filter_map, List.filter_filter]
  simp [Function.comp_def]

end Graph

namespace Context

mutual

/-- A traversal call comes to an end. The branches of the conditionals `expanding` are
being expanded around it. The number is how deep calls stand inside each other, this one
included. -/
inductive WalkEnds (c : Context) :
    List NodeId → NodeId → NodeId → Progress → Emission (List Statement) → ℕ → Prop
  | call {expanding start referencedBy p visited out depth} :
      LoopEnds c expanding [(start, referencedBy)] []
        ⟨p.allocation, p.calls + 1, p.limitReported⟩ visited out depth →
      WalkEnds c expanding start referencedBy p
        ⟨out.value, .called ⟨start, visited⟩ :: out.events, out.progress⟩ (depth + 1)

/-- The loop over a queue comes to an end; ids that were met are passed over, and only
targets not met yet are queued. -/
inductive LoopEnds (c : Context) : List NodeId → List (NodeId × NodeId) → List NodeId →
    Progress → List NodeId → Emission (List Statement) → ℕ → Prop
  | done {expanding met p} :
      LoopEnds c expanding [] met p [] ⟨[], [], p⟩ 0
  | again {expanding met id referencedBy rest p visited out depth} :
      id ∈ met → LoopEnds c expanding rest met p visited out depth →
      LoopEnds c expanding ((id, referencedBy) :: rest) met p visited out depth
  | absent {expanding met id referencedBy rest p visited out depth} :
      id ∉ met → c.graph.node? id = none →
      LoopEnds c expanding rest (id :: met) p visited out depth →
      LoopEnds c expanding ((id, referencedBy) :: rest) met p visited
        ⟨out.value, .reported (.nodeNotFound id referencedBy) :: out.events, out.progress⟩ depth
  | trigger {expanding met id referencedBy rest n p visited out depth} :
      id ∉ met → c.graph.node? id = some n → n.variant = .timing →
      LoopEnds c expanding rest (id :: met) p visited out depth →
      LoopEnds c expanding ((id, referencedBy) :: rest) met p (n.id :: visited)
        ⟨out.value, .visited n.id n.variant :: .reported (.unexpectedTiming n.id) :: out.events,
          out.progress⟩ depth
  | visit {expanding met id referencedBy rest n p visited first out depth depth'} :
      id ∉ met → c.graph.node? id = some n → n.variant ≠ .timing →
      VisitEnds c expanding n p first depth →
      LoopEnds c expanding
        (rest ++ ((c.graph.outgoing n.id .output).filter (·.target ∉ id :: met)).map
          fun e => (e.target, n.id))
        (id :: met) first.progress visited out depth' →
      LoopEnds c expanding ((id, referencedBy) :: rest) met p (n.id :: visited)
        ⟨first.value.toList ++ out.value, .visited n.id n.variant :: first.events ++ out.events,
          out.progress⟩ (max depth depth')

/-- The visit of a node that is no trigger comes to an end. A conditional is expanded
unless its branches are being expanded already. -/
inductive VisitEnds (c : Context) :
    List NodeId → Node → Progress → Emission (Option Statement) → ℕ → Prop
  | plain {expanding n p} : n.variant ≠ .conditional →
      VisitEnds c expanding n p (c.visit [] (fun _ h => absurd h List.not_mem_nil) n p) 0
  | refused {expanding n p} : n.variant = .conditional →
      n.id ∈ expanding →
      VisitEnds c expanding n p ⟨none, [.reported (.recursiveBranch n.id)], p⟩ 0
  | expanded {expanding n p condition onTrue onFalse depth depth'} :
      n.body = .conditional condition → n.id ∉ expanding →
      BranchEnds c (n.id :: expanding) n.id .whenTrue p onTrue depth →
      BranchEnds c (n.id :: expanding) n.id .whenFalse onTrue.progress onFalse depth' →
      VisitEnds c expanding n p
        ⟨some (.conditional condition.text (onTrue.value.getD []) onFalse.value),
          onTrue.events ++ onFalse.events, onFalse.progress⟩ (max depth depth')

/-- One branch of a conditional comes to an end. -/
inductive BranchEnds (c : Context) : List NodeId → NodeId → Handle → Progress →
    Emission (Option (List Statement)) → ℕ → Prop
  | unconnected {expanding id handle p} :
      c.graph.outgoing id handle = [] → BranchEnds c expanding id handle p ⟨none, [], p⟩ 0
  | followed {expanding id handle p first ignored out depth} :
      c.graph.outgoing id handle = first :: ignored → p.calls < c.options.maxCalls →
      WalkEnds c expanding first.target id p out depth →
      BranchEnds c expanding id handle p
        ⟨some out.value,
          c.fanOut id handle ignored ++ .branched id handle first.target :: out.events,
          out.progress⟩ depth
  | dropped {expanding id handle p first ignored} :
      c.graph.outgoing id handle = first :: ignored → c.options.maxCalls ≤ p.calls →
      p.limitReported = true →
      BranchEnds c expanding id handle p ⟨none, c.fanOut id handle ignored, p⟩ 0
  | limited {expanding id handle p first ignored} :
      c.graph.outgoing id handle = first :: ignored → c.options.maxCalls ≤ p.calls →
      p.limitReported = false →
      BranchEnds c expanding id handle p
        ⟨none, c.fanOut id handle ignored ++ [.reported (.limitReached id c.options.maxCalls)],
          ⟨p.allocation, p.calls, true⟩⟩ 0

end

/-- The expandable ids are the conditionals that are not being expanded. -/
def Complements (c : Context) (expandable expanding : List NodeId) : Prop :=
  ∀ id, c.graph.IsConditional id → (id ∈ expandable ↔ id ∉ expanding)

lemma Complements.push {c : Context} {expandable expanding : List NodeId}
    (h : c.Complements expandable expanding) (id : NodeId) :
    c.Complements (without expandable id) (id :: expanding) := by
  intro other hother
  simp [h other hother, and_comm]

lemma visit_conditional {c : Context} {expandable : List NodeId}
    {follow : (id : NodeId) → id ∈ expandable → Follow} {n : Node} {p : Progress}
    {condition : Condition} (h : n.body = .conditional condition) :
    c.visit expandable follow n p =
      if hmem : n.id ∈ expandable then c.expand n.id condition (follow n.id hmem) p
      else ⟨none, [.reported (.recursiveBranch n.id)], p⟩ := by
  simp only [visit, h]

lemma visit_timing {c : Context} {expandable : List NodeId}
    {follow : (id : NodeId) → id ∈ expandable → Follow} {n : Node} {p : Progress}
    (h : n.variant = .timing) :
    c.visit expandable follow n p = ⟨none, [.reported (.unexpectedTiming n.id)], p⟩ := by
  cases hbody : n.body <;> simp_all [visit, Node.variant, Body.variant]

lemma visit_plain {c : Context} {expandable : List NodeId}
    {follow : (id : NodeId) → id ∈ expandable → Follow} {n : Node} {p : Progress}
    (h : n.variant ≠ .conditional) :
    c.visit expandable follow n p =
      c.visit [] (fun _ h => absurd h List.not_mem_nil) n p := by
  unfold visit
  split
  · rfl
  · rfl
  · rfl
  · rename_i hbody
    simp [Node.variant, hbody, Body.variant] at h
  · rfl
  · rfl
  · rfl

mutual

/-- However a call ends, it ends as the walk does, with calls nested at most one deeper
than conditionals can still be expanded. -/
theorem WalkEnds.result {c : Context} {expanding expandable : List NodeId}
    {start referencedBy : NodeId} {p : Progress} {out : Emission (List Statement)} {depth : ℕ}
    (hc : c.Complements expandable expanding) :
    WalkEnds c expanding start referencedBy p out depth →
      out = c.walk expandable start referencedBy p ∧ depth ≤ expandable.length + 1
  | .call h => by
    obtain ⟨hvisited, hout, hdepth⟩ := h.result hc
    exact ⟨by rw [walk_eq, hvisited, hout]; rfl, by omega⟩

theorem LoopEnds.result {c : Context} {expanding expandable met visited : List NodeId}
    {queue : List (NodeId × NodeId)} {p : Progress} {out : Emission (List Statement)} {depth : ℕ}
    (hc : c.Complements expandable expanding) :
    LoopEnds c expanding queue met p visited out depth →
      visited = (c.graph.sweepFrom queue met).filterMap Step.visitedId? ∧
      out = c.perform expandable (c.nested expandable) (c.graph.sweepFrom queue met) p ∧
      depth ≤ expandable.length
  | .done => by simp [Graph.sweepFrom, perform]
  | .again hmem h => by
    rw [Graph.sweepFrom_again hmem]
    exact h.result hc
  | .absent hmem hn h => by
    obtain ⟨hvisited, hout, hdepth⟩ := h.result hc
    rw [Graph.sweepFrom_absent hmem hn]
    exact ⟨hvisited, by rw [hout]; rfl, hdepth⟩
  | .trigger hmem hn hv h => by
    obtain ⟨hvisited, hout, hdepth⟩ := h.result hc
    rw [Graph.sweepFrom_present hmem hn, Graph.followers, if_pos hv, List.append_nil]
    refine ⟨by rw [hvisited]; rfl, ?_, hdepth⟩
    rw [hout, perform, visit_timing hv]
    rfl
  | .visit hmem hn hv h h' => by
    obtain ⟨hfirst, hdepth⟩ := h.result hc (Graph.node?_self hn)
    obtain ⟨hvisited, hout, hdepth'⟩ := h'.result hc
    rw [Graph.sweepFrom_unmet_targets hv] at hvisited hout
    rw [Graph.sweepFrom_present hmem hn]
    refine ⟨by rw [hvisited]; rfl, ?_, max_le hdepth hdepth'⟩
    rw [hout, perform, hfirst]

theorem VisitEnds.result {c : Context} {expanding expandable : List NodeId} {n : Node}
    {p : Progress} {out : Emission (Option Statement)} {depth : ℕ}
    (hc : c.Complements expandable expanding) (hn : c.graph.node? n.id = some n) :
    VisitEnds c expanding n p out depth →
      out = c.visit expandable (c.nested expandable) n p ∧ depth ≤ expandable.length
  | .plain hv => ⟨(visit_plain hv).symm, Nat.zero_le _⟩
  | .refused hv hmem => by
    have hnot : n.id ∉ expandable := fun hin => (hc n.id ⟨n, hn, hv⟩).1 hin hmem
    obtain ⟨condition, hbody⟩ := Node.variant_eq_conditional.1 hv
    exact ⟨by rw [visit_conditional hbody, dif_neg hnot], Nat.zero_le _⟩
  | .expanded hbody hmem h h' => by
    have hv : n.variant = .conditional := Node.variant_eq_conditional.2 ⟨_, hbody⟩
    have hin : n.id ∈ expandable := (hc n.id ⟨n, hn, hv⟩).2 hmem
    have hlen := length_without_lt hin
    obtain ⟨hout, hdepth⟩ := h.result (hc.push n.id)
    obtain ⟨hout', hdepth'⟩ := h'.result (hc.push n.id)
    refine ⟨?_, by omega⟩
    rw [visit_conditional hbody, dif_pos hin, hout', hout]
    rfl

theorem BranchEnds.result {c : Context} {expanding expandable : List NodeId} {id : NodeId}
    {handle : Handle} {p : Progress} {out : Emission (Option (List Statement))} {depth : ℕ}
    (hc : c.Complements expandable expanding) :
    BranchEnds c expanding id handle p out depth →
      out = c.branch id (fun target q => c.walk expandable target id q) handle p ∧
      depth ≤ expandable.length + 1
  | .unconnected ho => by simp [branch, ho]
  | .followed ho hcalls h => by
    obtain ⟨hout, hdepth⟩ := h.result hc
    exact ⟨by simp [branch, ho, hcalls, hout], hdepth⟩
  | .dropped ho hcalls hr => by simp [branch, ho, hr, not_lt.2 hcalls]
  | .limited ho hcalls hr => by simp [branch, ho, hr, not_lt.2 hcalls]

end

lemma exists_branchEnds {c : Context} {expanding : List NodeId} {id : NodeId}
    (hwalk : ∀ target p, ∃ out depth, WalkEnds c expanding target id p out depth)
    (handle : Handle) (p : Progress) :
    ∃ out depth, BranchEnds c expanding id handle p out depth := by
  cases ho : c.graph.outgoing id handle with
  | nil => exact ⟨_, _, .unconnected ho⟩
  | cons first ignored =>
    by_cases hcalls : p.calls < c.options.maxCalls
    · obtain ⟨out, depth, h⟩ := hwalk first.target p
      exact ⟨_, _, .followed ho hcalls h⟩
    · cases hr : p.limitReported with
      | true => exact ⟨_, _, .dropped ho (not_lt.1 hcalls) hr⟩
      | false => exact ⟨_, _, .limited ho (not_lt.1 hcalls) hr⟩

lemma exists_visitEnds {c : Context} {expanding : List NodeId} {n : Node}
    (hwalk : n.variant = .conditional → n.id ∉ expanding → ∀ target p,
      ∃ out depth, WalkEnds c (n.id :: expanding) target n.id p out depth)
    (p : Progress) : ∃ out depth, VisitEnds c expanding n p out depth := by
  by_cases hv : n.variant = .conditional
  · by_cases hmem : n.id ∈ expanding
    · exact ⟨_, _, .refused hv hmem⟩
    · obtain ⟨condition, hbody⟩ := Node.variant_eq_conditional.1 hv
      obtain ⟨onTrue, _, htrue⟩ := exists_branchEnds (hwalk hv hmem) .whenTrue p
      obtain ⟨onFalse, _, hfalse⟩ := exists_branchEnds (hwalk hv hmem) .whenFalse onTrue.progress
      exact ⟨_, _, .expanded hbody hmem htrue hfalse⟩
  · exact ⟨_, _, .plain hv⟩

lemma exists_loopEnds {c : Context} {expanding : List NodeId}
    (hwalk : ∀ id, c.graph.IsConditional id → id ∉ expanding → ∀ target p,
      ∃ out depth, WalkEnds c (id :: expanding) target id p out depth)
    (queue : List (NodeId × NodeId)) (met : List NodeId) (p : Progress) :
    ∃ visited out depth, LoopEnds c expanding queue met p visited out depth := by
  induction queue, met using Graph.queue_induction (g := c.graph) generalizing p with
  | nil met => exact ⟨_, _, _, .done⟩
  | again id referencedBy rest met hmem ih =>
    obtain ⟨visited, out, depth, h⟩ := ih p
    exact ⟨_, _, _, .again hmem h⟩
  | absent id referencedBy rest met hmem hn ih =>
    obtain ⟨visited, out, depth, h⟩ := ih p
    exact ⟨_, _, _, .absent hmem hn h⟩
  | present id referencedBy rest met n hmem hn ih =>
    by_cases hv : n.variant = .timing
    · obtain ⟨visited, out, depth, h⟩ := ih rest p
      exact ⟨_, _, _, .trigger hmem hn hv h⟩
    · obtain ⟨first, _, hfirst⟩ := exists_visitEnds
        (fun hc hnot => hwalk n.id ⟨n, Graph.node?_self hn, hc⟩ hnot) p
      obtain ⟨visited, out, depth, h⟩ := ih _ first.progress
      exact ⟨_, _, _, .visit hmem hn hv hfirst h⟩

/-- Every traversal call ends: each branch is walked with one conditional less to expand. -/
theorem exists_walkEnds {c : Context} {expandable expanding : List NodeId}
    (hc : c.Complements expandable expanding) (start referencedBy : NodeId) (p : Progress) :
    ∃ out depth, WalkEnds c expanding start referencedBy p out depth := by
  induction expandable using walk_induction generalizing expanding start referencedBy p with
  | step expandable ih =>
    obtain ⟨visited, out, depth, h⟩ := exists_loopEnds
      (fun id hid hnot target => ih id ((hc id hid).2 hnot) (hc.push id) target id)
      [(start, referencedBy)] [] ⟨p.allocation, p.calls + 1, p.limitReported⟩
    exact ⟨_, _, .call h⟩

/-- The streams of the entry point end, one after the other. -/
inductive StreamsEnd (c : Context) (entry : NodeId) :
    List Edge → Progress → Emission (List Statement) → ℕ → Prop
  | nil {p} : StreamsEnd c entry [] p ⟨[], [], p⟩ 0
  | cons {e rest p walked others depth depth'} :
      WalkEnds c [] e.target entry p walked depth →
      StreamsEnd c entry rest walked.progress others depth' →
      StreamsEnd c entry (e :: rest) p
        ⟨walked.value ++ others.value, .streamed e.target :: walked.events ++ others.events,
          others.progress⟩ (max depth depth')

/-- A compilation ends, without a script only if there is no entry point. -/
inductive Ends (c : Context) : Except CompileError (Emission Script) → ℕ → Prop
  | noEntryPoint : c.graph.timings = [] → Ends c (.error .noEntryPoint) 0
  | compiled {entry call others walked depth} : c.graph.timings = (entry, call) :: others →
      StreamsEnd c entry (c.graph.outgoing entry .output) c.start walked depth →
      Ends c (.ok ⟨⟨(c.header c.start.allocation entry call).1, walked.value⟩,
        others.map (fun other => .reported (.additionalEntryPoint other.1)) ++
          (c.header c.start.allocation entry call).2.map .reported ++ walked.events,
        walked.progress⟩) depth

lemma complements_start (c : Context) : c.Complements c.graph.conditionalIds [] := by
  intro id hid
  simp [hid]

lemma StreamsEnd.result {c : Context} {entry : NodeId} {edges : List Edge} {p : Progress}
    {out : Emission (List Statement)} {depth : ℕ} (h : StreamsEnd c entry edges p out depth) :
    out = c.streams entry edges p ∧ depth ≤ c.graph.conditionalIds.length + 1 := by
  induction h with
  | nil => exact ⟨rfl, Nat.zero_le _⟩
  | cons hwalk _ ih =>
    obtain ⟨hout, hdepth⟩ := hwalk.result c.complements_start
    subst hout
    exact ⟨by rw [ih.1]; rfl, max_le hdepth ih.2⟩

lemma exists_streamsEnd (c : Context) (entry : NodeId) (edges : List Edge) (p : Progress) :
    ∃ out depth, StreamsEnd c entry edges p out depth := by
  induction edges generalizing p with
  | nil => exact ⟨_, _, .nil⟩
  | cons e rest ih =>
    obtain ⟨walked, depth, hwalk⟩ := exists_walkEnds c.complements_start e.target entry p
    obtain ⟨others, depth', hrest⟩ := ih walked.progress
    exact ⟨_, _, .cons hwalk hrest⟩

section Nesting

open Script.Statement (nesting nestingList nestingBranch)

variable {c : Context}

/-- A branch is nested no deeper than the walk behind it. -/
lemma nesting_branch_le {id : NodeId} {follow : Follow} {handle : Handle} {p : Progress} {k : ℕ}
    (h : ∀ target q, nestingList (follow target q).value ≤ k) :
    nestingBranch (c.branch id follow handle p).value ≤ k := by
  have hout := c.branch_outcome id follow handle p
  generalize c.branch id follow handle p = out at hout
  cases hout with
  | followed ho hcalls => exact h _ p
  | _ => exact Nat.zero_le _

lemma nesting_visit_le {expandable : List NodeId}
    {follow : (id : NodeId) → id ∈ expandable → Follow} {n : Node} {p : Progress} {k : ℕ}
    (h : ∀ id hmem target q, nestingList (follow id hmem target q).value < k) :
    nestingList (c.visit expandable follow n p).value.toList ≤ k := by
  have hout := c.visit_outcome expandable follow n p
  generalize c.visit expandable follow n p = out at hout
  cases hout with
  | omitted homit => exact Nat.zero_le _
  | written homit hv hr hnotes =>
    cases hr with
    | conditional hbody => exact absurd (Node.variant_eq_conditional.2 ⟨_, hbody⟩) hv
    | _ => simp [nestingList, nesting]
  | expanded hmem hbody =>
    have hle : ∀ target q, nestingList (follow n.id hmem target q).value ≤ k - 1 :=
      fun target q => Nat.le_sub_one_of_lt (h n.id hmem target q)
    have htrue : nestingBranch (c.branch n.id (follow n.id hmem) .whenTrue p).value ≤ k - 1 :=
      nesting_branch_le hle
    have hfalse : nestingBranch (c.branch n.id (follow n.id hmem) .whenFalse
        (c.branch n.id (follow n.id hmem) .whenTrue p).progress).value ≤ k - 1 :=
      nesting_branch_le hle
    have hpos := h n.id hmem n.id p
    simp only [expand, Option.toList_some, nestingList, nesting,
      Script.Statement.nestingList_getD]
    omega

lemma nesting_perform_le {expandable : List NodeId}
    {follow : (id : NodeId) → id ∈ expandable → Follow} {steps : List Step} {p : Progress} {k : ℕ}
    (h : ∀ id hmem target q, nestingList (follow id hmem target q).value < k) :
    nestingList (c.perform expandable follow steps p).value ≤ k := by
  induction steps generalizing p with
  | nil => exact Nat.zero_le _
  | cons s rest ih =>
    cases s with
    | absent id referencedBy => exact ih
    | present n =>
      simp only [perform, Script.Statement.nestingList_append]
      exact max_le (nesting_visit_le h) ih

/-- Conditionals stand inside each other at most as deep as a walk can expand them. -/
lemma nesting_walk_le (expandable : List NodeId) (start referencedBy : NodeId) (p : Progress) :
    nestingList (c.walk expandable start referencedBy p).value ≤ expandable.length := by
  induction expandable using walk_induction generalizing start referencedBy p with
  | step expandable ih =>
    rw [walk_eq]
    exact nesting_perform_le fun id hmem target q =>
      (ih id hmem target id q).trans_lt (length_without_lt hmem)

lemma nesting_streams_le (entry : NodeId) (edges : List Edge) (p : Progress) :
    nestingList (c.streams entry edges p).value ≤ c.graph.conditionalIds.length := by
  induction edges generalizing p with
  | nil => exact Nat.zero_le _
  | cons e rest ih =>
    simp only [streams, Script.Statement.nestingList_append]
    exact max_le (nesting_walk_le _ _ _ _) (ih _)

end Nesting

/-- Every compilation ends, whatever the graph and the limit, and as `run` says. Calls
are nested at most one deeper than there are conditional ids, and conditional statements
no deeper than that. -/
theorem compilation_ends (c : Context) :
    (∃ outcome depth, c.Ends outcome depth) ∧
    (∀ outcome depth, c.Ends outcome depth →
      outcome = c.run ∧ depth ≤ {id | c.graph.IsConditional id}.ncard + 1) ∧
    ∀ result, c.graph.compile c.registry c.options = .ok result →
      Script.Statement.nestingList result.script.statements ≤
        {id | c.graph.IsConditional id}.ncard := by
  simp only [← Graph.length_conditionalIds]
  refine ⟨?_, ?_, ?_⟩
  · cases ht : c.graph.timings with
    | nil => exact ⟨_, _, .noEntryPoint ht⟩
    | cons first others =>
      obtain ⟨walked, depth, h⟩ := c.exists_streamsEnd first.1 (c.graph.outgoing first.1 .output)
        c.start
      exact ⟨_, _, .compiled ht h⟩
  · intro outcome depth h
    cases h with
    | noEntryPoint ht => exact ⟨by rw [run, ht], Nat.zero_le _⟩
    | compiled ht hstreams =>
      obtain ⟨rfl, hdepth⟩ := hstreams.result
      exact ⟨(run_eq ht).symm, hdepth⟩
  · intro result h
    obtain ⟨entry, call, others, ht⟩ := Graph.timings_of_compile h
    rw [Graph.compile, run_eq ht] at h
    obtain rfl := Except.ok.inj h
    exact nesting_streams_le entry _ c.start

open ScriptGraph.Graph (knot)

/-- In the knot the bound on nested conditionals is attained. -/
theorem compilation_ends_knot :
    (∃ outcome depth, Ends ⟨knot, .empty, {}⟩ outcome depth ∧
      outcome = run ⟨knot, .empty, {}⟩ ∧ depth ≤ {id | knot.IsConditional id}.ncard + 1) ∧
    ∃ result, knot.compile .empty {} = .ok result ∧
      Script.Statement.nestingList result.script.statements = 1 ∧
      1 ≤ {id | knot.IsConditional id}.ncard := by
  have hview : (knot.compile .empty {}).toOption.map
      (fun result => Script.Statement.nestingList result.script.statements) = some 1 := by cbv
  obtain ⟨result, hok, hnesting⟩ := exists_ok_of_map hview
  obtain ⟨⟨outcome, depth, hends⟩, hall, hbound⟩ := compilation_ends ⟨knot, .empty, {}⟩
  exact ⟨⟨outcome, depth, hends, hall outcome depth hends⟩, result, hok, hnesting,
    hnesting ▸ hbound result hok⟩

end Context

end ScriptGraph
