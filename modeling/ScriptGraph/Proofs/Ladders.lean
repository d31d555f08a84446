import ScriptGraph.Function.Catalog
import ScriptGraph.Proofs.Balance
import ScriptGraph.Proofs.CallArguments
import ScriptGraph.Proofs.Ending

/-!
# Ladders of conditionals

Both branches of each conditional of a ladder lead to the next one, so that each rung doubles
the number of traversal calls. Without a limit the calls are those of a full binary tree, in the
order in which it is walked down. A limit cuts this list of calls off at its length, wherever in
the tree that is, and the first call that is not made is reported.
-/
namespace ScriptGraph

open Script (Statement)
open ScriptGraph.Graph (IsBranch)

/-- A traversal call of a ladder: the id that leads to it, and the id where it starts and which is
all that it visits. -/
structure Descent where
  source : NodeId
  target : NodeId

def Descent.record (d : Descent) : TraversalRecord := ⟨d.target, [d.target]⟩

lemma Descent.totalVisits_records (due : List Descent) :
    Trace.totalVisits (due.map record) = due.length := by
  induction due with
  | nil => rfl
  | cons d due ih =>
    rw [List.map_cons, Trace.totalVisits, ih, List.length_cons, Nat.add_comm]
    rfl

/-- A conditional of a ladder. -/
structure Rung where
  id : NodeId
  position : Position := default
  condition : Condition := {}

namespace Rung

def node (r : Rung) : Node := ⟨r.id, r.position, .conditional r.condition⟩

/-- The edge from a branch of a rung to the rung below it, if there is one. -/
def down (r : Rung) (handle : Handle) (below : List Rung) : List Edge :=
  (below.head?.map fun next => ⟨r.id, handle, next.id, .input⟩).toList

def edges : List Rung → List Edge
  | [] => []
  | r :: below => r.down .whenTrue below ++ r.down .whenFalse below ++ edges below

/-- The calls that are due below an id from which both branches lead down, in their order. -/
def descents (source : NodeId) : List Rung → List Descent
  | [] => []
  | r :: below => ⟨source, r.id⟩ :: (descents r.id below ++ descents r.id below)

lemma length_descents (source : NodeId) (rungs : List Rung) :
    (descents source rungs).length = 2 ^ rungs.length - 1 := by
  induction rungs generalizing source with
  | nil => rfl
  | cons r below ih =>
    have hpos : 0 < 2 ^ below.length := Nat.two_pow_pos _
    simp only [descents, List.length_cons, List.length_append, ih, pow_succ]
    omega

end Rung

namespace Context

/-- Of the calls that are due those are made that the limit has room for. The first one that is
not made is reported, unless one was reported before. -/
structure Cut (limit : ℕ) (due : List Descent) (p : Progress) (events : List Event)
    (q : Progress) : Prop where
  trace : Event.trace events = (due.take (limit - p.calls)).map Descent.record
  calls : q.calls = p.calls + min (limit - p.calls) due.length
  reports : Event.diagnostics events = if p.limitReported then [] else
    due[limit - p.calls]?.toList.map fun d => .limitReached d.source limit
  reported : q.limitReported = (p.limitReported || decide (limit - p.calls < due.length))

section Cut

variable {c : Context} {limit : ℕ} {p q : Progress}

lemma cut_nothing (limit : ℕ) (p : Progress) : Cut limit [] p [] p := by
  constructor <;> simp [Event.trace, Event.diagnostics]

/-- What one stretch uses of the room is missing in the next, and what it reports is not reported
again. -/
lemma Cut.append {xs ys : List Descent} {events events' : List Event} {r : Progress}
    (hx : Cut limit xs p events q) (hy : Cut limit ys q events' r) :
    Cut limit (xs ++ ys) p (events ++ events') r := by
  have hroom : limit - q.calls = limit - p.calls - xs.length := by
    have hcalls := hx.calls
    omega
  constructor
  case trace =>
    rw [Event.trace_append, hx.trace, hy.trace, hroom, List.take_append, List.map_append]
  case calls =>
    have hcalls := hx.calls
    have hcalls' := hy.calls
    rw [List.length_append]
    omega
  case reports =>
    rw [Event.diagnostics_append, hx.reports, hy.reports, hx.reported, hroom]
    cases p.limitReported with
    | true => simp
    | false =>
      by_cases hcut : limit - p.calls < xs.length
      · simp [hcut, List.getElem?_append_left hcut]
      · rw [not_lt] at hcut
        simp [hcut, List.getElem?_append_right hcut]
  case reported =>
    rw [hy.reported, hx.reported, hroom, List.length_append, Bool.or_assoc]
    rw [← Bool.decide_or]
    congr 2
    exact propext (by omega)

/-- An event that is neither a call nor a report. -/
lemma Cut.aside {due : List Descent} {events : List Event} {event : Event}
    (h : Cut limit due p events q) (hrecord : event.record? = none)
    (hdiagnostic : event.diagnostic? = none) : Cut limit due p (event :: events) q where
  trace := (List.filterMap_cons_none hrecord).trans h.trace
  calls := h.calls
  reports := (List.filterMap_cons_none hdiagnostic).trans h.reports
  reported := h.reported

/-- A call that there is room for. -/
lemma Cut.call {due : List Descent} {events : List Event} {d : Descent} (hroom : p.calls < limit)
    (h : Cut limit due ⟨p.allocation, p.calls + 1, p.limitReported⟩ events q) :
    Cut limit (d :: due) p (.called d.record :: events) q := by
  have hnext : limit - p.calls = limit - (p.calls + 1) + 1 := by omega
  constructor
  case trace =>
    rw [hnext, List.take_succ_cons, List.map_cons, ← h.trace]
    rfl
  case calls =>
    have hcalls : q.calls = p.calls + 1 + min (limit - (p.calls + 1)) due.length := h.calls
    rw [List.length_cons]
    omega
  case reports =>
    rw [hnext, List.getElem?_cons_succ]
    exact h.reports
  case reported =>
    rw [hnext, List.length_cons]
    simpa using h.reported

/-- A call that there is no room for, and with it all that are due after it. -/
lemma cut_refused (d : Descent) (due : List Descent) (hroom : limit ≤ p.calls) :
    (p.limitReported = true → Cut limit (d :: due) p [] p) ∧
      (p.limitReported = false → Cut limit (d :: due) p [.reported (.limitReached d.source limit)]
        ⟨p.allocation, p.calls, true⟩) := by
  have hnone : limit - p.calls = 0 := by omega
  constructor
  · intro hp
    constructor <;> simp [hnone, hp, Event.trace, Event.diagnostics]
  · intro hp
    constructor <;>
      simp [hnone, hp, Event.trace, Event.diagnostics, Event.record?, Event.diagnostic?]

/-- Each call is of one node, and none is left out: so there are as many statements as calls. -/
lemma Cut.size {due : List Descent} {events : List Event} {statements : ℕ}
    (h : Cut limit due p events q) (hbalance : Balanced statements events) :
    statements = (Event.trace events).length := by
  have homissions : (Event.diagnostics events).countP Diagnostic.isOmission = 0 := by
    rw [h.reports]
    refine List.countP_eq_zero.2 fun d hd => ?_
    split_ifs at hd
    · cases hd
    · obtain ⟨refused, -, rfl⟩ := List.mem_map.1 hd
      exact Bool.false_ne_true
  unfold Balanced at hbalance
  rw [← Event.totalVisits_trace, ← Event.countP_diagnostics, homissions, h.trace,
    Descent.totalVisits_records, Nat.add_zero] at hbalance
  rw [h.trace, List.length_map, hbalance]

/-- A walk from a rung: its own call, and then the calls of both branches as far as there is room
for them. -/
def CutWalk (limit : ℕ) (r : Rung) (below : List Rung) (p : Progress)
    (x : Emission (List Statement)) : Prop :=
  ∃ events, x.events = .called ⟨r.id, [r.id]⟩ :: events ∧
    Cut limit (Rung.descents r.id below ++ Rung.descents r.id below)
      ⟨p.allocation, p.calls + 1, p.limitReported⟩ events x.progress

/-- With the call that leads to it, a walk takes the calls that are due from the rung down. -/
lemma CutWalk.cut {r : Rung} {below : List Rung} {x : Emission (List Statement)}
    (h : CutWalk limit r below p x) (hroom : p.calls < limit) (source : NodeId) :
    Cut limit (Rung.descents source (r :: below)) p x.events x.progress := by
  obtain ⟨events, hevents, hcut⟩ := h
  rw [hevents]
  exact Cut.call (d := ⟨source, r.id⟩) hroom hcut

lemma cut_branch {r : Rung} {handle : Handle} {below : List Rung} {follow : Follow}
    (ho : c.graph.outgoing r.id handle = r.down handle below)
    (hfollow : ∀ next rest, below = next :: rest → ∀ q,
      CutWalk c.options.maxCalls next rest q (follow next.id q)) (p : Progress) :
    Cut c.options.maxCalls (Rung.descents r.id below) p (c.branch r.id follow handle p).events
      (c.branch r.id follow handle p).progress := by
  cases below with
  | nil =>
    rw [branch_unconnected ho]
    exact cut_nothing _ p
  | cons next rest =>
    have ho' : c.graph.outgoing r.id handle = [⟨r.id, handle, next.id, .input⟩] := ho
    have hfan : c.fanOut r.id handle [] = [] := by simp [fanOut]
    by_cases hroom : p.calls < c.options.maxCalls
    · rw [branch_followed ho' hroom, hfan]
      exact ((hfollow next rest rfl p).cut hroom r.id).aside rfl rfl
    · rw [not_lt] at hroom
      obtain ⟨hdropped, hlimited⟩ := cut_refused ⟨r.id, next.id⟩
        (Rung.descents next.id rest ++ Rung.descents next.id rest) hroom
      rw [branch_unfollowed ho' hroom, hfan]
      split_ifs with hp
      · exact hdropped hp
      · exact hlimited (Bool.eq_false_iff.2 hp)

end Cut

end Context

namespace Graph

/-- The rungs stand in the graph. Nothing leads on from them but their branches, each to the rung
below. -/
def Holds (g : Graph) : List Rung → Prop
  | [] => True
  | r :: below => (g.node? r.id = some r.node ∧ g.outgoing r.id .output = [] ∧
      ∀ handle, IsBranch handle → g.outgoing r.id handle = r.down handle below) ∧ g.Holds below

/-- The sweep from a rung meets nothing else. -/
lemma sweep_rung {g : Graph} {r : Rung} (hn : g.node? r.id = some r.node)
    (ho : g.outgoing r.id .output = []) (referencedBy : NodeId) :
    g.sweep r.id referencedBy = [.present r.node] := by
  have hfollowers : g.followers r.node = [] := by
    have hsame : g.outgoing r.node.id .output = [] := ho
    simp [followers, hsame]
  rw [sweep, sweepFrom_present List.not_mem_nil hn, hfollowers, List.append_nil, sweepFrom]

end Graph

namespace Context

variable {c : Context}

/-- A walk from a rung is its expansion. -/
lemma walk_rung {expandable : List NodeId} {r : Rung} (hn : c.graph.node? r.id = some r.node)
    (ho : c.graph.outgoing r.id .output = []) (hmem : r.id ∈ expandable) (referencedBy : NodeId)
    (p : Progress) :
    c.walk expandable r.id referencedBy p =
      let out := c.expand r.id r.condition (c.nested expandable r.id hmem)
        ⟨p.allocation, p.calls + 1, p.limitReported⟩
      ⟨out.value.toList, .called ⟨r.id, [r.id]⟩ :: .visited r.id .conditional :: out.events,
        out.progress⟩ := by
  have hvisit : ∀ q, c.visit expandable (c.nested expandable) r.node q =
      c.expand r.id r.condition (c.nested expandable r.id hmem) q := by
    intro q
    have hbody : r.node.body = .conditional r.condition := rfl
    rw [visit_conditional hbody]
    exact dif_pos hmem
  rw [walk_eq, c.graph.sweep_rung hn ho]
  simp only [perform, hvisit, List.append_nil]
  rfl

/-- A walk from a rung is cut off as the walks of its branches are. -/
lemma cutWalk_of_branches {r : Rung} {below : List Rung} (hholds : c.graph.Holds (r :: below))
    {expandable : List NodeId} (hmem : r.id ∈ expandable)
    (hfollow : ∀ next rest, below = next :: rest → ∀ q,
      CutWalk c.options.maxCalls next rest q (c.nested expandable r.id hmem next.id q))
    (referencedBy : NodeId) (p : Progress) :
    CutWalk c.options.maxCalls r below p (c.walk expandable r.id referencedBy p) := by
  obtain ⟨⟨hn, ho, hbranches⟩, -⟩ := hholds
  have hcut := fun handle hb => cut_branch (hbranches handle hb) hfollow
  rw [walk_rung hn ho hmem]
  have hboth := (hcut .whenTrue (.inl rfl) ⟨p.allocation, p.calls + 1, p.limitReported⟩).append
    (hcut .whenFalse (.inr rfl) _)
  exact ⟨_, rfl, hboth.aside rfl rfl⟩

/-- Walks down a ladder are cut off by the limit and by nothing else: inside of a rung those below
it can still be expanded, since their ids are others. -/
theorem cutWalk {r : Rung} {below : List Rung} (hholds : c.graph.Holds (r :: below))
    (hids : ((r :: below).map (·.id)).Nodup) {expandable : List NodeId}
    (hmem : ∀ s ∈ r :: below, s.id ∈ expandable) (referencedBy : NodeId) (p : Progress) :
    CutWalk c.options.maxCalls r below p (c.walk expandable r.id referencedBy p) := by
  induction below generalizing r expandable referencedBy p with
  | nil =>
    refine cutWalk_of_branches hholds (hmem r List.mem_cons_self) ?_ referencedBy p
    intro next rest hbelow
    cases hbelow
  | cons next rest ih =>
    refine cutWalk_of_branches hholds (hmem r List.mem_cons_self) ?_ referencedBy p
    rintro _ _ ⟨⟩ q
    rw [List.map_cons, List.nodup_cons] at hids
    refine ih hholds.2 hids.2 (fun s hs => mem_without.2 ⟨?_, fun hsame => ?_⟩) r.id q
    · exact hmem s (List.mem_cons_of_mem _ hs)
    · exact hids.1 (hsame ▸ List.mem_map_of_mem hs)

lemma streams_singleton (c : Context) (entry : NodeId) (e : Edge) (p : Progress) :
    c.streams entry [e] p =
      let walked := c.walk c.graph.conditionalIds e.target entry p
      ⟨walked.value, .streamed e.target :: walked.events, walked.progress⟩ := by
  simp [streams]

end Context

/-- A graph with one trigger is compiled to what its streams are, behind the problems of the
header. -/
lemma Graph.exists_compile_single {g : Graph} {entry : NodeId} {call : Call}
    (h : g.timings = [(entry, call)]) (registry : Registry) (options : Options) :
    let c : Context := ⟨g, registry, options⟩
    let walked := c.streams entry (g.outgoing entry .output) c.start
    ∃ result, g.compile registry options = .ok result ∧
      result.script.statements = walked.value ∧ result.trace = Event.trace walked.events ∧
      result.diagnostics =
        (c.header c.start.allocation entry call).2 ++ Event.diagnostics walked.events := by
  intro c walked
  have hcompile := congrArg (Except.map Compilation.ofEmission) (Context.run_eq (c := c) h)
  refine ⟨_, hcompile, rfl, ?_, ?_⟩
  · simp [Compilation.ofEmission, walked, c]
  · simp [Compilation.ofEmission, walked, c]

namespace Rung

lemma mem_down {r : Rung} {handle : Handle} {below : List Rung} {e : Edge}
    (h : e ∈ r.down handle below) : e.source = r.id ∧ e.sourceHandle = handle := by
  cases below with
  | nil => simp [down] at h
  | cons next rest => simp_all [down]

lemma filter_down (r : Rung) (handle : Handle) (below : List Rung) (id : NodeId) (h : Handle) :
    (r.down handle below).filter (fun e => e.source == id && e.sourceHandle == h) =
      if r.id = id ∧ handle = h then r.down handle below else [] := by
  split_ifs with hsame
  · refine List.filter_eq_self.2 fun e he => ?_
    simp [mem_down he, hsame]
  · refine List.filter_eq_nil_iff.2 fun e he => ?_
    simpa [mem_down he] using hsame

lemma mem_edges {rungs : List Rung} {e : Edge} (h : e ∈ edges rungs) :
    e.source ∈ rungs.map (·.id) ∧ IsBranch e.sourceHandle := by
  induction rungs with
  | nil => cases h
  | cons r below ih =>
    rcases List.mem_append.1 h with h | h
    · rcases List.mem_append.1 h with h | h
      · exact ⟨by simp [mem_down h], .inl (mem_down h).2⟩
      · exact ⟨by simp [mem_down h], .inr (mem_down h).2⟩
    · exact ⟨List.mem_cons_of_mem _ (ih h).1, (ih h).2⟩

lemma filter_edges_output (rungs : List Rung) (id : NodeId) :
    (edges rungs).filter (fun e => e.source == id && e.sourceHandle == .output) = [] := by
  refine List.filter_eq_nil_iff.2 fun e he hsame => ?_
  have hbranch := (mem_edges he).2
  simp_all [IsBranch]

/-- Of the edges of a ladder those of a branch are the one that leads down from it. -/
lemma filter_edges {above below : List Rung} {r : Rung}
    (hids : ((above ++ r :: below).map (·.id)).Nodup) {handle : Handle} (hb : IsBranch handle) :
    (edges (above ++ r :: below)).filter (fun e => e.source == r.id && e.sourceHandle == handle) =
      r.down handle below := by
  induction above with
  | nil =>
    rw [List.nil_append, List.map_cons, List.nodup_cons] at hids
    have hrest : (edges below).filter (fun e => e.source == r.id && e.sourceHandle == handle) =
        [] := by
      refine List.filter_eq_nil_iff.2 fun e he hsame => hids.1 ?_
      have hsource : e.source = r.id := by simp_all
      exact hsource ▸ (mem_edges he).1
    rw [List.nil_append, edges, List.filter_append, List.filter_append, filter_down, filter_down,
      hrest]
    rcases hb with rfl | rfl <;> simp
  | cons s above ih =>
    rw [List.cons_append, List.map_cons, List.nodup_cons] at hids
    have hne : s.id ≠ r.id := fun hsame => hids.1 (by simp [hsame])
    rw [List.cons_append, edges, List.filter_append, List.filter_append, filter_down, filter_down,
      ih hids.2]
    simp [hne]

end Rung

/-- A trigger that leads to the first of some conditionals, of which each leads to the next by both
of its branches. -/
structure Ladder where
  entry : NodeId
  position : Position := default
  call : Call
  top : Rung
  below : List Rung
  distinct : (entry :: (top :: below).map (·.id)).Nodup

namespace Ladder

def rungs (l : Ladder) : List Rung := l.top :: l.below

def depth (l : Ladder) : ℕ := l.rungs.length

def graph (l : Ladder) : Graph where
  nodes := ⟨l.entry, l.position, .timing l.call⟩ :: l.rungs.map Rung.node
  edges := ⟨l.entry, .output, l.top.id, .input⟩ :: Rung.edges l.rungs

/-- The calls of a compilation of the ladder that no limit cuts off, in order. -/
def descents (l : Ladder) : List Descent := Rung.descents l.entry l.rungs

lemma length_descents (l : Ladder) : l.descents.length = 2 ^ l.depth - 1 :=
  Rung.length_descents l.entry l.rungs

lemma timings_graph (l : Ladder) : l.graph.timings = [(l.entry, l.call)] := by
  simp [Graph.timings, graph, Rung.node]

lemma outgoing_entry (l : Ladder) :
    l.graph.outgoing l.entry .output = [⟨l.entry, .output, l.top.id, .input⟩] := by
  rw [Graph.outgoing, graph, List.filter_cons_of_pos (by simp), Rung.filter_edges_output]

lemma nodup_ids (l : Ladder) : (l.graph.nodes.map (·.id)).Nodup := by
  have hids : l.graph.nodes.map (·.id) = l.entry :: l.rungs.map (·.id) := by
    simp [graph, Rung.node, Function.comp_def]
  rw [hids]
  exact l.distinct

lemma node?_rung (l : Ladder) {r : Rung} (h : r ∈ l.rungs) : l.graph.node? r.id = some r.node :=
  Graph.node?_of_mem l.nodup_ids (List.mem_cons_of_mem _ (List.mem_map_of_mem h))

/-- The rungs of a ladder, from any of them down, stand in its graph. -/
lemma holds_of_append (l : Ladder) {above rungs : List Rung} (h : l.rungs = above ++ rungs) :
    l.graph.Holds rungs := by
  induction rungs generalizing above with
  | nil => trivial
  | cons r below ih =>
    obtain ⟨hentry, hids⟩ := List.nodup_cons.1 l.distinct
    change (l.rungs.map (·.id)).Nodup at hids
    have hmem : r ∈ l.rungs := by simp [h]
    have hne : l.entry ≠ r.id := fun hsame => hentry (hsame ▸ List.mem_map_of_mem hmem)
    have hsplit : l.rungs = (above ++ [r]) ++ below := by simp [h]
    refine ⟨⟨l.node?_rung hmem, ?_, fun handle hb => ?_⟩, ih hsplit⟩
    · rw [Graph.outgoing, graph, List.filter_cons_of_neg (by simp [hne]), Rung.filter_edges_output]
    · rw [Graph.outgoing, graph, List.filter_cons_of_neg (by simp [hne]), h]
      exact Rung.filter_edges (h ▸ hids) hb

lemma holds_rungs (l : Ladder) : l.graph.Holds l.rungs := l.holds_of_append (List.nil_append _).symm

lemma mem_conditionalIds (l : Ladder) {r : Rung} (h : r ∈ l.rungs) :
    r.id ∈ l.graph.conditionalIds :=
  Graph.mem_conditionalIds.2 ⟨r.node, l.node?_rung h, rfl⟩

/-- Below the trigger of a ladder is one statement, and its calls are cut off by the limit. -/
lemma streams_cut (l : Ladder) (registry : Registry) {options : Options}
    (hlimit : 1 ≤ options.maxCalls) :
    let c : Context := ⟨l.graph, registry, options⟩
    let walked := c.streams l.entry (l.graph.outgoing l.entry .output) c.start
    ∃ s, walked.value = [s] ∧ s.size = (Event.trace walked.events).length ∧
      Context.Cut options.maxCalls l.descents c.start walked.events walked.progress := by
  intro c walked
  have hholds : c.graph.Holds (l.top :: l.below) := l.holds_rungs
  have hwalk := Context.cutWalk hholds (List.nodup_cons.1 l.distinct).2
    (fun s => l.mem_conditionalIds) l.entry c.start
  have htop := Context.walk_rung hholds.1.1 hholds.1.2.1
    (l.mem_conditionalIds List.mem_cons_self) l.entry c.start
  have hwalked : walked = c.streams l.entry [⟨l.entry, .output, l.top.id, .input⟩] c.start :=
    congrArg (c.streams l.entry · c.start) l.outgoing_entry
  rw [Context.streams_singleton] at hwalked
  obtain ⟨s, hvalue⟩ : ∃ s, walked.value = [s] := by
    rw [hwalked]
    exact ⟨_, congrArg (·.value) htop⟩
  have hcut : Context.Cut options.maxCalls l.descents c.start walked.events walked.progress := by
    rw [hwalked]
    exact (hwalk.cut hlimit l.entry).aside rfl rfl
  have hsize := hcut.size (c.balanced_streams l.entry _ c.start)
  rw [hvalue, Statement.sizeList, Statement.sizeList, Nat.add_zero] at hsize
  exact ⟨s, hvalue, hsize, hcut⟩

/-- Each rung of a ladder doubles the calls, until the limit cuts them off: those that are made are
the first ones of the full tree, and the script has a statement for each. If the trigger is known,
nothing is reported but the first call that is not made. -/
theorem compile_growth (l : Ladder) (registry : Registry) (options : Options)
    (hlimit : 1 ≤ options.maxCalls) :
    ∃ result s, l.graph.compile registry options = .ok result ∧
      result.script.statements = [s] ∧ s.size = result.trace.length ∧
      result.trace = (l.descents.take options.maxCalls).map Descent.record ∧
      result.trace.length = min options.maxCalls (2 ^ l.depth - 1) ∧
      (registry.contains l.call.function = true →
        (2 ^ l.depth - 1 ≤ options.maxCalls → result.diagnostics = []) ∧
        (options.maxCalls < 2 ^ l.depth - 1 → ∃ d, l.descents[options.maxCalls]? = some d ∧
          result.diagnostics = [.limitReached d.source options.maxCalls])) := by
  obtain ⟨s, hvalue, hsize, hcut⟩ := l.streams_cut registry hlimit
  obtain ⟨result, hcompile, hstatements, htrace, hdiagnostics⟩ :=
    Graph.exists_compile_single l.timings_graph registry options
  rw [hvalue] at hstatements
  rw [← htrace] at hsize
  rw [hcut.trace] at htrace
  rw [hcut.reports] at hdiagnostics
  have hcalls : result.trace.length = min options.maxCalls (2 ^ l.depth - 1) := by
    rw [htrace, List.length_map, List.length_take, l.length_descents]
    rfl
  refine ⟨result, s, hcompile, hstatements, hsize, htrace, hcalls, fun hcall => ?_⟩
  obtain ⟨schema, hschema⟩ := Option.isSome_iff_exists.1 hcall
  have hreports : result.diagnostics = l.descents[options.maxCalls]?.toList.map
      fun d => .limitReached d.source options.maxCalls := by
    have hheader : (Context.header ⟨l.graph, registry, options⟩ (.ofGraph l.graph) l.entry
        l.call).2 = [] := Context.header_of_lookup? hschema
    rw [hdiagnostics, Context.start, hheader]
    rfl
  rw [← l.length_descents]
  constructor
  · intro hroom
    rw [hreports, List.getElem?_eq_none hroom]
    rfl
  · intro hover
    have hfirst := List.getElem?_eq_getElem hover
    refine ⟨_, hfirst, ?_⟩
    rw [hreports, hfirst]
    rfl

def rungId (i : ℕ) : NodeId := "c" ++ toString i

lemma rungId_injective : Function.Injective rungId := fun _ _ h =>
  Nat.repr_inj.1 ((String.append_right_inj _).1 h)

lemma notMem_map_rungId (numbers : List ℕ) : "t" ∉ numbers.map rungId := by
  intro hmem
  obtain ⟨i, -, hi⟩ := List.mem_map.1 hmem
  have hchars := congrArg (·.toList.head?) hi
  simp [rungId] at hchars

/-- A ladder whose rungs are numbered from the top. Besides the first there are as many as are
asked for. -/
def numbered (call : Call) (condition : Condition) (below : ℕ) : Ladder where
  entry := "t"
  call := call
  top := ⟨rungId 0, default, condition⟩
  below := (List.range' 1 below).map fun i => ⟨rungId i, default, condition⟩
  distinct := by
    have hids : ((List.range' 0 (below + 1)).map rungId).Nodup :=
      List.Nodup.map rungId_injective (List.nodup_range' 1 Nat.one_pos)
    simpa [List.range'_succ, Function.comp_def] using
      List.nodup_cons.2 ⟨notMem_map_rungId (List.range' 0 (below + 1)), hids⟩

/-- The ladder whose conditionals all ask whether a value is positive. -/
def positive (below : ℕ) : Ladder :=
  numbered ⟨"RoundStart", .empty⟩ ⟨[⟨"VALUE_0", .greater, "0"⟩], .and⟩ below

theorem compile_growth_positive :
    Registry.builtIn.contains "RoundStart" = true ∧
    (∃ result s, (positive 19).graph.compile .builtIn ⟨true, true, 100⟩ = .ok result ∧
      result.script.statements = [s] ∧ s.size = 100 ∧ result.trace.length = 100 ∧
      result.diagnostics = [.limitReached "c18" 100]) ∧
    ∃ result s, (positive 2).graph.compile .builtIn ⟨true, true, 7⟩ = .ok result ∧
      result.script.statements = [s] ∧ s.size = 7 ∧ result.trace.length = 7 ∧
      result.diagnostics = [] := by
  have hcall : Registry.builtIn.contains "RoundStart" = true := by cbv
  have hfirst : (positive 19).descents[100]?.map (·.source) = some "c18" := by
    decide +kernel
  have hdepth : (positive 19).depth = 20 ∧ (positive 2).depth = 3 := by decide
  refine ⟨hcall, ?_, ?_⟩
  · obtain ⟨result, s, hok, hone, hsize, -, hcalls, hreports⟩ :=
      compile_growth (positive 19) .builtIn ⟨true, true, 100⟩ (by decide)
    rw [hdepth.1] at hcalls hreports
    obtain ⟨d, hd, hdiagnostics⟩ := (hreports hcall).2 (by decide)
    have hsource : d.source = "c18" := by
      rw [hd] at hfirst
      exact Option.some.inj hfirst
    exact ⟨result, s, hok, hone, hsize.trans hcalls, hcalls, hsource ▸ hdiagnostics⟩
  · obtain ⟨result, s, hok, hone, hsize, -, hcalls, hreports⟩ :=
      compile_growth (positive 2) .builtIn ⟨true, true, 7⟩ (by decide)
    rw [hdepth.2] at hcalls hreports
    exact ⟨result, s, hok, hone, hsize.trans hcalls, hcalls, (hreports hcall).1 (by decide)⟩

end Ladder

end ScriptGraph
