import ScriptGraph.Proofs.Runs

/-!
# How many traversal calls are made

Streams are not subject to the limit on calls, branches are. So the calls beyond the limit
are those of streams, and a compilation makes no more of them than its entry point has edges.
A branch that is not followed for the limit is reported once for all that come after it.
-/
namespace ScriptGraph

open Script (Statement)

namespace Event

/-- Where a stream starts, if the event starts one. -/
def stream? : Event → Option NodeId
  | streamed target => some target
  | _ => none

/-- The starts of the streams among some events. -/
def streams (events : List Event) : List NodeId := events.filterMap stream?

@[simp] theorem streams_append (xs ys : List Event) :
    streams (xs ++ ys) = streams xs ++ streams ys :=
  List.filterMap_append

/-- How often a limit is reported among some events. -/
def limitReports (events : List Event) : ℕ :=
  (diagnostics events).countP (· matches .limitReached _ _)

@[simp] theorem limitReports_append (xs ys : List Event) :
    limitReports (xs ++ ys) = limitReports xs + limitReports ys := by
  simp [limitReports, List.countP_append]

lemma trace_cons {event : Event} (h : event.record? = none) (events : List Event) :
    trace (event :: events) = trace events :=
  List.filterMap_cons_none h

/-- The event begins no traversal call and no stream, and reports no limit. -/
def Quiet (event : Event) : Prop :=
  event.record? = none ∧ event.stream? = none ∧
    ∀ id limit, event ≠ .reported (.limitReached id limit)

@[simp] theorem quiet_reported {d : Diagnostic} :
    (reported d).Quiet ↔ ∀ id limit, d ≠ .limitReached id limit := by
  simp [Quiet, record?, stream?]

@[simp] theorem quiet_visited (id : NodeId) (variant : Variant) : (visited id variant).Quiet := by
  simp [Quiet, record?, stream?]

@[simp] theorem quiet_bound (id : NodeId) (slot : Slot) : (bound id slot).Quiet := by
  simp [Quiet, record?, stream?]

section Quiet

variable {events : List Event}

lemma trace_of_quiet (h : ∀ event ∈ events, event.Quiet) : trace events = [] :=
  List.filterMap_eq_nil_iff.2 fun event hevent => (h event hevent).1

lemma streams_of_quiet (h : ∀ event ∈ events, event.Quiet) : streams events = [] :=
  List.filterMap_eq_nil_iff.2 fun event hevent => (h event hevent).2.1

lemma limitReports_of_quiet (h : ∀ event ∈ events, event.Quiet) : limitReports events = 0 := by
  refine List.countP_eq_zero.2 fun d hd => ?_
  have hquiet := h _ (mem_diagnostics.1 hd)
  cases d with
  | limitReached id limit => exact absurd rfl (hquiet.2.2 id limit)
  | _ => simp

end Quiet

/-- What opens a traversal call from an id when some calls were made before it: a stream, or
a branch while these are fewer than the limit. -/
inductive Opens (limit calls : ℕ) (start : NodeId) : Event → Prop
  | stream : Opens limit calls start (.streamed start)
  | branch {id : NodeId} {handle : Handle} : calls < limit →
      Opens limit calls start (.branched id handle start)

lemma Opens.trace_cons {limit calls : ℕ} {start : NodeId} {opener : Event}
    (h : opener.Opens limit calls start) (r : TraversalRecord) (events : List Event) :
    trace (opener :: .called r :: events) = r :: trace events := by
  cases h <;> rfl

/-- Right in front of each call among the events stands the event that opens it. The number is
that of the calls before the events. -/
inductive Opened (limit : ℕ) : ℕ → List Event → Prop
  | nil {calls : ℕ} : Opened limit calls []
  | aside {calls : ℕ} {event : Event} {rest : List Event} : event.record? = none →
      Opened limit calls rest → Opened limit calls (event :: rest)
  | call {calls : ℕ} {opener : Event} {r : TraversalRecord} {rest : List Event} :
      opener.Opens limit calls r.start → Opened limit (calls + 1) rest →
      Opened limit calls (opener :: .called r :: rest)

namespace Opened

variable {limit calls : ℕ} {xs ys : List Event}

lemma append (hx : Opened limit calls xs) (hy : Opened limit (calls + (trace xs).length) ys) :
    Opened limit calls (xs ++ ys) := by
  induction hx with
  | nil => exact hy
  | @aside calls event rest hevent _ ih =>
    rw [trace_cons hevent] at hy
    exact .aside hevent (ih hy)
  | @call calls opener r rest hopens _ ih =>
    rw [hopens.trace_cons, List.length_cons, Nat.add_comm _ 1, ← Nat.add_assoc] at hy
    exact .call hopens (ih hy)

lemma of_quiet (h : ∀ event ∈ xs, event.Quiet) : Opened limit calls xs := by
  induction xs with
  | nil => exact .nil
  | cons event rest ih =>
    obtain ⟨hevent, hrest⟩ := List.forall_mem_cons.1 h
    exact .aside hevent.1 (ih hrest)

/-- The call with some index has as many calls before it, and right before it stands the
event that opens it. -/
lemma getElem? (h : Opened limit calls xs) {i : ℕ} {r : TraversalRecord}
    (hr : (trace xs)[i]? = some r) :
    ∃ before opener after, xs = before ++ opener :: .called r :: after ∧
      (trace before).length = i ∧ opener.Opens limit (calls + i) r.start := by
  induction h generalizing i with
  | nil => simp [trace] at hr
  | @aside calls event rest hevent _ ih =>
    rw [trace_cons hevent] at hr
    obtain ⟨before, opener, after, hrest, hi, hopens⟩ := ih hr
    exact ⟨event :: before, opener, after, by rw [hrest]; rfl, by rw [trace_cons hevent, hi],
      hopens⟩
  | @call calls opener r' rest hopens _ ih =>
    rw [hopens.trace_cons] at hr
    cases i with
    | zero =>
      obtain rfl : r' = r := by simpa using hr
      exact ⟨[], opener, rest, rfl, rfl, hopens⟩
    | succ i =>
      obtain ⟨before, opener', after, hrest, hi, hopens'⟩ := ih (by simpa using hr)
      refine ⟨opener :: .called r' :: before, opener', after, by rw [hrest]; rfl, ?_, ?_⟩
      · rw [hopens.trace_cons, List.length_cons, hi]
      · rwa [Nat.add_comm i 1, ← Nat.add_assoc]

end Opened

end Event

namespace Context

/-- What a stretch does to the count of calls. It counts each call, has a call for each of its
streams, and goes beyond the limit only by these. The limit is reported once, when it is
reached. -/
structure Counted (limit : ℕ) (p : Progress) (events : List Event) (q : Progress) : Prop where
  calls : q.calls = p.calls + (Event.trace events).length
  atLeast : p.calls + (Event.streams events).length ≤ q.calls
  atMost : q.calls ≤ max p.calls limit + (Event.streams events).length
  opened : Event.Opened limit p.calls events
  reports : Event.limitReports events + p.limitReported.toNat = q.limitReported.toNat
  reached : q.limitReported = true → p.limitReported = true ∨ limit ≤ q.calls

section Counted

variable {c : Context} {limit : ℕ} {p q : Progress}

lemma Counted.append {xs ys : List Event} {r : Progress} (hx : Counted limit p xs q)
    (hy : Counted limit q ys r) : Counted limit p (xs ++ ys) r where
  calls := by
    have hcalls := hx.calls
    have hcalls' := hy.calls
    rw [Event.trace_append, List.length_append]
    omega
  atLeast := by
    have hle := hx.atLeast
    have hle' := hy.atLeast
    rw [Event.streams_append, List.length_append]
    omega
  atMost := by
    have hle := hx.atMost
    have hle' := hy.atMost
    rw [Event.streams_append, List.length_append]
    omega
  opened := hx.opened.append (hx.calls ▸ hy.opened)
  reports := by
    have hcount := hx.reports
    have hcount' := hy.reports
    rw [Event.limitReports_append]
    omega
  reached := by
    intro hr
    have hmono : q.calls ≤ r.calls := by
      have := hy.calls
      omega
    rcases hy.reached hr with hq | hle
    · exact (hx.reached hq).imp_right fun hle => hle.trans hmono
    · exact .inr hle

lemma counted_of_quiet {events : List Event} (h : ∀ event ∈ events, event.Quiet)
    (hcalls : q.calls = p.calls) (hreported : q.limitReported = p.limitReported) :
    Counted limit p events q where
  calls := by rw [hcalls, Event.trace_of_quiet h]; rfl
  atLeast := by rw [hcalls, Event.streams_of_quiet h]; rfl
  atMost := by rw [hcalls, Event.streams_of_quiet h]; simp
  opened := .of_quiet h
  reports := by rw [hreported, Event.limitReports_of_quiet h]; omega
  reached hr := .inl (hreported ▸ hr)

/-- A call with all that happens in it, behind the event that opens it. A branch is opened
below the limit, a stream anywhere. -/
lemma Counted.call {opener : Event} {r : TraversalRecord} {events : List Event}
    (h : Counted limit ⟨p.allocation, p.calls + 1, p.limitReported⟩ events q)
    (hopens : opener.Opens limit p.calls r.start) :
    Counted limit p (opener :: .called r :: events) q := by
  have hcalls : q.calls = p.calls + 1 + (Event.trace events).length := h.calls
  have hleast : p.calls + 1 + (Event.streams events).length ≤ q.calls := h.atLeast
  have hmost : q.calls ≤ max (p.calls + 1) limit + (Event.streams events).length := h.atMost
  constructor
  case calls =>
    rw [hopens.trace_cons, List.length_cons]
    omega
  case atLeast =>
    cases hopens with
    | stream =>
      change p.calls + ((Event.streams events).length + 1) ≤ q.calls
      omega
    | branch _ =>
      change p.calls + (Event.streams events).length ≤ q.calls
      omega
  case atMost =>
    cases hopens with
    | stream =>
      change q.calls ≤ max p.calls limit + ((Event.streams events).length + 1)
      omega
    | branch hlt =>
      change q.calls ≤ max p.calls limit + (Event.streams events).length
      omega
  case opened => exact .call hopens h.opened
  case reports => cases hopens <;> exact h.reports
  case reached => exact h.reached

section Start

variable {events : List Event}

lemma Counted.length_trace (h : Counted limit c.start events q) :
    (Event.trace events).length = q.calls := by
  have hcalls : q.calls = 0 + (Event.trace events).length := h.calls
  omega

lemma Counted.limitReports_eq (h : Counted limit c.start events q) :
    Event.limitReports events = q.limitReported.toNat := h.reports

lemma Counted.limitReports_le_one (h : Counted limit c.start events q) :
    Event.limitReports events ≤ 1 := by
  rw [h.limitReports_eq]
  exact Bool.toNat_le _

lemma Counted.limitReported_of_mem (h : Counted limit c.start events q) {id : NodeId}
    {limit' : ℕ} (hmem : .reported (.limitReached id limit') ∈ events) :
    q.limitReported = true := by
  have hpos : 0 < Event.limitReports events :=
    List.countP_pos_iff.2 ⟨_, Event.mem_diagnostics.2 hmem, rfl⟩
  rw [h.limitReports_eq] at hpos
  cases hr : q.limitReported with
  | true => rfl
  | false => simp [hr] at hpos

end Start

lemma quiet_fanOut (c : Context) (id : NodeId) (handle : Handle) (ignored : List Edge) :
    ∀ event ∈ c.fanOut id handle ignored, event.Quiet := by
  intro event hevent
  unfold fanOut at hevent
  split_ifs at hevent
  · simp [List.mem_singleton.1 hevent]
  · simp at hevent

lemma quiet_omission {expandable : List NodeId} {n : Node} {d : Diagnostic}
    (h : c.omission? expandable n = some d) : (Event.reported d).Quiet := by
  rcases omission?_cases h with ⟨rfl, -⟩ | ⟨rfl, -⟩ | ⟨rfl, -⟩ | ⟨call, rfl, -⟩ <;> simp

lemma Remarks.quiet {n : Node} {event : Event} (h : c.Remarks n event) : event.Quiet := by
  cases h <;> simp

/-- A walk from an id: its own call, and then a stretch. -/
def CountedWalk (limit : ℕ) (start : NodeId) (p : Progress)
    (x : Emission (List Statement)) : Prop :=
  ∃ visited events, x.events = .called ⟨start, visited⟩ :: events ∧
    Counted limit ⟨p.allocation, p.calls + 1, p.limitReported⟩ events x.progress

lemma CountedWalk.counted {start : NodeId} {x : Emission (List Statement)} {opener : Event}
    (h : CountedWalk limit start p x) (hopens : opener.Opens limit p.calls start) :
    Counted limit p (opener :: x.events) x.progress := by
  obtain ⟨visited, events, hevents, hcounted⟩ := h
  rw [hevents]
  exact hcounted.call hopens

lemma counted_branch (id : NodeId) {follow : Follow} (handle : Handle)
    (hfollow : ∀ target q, CountedWalk c.options.maxCalls target q (follow target q))
    (p : Progress) : Counted c.options.maxCalls p (c.branch id follow handle p).events
      (c.branch id follow handle p).progress := by
  have hfan : ∀ ignored, Counted c.options.maxCalls p (c.fanOut id handle ignored) p :=
    fun ignored => counted_of_quiet (c.quiet_fanOut id handle ignored) rfl rfl
  have hout := c.branch_outcome id follow handle p
  generalize c.branch id follow handle p = out at hout
  cases hout with
  | unconnected _ => exact counted_of_quiet (by simp) rfl rfl
  | @followed first ignored _ hcalls =>
    exact (hfan ignored).append ((hfollow first.target p).counted (.branch hcalls))
  | @dropped first ignored _ _ _ => exact hfan ignored
  | @limited first ignored _ hcalls hr =>
    refine (hfan ignored).append ?_
    have hrecord : (Event.reported (.limitReached id c.options.maxCalls)).record? = none := rfl
    constructor
    case calls => rfl
    case atLeast => exact Nat.le_refl p.calls
    case atMost => exact Nat.le_max_left _ _
    case opened => exact .aside hrecord .nil
    case reports => rw [hr]; rfl
    case reached => exact fun _ => .inr hcalls

lemma counted_visit {expandable : List NodeId}
    {follow : (id : NodeId) → id ∈ expandable → Follow} (n : Node)
    (hfollow : ∀ id h target q, CountedWalk c.options.maxCalls target q (follow id h target q))
    (p : Progress) : Counted c.options.maxCalls p (c.visit expandable follow n p).events
      (c.visit expandable follow n p).progress := by
  have hout := c.visit_outcome expandable follow n p
  generalize c.visit expandable follow n p = out at hout
  cases hout with
  | omitted homit =>
    refine counted_of_quiet (fun event hevent => ?_) rfl rfl
    rw [List.mem_singleton.1 hevent]
    exact quiet_omission homit
  | written _ _ _ hnotes =>
    exact counted_of_quiet (fun event hevent => (hnotes event hevent).quiet) rfl rfl
  | expanded hmem _ =>
    exact (counted_branch n.id .whenTrue (hfollow n.id hmem) p).append
      (counted_branch n.id .whenFalse (hfollow n.id hmem) _)

/-- Every stretch of a run keeps count of its calls. -/
lemma lockstep_counted (c : Context) : Lockstep c c (fun _ => True)
    (fun p x _ _ => Counted c.options.maxCalls p x.events x.progress)
    (fun start p x _ _ => CountedWalk c.options.maxCalls start p x) where
  conditional _ _ := Iff.rfl
  nothing p _ := counted_of_quiet (by simp) rfl rfl
  append := Counted.append
  absent id referencedBy p _ := counted_of_quiet (by simp) rfl rfl
  visit := by
    intro expandable follow _ n p _ _ _ hfollow
    have hvisited : Counted c.options.maxCalls p [.visited n.id n.variant] p :=
      counted_of_quiet (by simp) rfl rfl
    exact hvisited.append (counted_visit n (fun id h target q => hfollow id h target q q) p)
  call := by
    intro start referencedBy p x _ _ _ hx
    exact ⟨_, x.events, rfl, hx rfl fun _ _ => trivial⟩

/-- No stream starts inside of a walk. -/
lemma streams_walk (c : Context) (expandable : List NodeId) (start referencedBy : NodeId)
    (p : Progress) : Event.streams (c.walk expandable start referencedBy p).events = [] := by
  refine List.filterMap_eq_nil_iff.2 fun event hevent => ?_
  have hhappens := happens_of_mem_walk hevent
  clear hevent
  induction hhappens with
  | called => rfl
  | caused _ hcauses =>
    cases hcauses with
    | omitted homit => exact (quiet_omission homit).2.1
    | remarked hremark => exact hremark.quiet.2.1
    | _ => rfl
  | nested _ _ _ _ _ _ ih => exact ih

lemma streams_streams (c : Context) (entry : NodeId) (edges : List Edge) (p : Progress) :
    Event.streams (c.streams entry edges p).events = edges.map (·.target) := by
  induction edges generalizing p with
  | nil => rfl
  | cons e rest ih =>
    have hwalk := c.streams_walk c.graph.conditionalIds e.target entry p
    change e.target :: Event.streams (_ ++ _) = e.target :: rest.map (·.target)
    rw [Event.streams_append, hwalk, ih, List.nil_append]

lemma counted_streams (c : Context) (entry : NodeId) (edges : List Edge) (p : Progress) :
    Counted c.options.maxCalls p (c.streams entry edges p).events
      (c.streams entry edges p).progress :=
  c.lockstep_counted.streams (fun hwalk => hwalk.counted .stream) entry edges p p

/-- The call of the first stream is one of those that the limit allows, if it allows any. Each
stream after it may add one. -/
lemma streams_calls_le (c : Context) (entry : NodeId) (e : Edge) (rest : List Edge)
    (p : Progress) : (c.streams entry (e :: rest) p).progress.calls ≤
      max (p.calls + 1) c.options.maxCalls + rest.length := by
  obtain ⟨visited, events, hevents, hcounted⟩ :=
    c.lockstep_counted.streamWalk e.target entry p p
  have hnone : Event.streams events = [] := by
    have hwalk := c.streams_walk c.graph.conditionalIds e.target entry p
    rw [hevents] at hwalk
    exact hwalk
  have hfirst := hcounted.atMost
  have hrest := (c.counted_streams entry rest
    (c.walk c.graph.conditionalIds e.target entry p).progress).atMost
  rw [hnone] at hfirst
  rw [streams_streams, List.length_map] at hrest
  change (c.streams entry rest
    (c.walk c.graph.conditionalIds e.target entry p).progress).progress.calls ≤ _
  simp only [List.length_nil] at hfirst
  omega

lemma quiet_preamble (c : Context) (a : Allocation) (entry : NodeId) (call : Call)
    (others : List (NodeId × Call)) :
    ∀ event ∈ others.map (fun other => Event.reported (.additionalEntryPoint other.1)) ++
      (c.header a entry call).2.map .reported, event.Quiet := by
  intro event hevent
  rcases mem_preamble hevent with ⟨id, rfl⟩ | rfl | ⟨slot, rfl⟩ <;> simp

/-- A whole run keeps count of its calls, and its streams are those of the edges of its entry
point. -/
lemma counted_of_run {entry : NodeId} {call : Call} {others : List (NodeId × Call)}
    (h : c.graph.timings = (entry, call) :: others) {out : Emission Script}
    (hrun : c.run = .ok out) :
    Counted c.options.maxCalls c.start out.events out.progress ∧
      Event.streams out.events = (c.graph.outgoing entry .output).map (·.target) := by
  obtain rfl := Except.ok.inj (hrun.symm.trans (run_eq h))
  have hquiet := c.quiet_preamble c.start.allocation entry call others
  constructor
  · exact (counted_of_quiet hquiet rfl rfl).append (c.counted_streams entry _ c.start)
  · rw [Event.streams_append, Event.streams_of_quiet hquiet, streams_streams, List.nil_append]

lemma progress_of_run_unconnected {entry : NodeId} {call : Call}
    {others : List (NodeId × Call)} (h : c.graph.timings = (entry, call) :: others)
    {out : Emission Script} (hrun : c.run = .ok out)
    (hnone : c.graph.outgoing entry .output = []) : out.progress = c.start := by
  obtain rfl := Except.ok.inj (hrun.symm.trans (run_eq h))
  rw [hnone]
  rfl

/-- As many calls as the limit allows, and one more for each stream but the first. -/
lemma calls_of_run_le {entry : NodeId} {call : Call} {others : List (NodeId × Call)}
    (h : c.graph.timings = (entry, call) :: others) {out : Emission Script}
    (hrun : c.run = .ok out) (hedges : 1 ≤ (c.graph.outgoing entry .output).length) :
    out.progress.calls ≤
      max c.options.maxCalls 1 + (c.graph.outgoing entry .output).length - 1 := by
  obtain rfl := Except.ok.inj (hrun.symm.trans (run_eq h))
  cases ho : c.graph.outgoing entry .output with
  | nil => simp [ho] at hedges
  | cons e rest =>
    have hle := c.streams_calls_le entry e rest c.start
    have hzero : c.start.calls = 0 := rfl
    rw [List.length_cons]
    dsimp only
    omega

end Counted

end Context

namespace Graph

/-- How far the limit reaches. Without an edge to start a stream nothing is called. With some,
there are at least as many calls, and no more than the limit allows but for one for each
stream besides the first. Each call is opened by a stream, of which there is one for each
edge of the entry point, or by a branch, and those from the limit on by streams. The limit
is reported at most once, and only if as many calls were made. -/
theorem compile_call_counts (g : Graph) (registry : Registry) (options : Options)
    (entry : NodeId) (call : Call) (others : List (NodeId × Call))
    (h : g.timings = (entry, call) :: others) :
    ∃ out result, Context.run ⟨g, registry, options⟩ = .ok out ∧
      g.compile registry options = .ok result ∧ .ofEmission out = result ∧
      ((g.outgoing entry .output).length = 0 →
        result.trace = [] ∧ ∀ id limit, .limitReached id limit ∉ result.diagnostics) ∧
      (1 ≤ (g.outgoing entry .output).length →
        (g.outgoing entry .output).length ≤ result.trace.length ∧
        result.trace.length ≤
          max options.maxCalls 1 + (g.outgoing entry .output).length - 1) ∧
      Event.streams out.events = (g.outgoing entry .output).map (·.target) ∧
      (∀ i r, result.trace[i]? = some r → ∃ before opener after,
        out.events = before ++ opener :: .called r :: after ∧
        (Event.trace before).length = i ∧ opener.Opens options.maxCalls i r.start ∧
        (options.maxCalls ≤ i → opener = .streamed r.start)) ∧
      result.diagnostics.countP (· matches .limitReached _ _) ≤ 1 ∧
      ∀ id limit, .limitReached id limit ∈ result.diagnostics →
        options.maxCalls ≤ result.trace.length := by
  obtain ⟨out, hrun⟩ : ∃ out, Context.run ⟨g, registry, options⟩ = .ok out :=
    ⟨_, Context.run_eq h⟩
  obtain ⟨hcounted, hstreams⟩ := Context.counted_of_run h hrun
  have hcalls := hcounted.length_trace
  refine ⟨out, .ofEmission out, hrun, congrArg (Except.map _) hrun, rfl, ?_⟩
  dsimp only [Compilation.ofEmission] at hstreams ⊢
  refine ⟨?_, ?_, hstreams, ?_, hcounted.limitReports_le_one, ?_⟩
  · intro hnone
    have hprogress := Context.progress_of_run_unconnected h hrun (List.length_eq_zero_iff.1 hnone)
    rw [hprogress] at hcalls
    refine ⟨List.length_eq_zero_iff.1 hcalls, fun id limit hmem => ?_⟩
    have hreported := hcounted.limitReported_of_mem (Event.mem_diagnostics.1 hmem)
    rw [hprogress] at hreported
    exact Bool.false_ne_true hreported
  · intro hedges
    have hle := Context.calls_of_run_le h hrun hedges
    have hge := hcounted.atLeast
    rw [hstreams, List.length_map] at hge
    dsimp only at hle hge
    omega
  · intro i r hr
    obtain ⟨before, opener, after, hevents, hi, hopens⟩ := hcounted.opened.getElem? hr
    have hcount : (Context.start ⟨g, registry, options⟩).calls + i = i := Nat.zero_add i
    rw [hcount] at hopens
    refine ⟨before, opener, after, hevents, hi, hopens, fun hle => ?_⟩
    cases hopens with
    | stream => rfl
    | branch hlt =>
      dsimp only at hlt
      omega
  · intro id limit hmem
    have hreported := hcounted.limitReported_of_mem (Event.mem_diagnostics.1 hmem)
    rcases hcounted.reached hreported with hstart | hle
    · exact absurd hstart Bool.false_ne_true
    · rw [hcalls]
      exact hle

/-- A graph with two streams into one conditional, whose true branch leads to a strike. -/
def twofold : Graph where
  nodes := [⟨"start", default, .timing ⟨"Begin", .empty⟩⟩, ⟨"check", default, .conditional {}⟩,
    ⟨"strike", default, .consequence ⟨"Strike", .empty⟩⟩]
  edges := [⟨"start", .output, "check", .input⟩, ⟨"start", .output, "check", .input⟩,
    ⟨"check", .whenTrue, "strike", .input⟩]

/-- The bound is attained: with room for two calls the branch is followed in the first stream,
and the second stream makes a third call. -/
theorem compile_call_counts_twofold : twofold.timings = [("start", ⟨"Begin", .empty⟩)] ∧
    ∃ out result, Context.run ⟨twofold, .empty, { maxCalls := 2 }⟩ = .ok out ∧
      twofold.compile .empty { maxCalls := 2 } = .ok result ∧
      result.trace = [⟨"check", ["check"]⟩, ⟨"strike", ["strike"]⟩, ⟨"check", ["check"]⟩] ∧
      result.trace.length ≤ max 2 1 + 2 - 1 ∧
      result.diagnostics.countP (· matches .limitReached _ _) = 1 ∧
      Event.streams out.events = ["check", "check"] ∧
      ∃ before after, out.events = before ++
        .streamed "check" :: .called ⟨"check", ["check"]⟩ :: after ∧
        (Event.trace before).length = 2 := by
  have hview : (twofold.compile .empty { maxCalls := 2 }).toOption.map
      (fun result => (result.trace, result.diagnostics.countP (· matches .limitReached _ _))) =
      some ([⟨"check", ["check"]⟩, ⟨"strike", ["strike"]⟩, ⟨"check", ["check"]⟩], 1) := by cbv
  obtain ⟨out, result, hrun, hok, -, -, hcounts, hstreams, hopened, -, -⟩ :=
    compile_call_counts twofold .empty { maxCalls := 2 } "start" ⟨"Begin", .empty⟩ [] (by cbv)
  obtain ⟨result', hok', hresult⟩ := exists_ok_of_map hview
  obtain rfl : result = result' := Except.ok.inj (hok.symm.trans hok')
  obtain ⟨htrace, hcount⟩ := Prod.mk.inj hresult
  obtain ⟨before, opener, after, hevents, hbefore, -, hstream⟩ :=
    hopened 2 ⟨"check", ["check"]⟩ (by rw [htrace]; rfl)
  rw [hstream (by decide)] at hevents
  exact ⟨by cbv, out, result, hrun, hok, htrace, (hcounts (by decide)).2, hcount, hstreams,
    before, after, hevents, hbefore⟩

end Graph

end ScriptGraph
