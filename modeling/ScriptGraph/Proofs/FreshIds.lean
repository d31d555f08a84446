import Mathlib.Order.Bounds.Basic
import ScriptGraph.Proofs.EditHistories

/-!
# Fresh ids

A new node gets the least number from the counter on whose id is free. The counter then
stands behind that number and no other edit moves it, so that along a history of edits the
numbers of new nodes increase. An id is not given a second time, even if its node is gone.
-/
namespace ScriptGraph.Store

variable {s s' : Store}

/-- The numbers from `k` on whose ids are free. -/
def freeFrom (g : Graph) (k : ℕ) : Set ℕ := {i | k ≤ i ∧ idOf i ∉ g.nodes.map (·.id)}

/-- The search for a free id that tries one number after another. It begins at the first
argument, and how many numbers it tries is the second. -/
inductive Search (g : Graph) : ℕ → ℕ → ℕ → Prop
  | free {k : ℕ} : idOf k ∉ g.nodes.map (·.id) → Search g k 1 k
  | taken {k tried found : ℕ} : idOf k ∈ g.nodes.map (·.id) → Search g (k + 1) tried found →
      Search g k (tried + 1) found

/-- The search ends at the least free number, if there is one, and nowhere else. -/
lemma search_iff {g : Graph} {k tried found : ℕ} :
    Search g k tried found ↔ IsLeast (freeFrom g k) found ∧ found + 1 = k + tried := by
  constructor
  · intro h
    induction h with
    | free hfree => exact ⟨⟨⟨le_rfl, hfree⟩, fun i hi => hi.1⟩, rfl⟩
    | @taken k tried found htaken _ ih =>
      obtain ⟨⟨⟨hle, hfree⟩, hleast⟩, htried⟩ := ih
      refine ⟨⟨⟨by omega, hfree⟩, fun i hi => hleast ⟨?_, hi.2⟩⟩, by omega⟩
      have hne : i ≠ k := fun he => hi.2 (he ▸ htaken)
      have := hi.1
      omega
  · rintro ⟨⟨⟨hle, hfree⟩, hleast⟩, htried⟩
    -- All numbers before the least free one are taken, however far it is.
    induction hd : found - k generalizing k tried with
    | zero =>
      obtain rfl : found = k := by omega
      obtain rfl : tried = 1 := by omega
      exact .free hfree
    | succ d ih =>
      obtain ⟨rest, rfl⟩ : ∃ rest, tried = rest + 1 := ⟨tried - 1, by omega⟩
      have htaken : idOf k ∈ g.nodes.map (·.id) := by
        by_contra hnot
        have := hleast ⟨le_rfl, hnot⟩
        omega
      refine .taken htaken (ih (by omega) (fun i hi => hleast ⟨?_, hi.2⟩) (by omega) (by omega))
      exact Nat.le_of_succ_le hi.1

/-- The fresh number is behind some taken ones that begin with the counter, of which there are at
most as many as nodes. -/
lemma exists_offset (s : Store) : ∃ taken ≤ s.graph.nodes.length,
    s.freshIndex = s.nextId + taken ∧
      ∀ i < taken, idOf (s.nextId + i) ∈ s.graph.nodes.map (·.id) := by
  cases hfind : (List.range s.graph.nodes.length).find?
      fun i => !s.graph.contains (idOf (s.nextId + i)) with
  | some taken =>
    obtain ⟨-, hmem, hbefore⟩ := List.find?_range_eq_some.1 hfind
    refine ⟨taken, (List.mem_range.1 hmem).le, by simp [freshIndex, hfind], fun i hi => ?_⟩
    exact Graph.contains_iff.1 (by simpa using hbefore i hi)
  | none =>
    refine ⟨_, le_rfl, by simp [freshIndex, hfind], fun i hi => ?_⟩
    exact Graph.contains_iff.1 (by simpa using List.find?_range_eq_none.1 hfind i hi)

lemma freshIndex_le (s : Store) : s.freshIndex ≤ s.nextId + s.graph.nodes.length := by
  obtain ⟨taken, hle, hfresh, -⟩ := s.exists_offset
  omega

/-- No number between the counter and the fresh one is free. -/
lemma isLeast_freshIndex (s : Store) : IsLeast (freeFrom s.graph s.nextId) s.freshIndex := by
  obtain ⟨taken, -, hfresh, hbefore⟩ := s.exists_offset
  refine ⟨⟨s.nextId_le_freshIndex, s.idOf_freshIndex_notMem⟩, fun i hi => ?_⟩
  obtain ⟨hle, hfree⟩ := hi
  by_contra hlt
  have htaken := hbefore (i - s.nextId) (by omega)
  rw [Nat.add_sub_cancel' hle] at htaken
  exact hfree htaken

lemma add_eq_ok {template : Template} {parameters : Parameters} {position : Position} {n : Node}
    (h : s.add template parameters position = .ok (s', n)) :
    n.id = idOf s.freshIndex ∧ s'.graph = ⟨s.graph.nodes ++ [n], s.graph.edges⟩ ∧
      s'.nextId = s.freshIndex + 1 := by
  obtain ⟨body, -, rfl, rfl⟩ := exists_body_of_add h
  exact ⟨rfl, rfl, rfl⟩

lemma editNode_nextId {id : NodeId} {f : Node → Except EditError Node}
    (h : s.editNode id f = .ok s') : s'.nextId = s.nextId := by
  obtain ⟨nodes, -, rfl⟩ := exists_of_map_eq_ok h
  rfl

/-- The id that an edit gives out, which is that of the node it adds. -/
def given? (s : Store) : Edit → Option NodeId
  | .add template parameters position =>
    (s.add template parameters position).toOption.map (·.2.id)
  | _ => none

/-- The ids that a history gives out, in order. -/
def givenIds (s : Store) : List Edit → List NodeId
  | [] => []
  | e :: rest => match s.apply e with
    | .ok s' => (s.given? e).toList ++ givenIds s' rest
    | .error _ => []

/-- The counter moves only behind an id that is given out. -/
lemma given?_of_apply {edit : Edit} (h : s.apply edit = .ok s') :
    s.given? edit = none ∧ s'.nextId = s.nextId ∨
      s.given? edit = some (idOf s.freshIndex) ∧ s'.nextId = s.freshIndex + 1 := by
  cases edit with
  | add template parameters position =>
    obtain ⟨⟨_, n⟩, hadd, rfl⟩ := exists_of_map_eq_ok h
    obtain ⟨hid, -, hnext⟩ := add_eq_ok hadd
    refine .inr ⟨?_, hnext⟩
    simp [given?, hadd, Except.toOption, hid]
  | embed id function parameters =>
    simp only [apply, embed] at h
    cases hlookup : s.registry.lookup? function with
    | none => simp [hlookup] at h
    | some schema =>
      simp only [hlookup] at h
      split_ifs at h
      exact .inl ⟨rfl, editNode_nextId h⟩
  | setParameters | setCondition | bindSlot | move => exact .inl ⟨rfl, editNode_nextId h⟩
  | remove id =>
    simp only [apply, remove] at h
    split_ifs at h
    obtain rfl := Except.ok.inj h
    exact .inl ⟨rfl, rfl⟩
  | connect e =>
    obtain ⟨-, -, rfl⟩ := connect_outcome h
    exact .inl ⟨rfl, rfl⟩
  | disconnect e =>
    simp only [apply, disconnect] at h
    split_ifs at h
    obtain rfl := Except.ok.inj h
    exact .inl ⟨rfl, rfl⟩

/-- The numbers that a history gives out increase. They lie from the counter before the history
on, and before the counter after it. -/
lemma givenIds_increasing {edits : List Edit} (h : s.applyAll edits = .ok s') :
    s.nextId ≤ s'.nextId ∧ ∃ numbers : List ℕ, s.givenIds edits = numbers.map idOf ∧
      numbers.Pairwise (· < ·) ∧ ∀ k ∈ numbers, s.nextId ≤ k ∧ k < s'.nextId := by
  induction edits generalizing s with
  | nil =>
    obtain rfl := Except.ok.inj h
    exact ⟨le_rfl, [], rfl, .nil, by simp⟩
  | cons edit rest ih =>
    cases hedit : s.apply edit with
    | error e => simp [applyAll, hedit] at h
    | ok next =>
      simp only [applyAll, hedit] at h
      obtain ⟨hle, numbers, hgiven, hincreasing, hbounds⟩ := ih h
      have hfresh := s.nextId_le_freshIndex
      simp only [givenIds, hedit]
      rcases given?_of_apply hedit with ⟨hnone, hnext⟩ | ⟨hsome, hnext⟩
      · rw [hnone, hgiven, ← hnext]
        exact ⟨hle, numbers, rfl, hincreasing, hbounds⟩
      · rw [hsome, hgiven]
        refine ⟨by omega, s.freshIndex :: numbers, rfl, ?_, ?_⟩
        · refine List.pairwise_cons.2 ⟨fun k hk => ?_, hincreasing⟩
          have := (hbounds k hk).1
          omega
        · refine List.forall_mem_cons.2 ⟨⟨hfresh, by omega⟩, fun k hk => ?_⟩
          have := hbounds k hk
          omega

/-- After every history, from whatever graph, a new node gets the least number from the counter
on whose id is free. The search for it tries at most one number more than there are nodes. The
numbers that the history gave out increase, and neither a node nor the history has the new id. -/
theorem add_fresh_of_applyAll (g : Graph) (registry : Registry) (edits : List Edit) (s : Store)
    (h : (ofGraph g registry).applyAll edits = .ok s) :
    (∃ numbers : List ℕ, (ofGraph g registry).givenIds edits = numbers.map idOf ∧
      numbers.Pairwise (· < ·) ∧ ∀ k ∈ numbers, k < s.nextId) ∧
    ∀ template parameters position s' n, s.add template parameters position = .ok (s', n) →
      (∃ k, IsLeast (freeFrom s.graph s.nextId) k ∧ n.id = idOf k ∧ s'.nextId = k + 1 ∧
        ∃ tried ≤ s.graph.nodes.length + 1, Search s.graph s.nextId tried k) ∧
      s'.graph.nodes = s.graph.nodes ++ [n] ∧ n.id ∉ s.graph.nodes.map (·.id) ∧
      n.id ∉ (ofGraph g registry).givenIds edits := by
  obtain ⟨-, numbers, hgiven, hincreasing, hbounds⟩ := givenIds_increasing h
  refine ⟨⟨numbers, hgiven, hincreasing, fun k hk => (hbounds k hk).2⟩, ?_⟩
  intro template parameters position s' n hadd
  obtain ⟨hid, hgraph, hnext⟩ := add_eq_ok hadd
  have hle := s.nextId_le_freshIndex
  have hbound := s.freshIndex_le
  refine ⟨⟨s.freshIndex, s.isLeast_freshIndex, hid, hnext, s.freshIndex + 1 - s.nextId, by omega,
    search_iff.2 ⟨s.isLeast_freshIndex, by omega⟩⟩, by rw [hgraph], ?_, ?_⟩
  · rw [hid]
    exact s.idOf_freshIndex_notMem
  · rw [hid, hgiven]
    intro hmem
    obtain ⟨k, hk, hsame⟩ := List.mem_map.1 hmem
    have := (hbounds k hk).2
    have := idOf_injective hsame
    omega

/-- Two nodes whose ids have numbers, though no store gave them. -/
def numbered : Graph where
  nodes := [⟨"node_1", default, .continueIf default⟩, ⟨"node_3", default, .continueIf default⟩]
  edges := []

/-- Of two nodes that are added, the second is removed again. -/
def turnover : List Edit :=
  [.add .continueIf .empty default, .add .conditional .empty default, .remove "node_2"]

/-- The next node does not get the id of the removed one, and passes over one that is taken. -/
theorem add_fresh_of_applyAll_turnover : ∃ s s' n,
    (ofGraph numbered .empty).applyAll turnover = .ok s ∧
      s.add .assignment .empty default = .ok (s', n) ∧ s.nextId = 3 ∧
      s.graph.nodes.map (·.id) = ["node_1", "node_3", "node_0"] ∧
      (ofGraph numbered .empty).givenIds turnover = ["node_0", "node_2"] ∧
      n.id = "node_4" ∧ s'.nextId = 5 ∧ IsLeast (freeFrom s.graph 3) 4 ∧
      (∃ tried ≤ 4, Search s.graph 3 tried 4) ∧
      n.id ∉ (ofGraph numbered .empty).givenIds turnover := by
  have hview : ((ofGraph numbered .empty).applyAll turnover).toOption.map
      (fun s => (s.nextId, s.graph.nodes.map (·.id),
        (s.add .assignment .empty default).toOption.map fun added => added.2.id)) =
      some (3, ["node_1", "node_3", "node_0"], some "node_4") := by cbv
  have hgiven : (ofGraph numbered .empty).givenIds turnover = ["node_0", "node_2"] := by cbv
  obtain ⟨s, hs, hparts⟩ := exists_ok_of_map hview
  obtain ⟨hnext, hrest⟩ := Prod.mk.inj hparts
  obtain ⟨hids, hadded⟩ := Prod.mk.inj hrest
  obtain ⟨⟨s', n⟩, hadd, hid⟩ := exists_ok_of_map hadded
  have hid : n.id = idOf 4 := hid
  obtain ⟨-, hfresh⟩ := add_fresh_of_applyAll numbered .empty turnover s hs
  obtain ⟨⟨k, hleast, hk, hcounter, tried, htried, hsearch⟩, -, -, hnew⟩ :=
    hfresh .assignment .empty default s' n hadd
  obtain rfl : k = 4 := idOf_injective (hk.symm.trans hid)
  have hlength : s.graph.nodes.length = 3 := by
    rw [← List.length_map, hids]
    rfl
  rw [hnext] at hleast hsearch
  rw [hlength] at htried
  exact ⟨s, s', n, hs, hadd, hnext, hids, hgiven, hid, hcounter, hleast, ⟨tried, htried, hsearch⟩,
    hnew⟩

end ScriptGraph.Store
