import ScriptGraph.Function.Catalog
import ScriptGraph.Proofs.Routes
import ScriptGraph.Store.Edit

/-!
# Histories of edits

All that a successful edit can come to is said once, as an outcome. An invariant of stores
is then proved outcome by outcome and holds after every history. Two are: edges connect
handles that their nodes have, whatever graph the history began with; and a store that
began empty is well formed.
-/
namespace ScriptGraph

/-- The registry has the function, in this category. -/
def Registry.Offers (r : Registry) (function : String) (category : Category) : Prop :=
  ∃ schema, r.lookup? function = some schema ∧ schema.category = category

/-- The body of the node with this id calls a function of the category that it needs. A call
inside an assignment moreover has the id that the assignment gives it. -/
def Body.Sanctioned (r : Registry) (id : NodeId) : Body → Prop
  | .timing call => r.Offers call.function .timing
  | .valueAcquisition call => r.Offers call.function .valueAcquisition
  | .consequence call => r.Offers call.function .consequence
  | .conditional _ => True
  | .continueIf _ => True
  | .assignment _ embedded => ∀ inner ∈ embedded,
      r.Offers inner.call.function .valueAcquisition ∧ inner.id = Store.embeddedId id

/-- What every edit of a node keeps. -/
structure Node.Keeps (r : Registry) (n n' : Node) : Prop where
  id_eq : n'.id = n.id
  variant_eq : n'.variant = n.variant
  sanctioned : n.body.Sanctioned r n.id → n'.body.Sanctioned r n'.id

namespace Graph

/-- The variant of the node that an id stands for. -/
def variantOf? (g : Graph) (id : NodeId) : Option Variant := (g.node? id).map Node.variant

/-- The edge leads from an output to an input of existing nodes. -/
def Connectable (g : Graph) (e : Edge) : Prop :=
  ∃ source target, g.variantOf? e.source = some source ∧ g.variantOf? e.target = some target ∧
    source.hasOutput e.sourceHandle ∧ target.acceptsInput e.targetHandle

def Wired (g : Graph) : Prop := ∀ e ∈ g.edges, g.Connectable e

/-- Only the variants of its two ends make an edge connectable. -/
lemma Connectable.mono {g g' : Graph} {e : Edge} (h : g.Connectable e)
    (hends : ∀ id variant, id = e.source ∨ id = e.target → g.variantOf? id = some variant →
      g'.variantOf? id = some variant) : g'.Connectable e := by
  obtain ⟨source, target, hsource, htarget, hhandles⟩ := h
  exact ⟨source, target, hends _ _ (.inl rfl) hsource, hends _ _ (.inr rfl) htarget, hhandles⟩

/-- No edge of a wired graph enters a trigger or an id without a node. -/
lemma Wired.passable {g : Graph} (h : g.Wired) {e : Edge} (he : e ∈ g.edges) :
    g.Passable e.target := by
  obtain ⟨-, target, -, htarget, -, haccepts⟩ := h e he
  obtain ⟨n, hn, rfl⟩ := Option.map_eq_some_iff.1 htarget
  refine ⟨n, hn, fun hv => ?_⟩
  simp [Variant.acceptsInput, hv, Variant.inputs] at haccepts

lemma variantOf?_append {nodes more : List Node} {edges edges' : List Edge} {id : NodeId}
    {variant : Variant} (h : variantOf? ⟨nodes, edges⟩ id = some variant) :
    variantOf? ⟨nodes ++ more, edges'⟩ id = some variant := by
  obtain ⟨n, hn, rfl⟩ := Option.map_eq_some_iff.1 h
  simp only [node?] at hn
  simp [variantOf?, node?, List.find?_append, hn]

lemma variantOf?_replace {before after : List Node} {n n' : Node} {edges : List Edge}
    (hid : n'.id = n.id) (hvariant : n'.variant = n.variant) (id : NodeId) :
    variantOf? ⟨before ++ n' :: after, edges⟩ id =
      variantOf? ⟨before ++ n :: after, edges⟩ id := by
  simp only [variantOf?, node?, List.find?_append, List.find?_cons, hid]
  cases n.id == id <;> cases before.find? (·.id == id) <;> simp [hvariant]

lemma variantOf?_filter {nodes : List Node} {edges edges' : List Edge} {id removed : NodeId}
    (h : id ≠ removed) :
    variantOf? ⟨nodes.filter (·.id != removed), edges'⟩ id = variantOf? ⟨nodes, edges⟩ id :=
  congrArg (Option.map Node.variant) (node?_filter h)

end Graph

/-- The id of the node that an edit changes. The other edits change which nodes and edges there
are. -/
def Edit.revised? : Edit → Option NodeId
  | .setParameters id _ => some id
  | .setCondition id _ => some id
  | .embed id _ _ => some id
  | .bindSlot id _ => some id
  | .move id _ => some id
  | .add .. => none
  | .remove _ => none
  | .connect _ => none
  | .disconnect _ => none

namespace Store

lemma idOf_injective : Function.Injective idOf := fun _ _ h =>
  Nat.repr_inj.1 ((String.append_right_inj _).1 h)

/-- All that a successful edit can come to. -/
inductive EditOutcome (s : Store) : Store → Prop
  | added {position : Position} {body : Body} :
      body.Sanctioned s.registry (idOf s.freshIndex) →
      EditOutcome s ⟨⟨s.graph.nodes ++ [⟨idOf s.freshIndex, position, body⟩], s.graph.edges⟩,
        s.registry, s.freshIndex + 1⟩
  | edited {before after : List Node} {n n' : Node} :
      s.graph.nodes = before ++ n :: after → (∀ m ∈ before, m.id ≠ n.id) →
      n.Keeps s.registry n' →
      EditOutcome s ⟨⟨before ++ n' :: after, s.graph.edges⟩, s.registry, s.nextId⟩
  | removed {id : NodeId} :
      EditOutcome s ⟨⟨s.graph.nodes.filter (·.id != id),
        s.graph.edges.filter fun e => e.source != id && e.target != id⟩, s.registry, s.nextId⟩
  | connected {e : Edge} : s.graph.Connectable e → e ∉ s.graph.edges →
      EditOutcome s ⟨⟨s.graph.nodes, s.graph.edges ++ [e]⟩, s.registry, s.nextId⟩
  | disconnected {e : Edge} :
      EditOutcome s ⟨⟨s.graph.nodes, s.graph.edges.erase e⟩, s.registry, s.nextId⟩

variable {s s' : Store}

lemma templateBody_sanctioned {template : Template} {parameters : Parameters} {body : Body}
    (h : s.templateBody template parameters = .ok body) (id : NodeId) :
    body.Sanctioned s.registry id := by
  cases template with
  | function name =>
    cases hlookup : s.registry.lookup? name with
    | none => simp [templateBody, hlookup] at h
    | some schema =>
      cases hcategory : schema.category <;> simp only [templateBody, hlookup, hcategory] at h <;>
        cases h <;> exact ⟨schema, hlookup, hcategory⟩
  | conditional => cases h; trivial
  | continueIf => cases h; trivial
  | assignment => cases h; simp [Body.Sanctioned]

lemma exists_body_of_add {template : Template} {parameters : Parameters} {position : Position}
    {n : Node} (h : s.add template parameters position = .ok (s', n)) :
    ∃ body, s.templateBody template parameters = .ok body ∧
      n = ⟨idOf s.freshIndex, position, body⟩ ∧
      s' = ⟨⟨s.graph.nodes ++ [n], s.graph.edges⟩, s.registry, s.freshIndex + 1⟩ := by
  cases hbody : s.templateBody template parameters with
  | error e => simp [add, hbody] at h
  | ok body =>
    simp only [add, hbody] at h
    obtain ⟨rfl, rfl⟩ := Prod.mk.inj (Except.ok.inj h)
    exact ⟨body, rfl, rfl, rfl⟩

lemma editFirst_of_eq {id : NodeId} {f : Node → Except EditError Node} {n : Node}
    {rest : List Node} (h : n.id = id) :
    editFirst id f (n :: rest) = (f n).map (· :: rest) := if_pos h

lemma editFirst_of_ne {id : NodeId} {f : Node → Except EditError Node} {n : Node}
    {rest : List Node} (h : n.id ≠ id) :
    editFirst id f (n :: rest) = (editFirst id f rest).map (n :: ·) := if_neg h

/-- An edit of the first node with an id leaves the other nodes as they are. -/
lemma editFirst_eq_ok {id : NodeId} {f : Node → Except EditError Node} {nodes nodes' : List Node}
    (h : editFirst id f nodes = .ok nodes') :
    ∃ before n after n', nodes = before ++ n :: after ∧ (∀ m ∈ before, m.id ≠ id) ∧ n.id = id ∧
      f n = .ok n' ∧ nodes' = before ++ n' :: after := by
  induction nodes generalizing nodes' with
  | nil => simp [editFirst] at h
  | cons m rest ih =>
    by_cases hid : m.id = id
    · rw [editFirst_of_eq hid] at h
      obtain ⟨m', hf, rfl⟩ := exists_of_map_eq_ok h
      exact ⟨[], m, rest, m', rfl, by simp, hid, hf, rfl⟩
    · rw [editFirst_of_ne hid] at h
      obtain ⟨rest', hrest, rfl⟩ := exists_of_map_eq_ok h
      obtain ⟨before, n, after, n', rfl, hbefore, hn, hf, rfl⟩ := ih hrest
      exact ⟨m :: before, n, after, n', rfl, List.forall_mem_cons.2 ⟨hid, hbefore⟩, hn, hf, rfl⟩

lemma editNode_outcome {id : NodeId} {f : Node → Except EditError Node}
    (hkeeps : ∀ n n', n.id = id → f n = .ok n' → n.Keeps s.registry n')
    (h : s.editNode id f = .ok s') : s.EditOutcome s' := by
  obtain ⟨nodes', hfirst, rfl⟩ := exists_of_map_eq_ok h
  obtain ⟨before, n, after, n', hnodes, hbefore, rfl, hf, rfl⟩ := editFirst_eq_ok hfirst
  exact .edited hnodes hbefore (hkeeps n n' rfl hf)

/-- What an edit of a node is in every store with the registry: it is refused whatever the nodes
are, or it changes the first node with the id in a way that depends on this node only. -/
inductive Revision (registry : Registry) (id : NodeId) (edit : Edit) : Prop
  | refused (error : EditError) :
      (∀ s : Store, s.registry = registry → s.apply edit = .error error) →
      Revision registry id edit
  | changed (f : Node → Except EditError Node) :
      (∀ n n', n.id = id → f n = .ok n' → n.Keeps registry n') →
      (∀ s : Store, s.registry = registry → s.apply edit = s.editNode id f) →
      Revision registry id edit

lemma revision_embed (registry : Registry) (id : NodeId) (function : String)
    (parameters : Parameters) : Revision registry id (.embed id function parameters) := by
  cases hlookup : registry.lookup? function with
  | none =>
    refine .refused (.unknownFunction function) fun s hs => ?_
    simp [apply, embed, hs, hlookup]
  | some schema =>
    by_cases hvalue : schema.isValueProducing
    · have hcategory : schema.category = .valueAcquisition := by
        simpa [Schema.isValueProducing] using hvalue
      refine .changed _ (fun n n' hid hedit => ?_) fun s hs => by
        simp only [apply, embed, hs, hlookup, if_pos hvalue]
        rfl
      -- The embedded id is made from the id that was asked for, which is that of the node.
      obtain ⟨_, position, body⟩ := n
      obtain rfl := hid
      cases body with
      | assignment slot embedded =>
        cases hedit
        exact ⟨rfl, rfl, fun _ => by simpa [Body.Sanctioned] using ⟨schema, hlookup, hcategory⟩⟩
      | _ => cases hedit
    · refine .refused (.notValueProducing function) fun s hs => ?_
      simp [apply, embed, hs, hlookup, hvalue]

lemma revision_of_revised? {edit : Edit} {id : NodeId} (h : edit.revised? = some id)
    (registry : Registry) : Revision registry id edit := by
  cases edit with
  | setParameters _ parameters =>
    obtain rfl := Option.some.inj h
    refine .changed _ (fun n n' _ hedit => ?_) fun s _ => rfl
    obtain ⟨id, position, body⟩ := n
    cases body with
    | assignment slot embedded =>
      cases embedded with
      | none => cases hedit
      | some inner =>
        cases hedit
        exact ⟨rfl, rfl, by simp [Body.Sanctioned]⟩
    | conditional | continueIf => cases hedit
    | timing | valueAcquisition | consequence =>
      cases hedit
      exact ⟨rfl, rfl, fun hcall => hcall⟩
  | setCondition _ condition =>
    obtain rfl := Option.some.inj h
    refine .changed _ (fun n n' _ hedit => ?_) fun s _ => rfl
    obtain ⟨id, position, body⟩ := n
    cases body with
    | conditional | continueIf =>
      cases hedit
      exact ⟨rfl, rfl, fun _ => trivial⟩
    | _ => cases hedit
  | embed _ function parameters =>
    obtain rfl := Option.some.inj h
    exact revision_embed registry _ function parameters
  | bindSlot _ slot =>
    obtain rfl := Option.some.inj h
    refine .changed _ (fun n n' _ hedit => ?_) fun s _ => rfl
    obtain ⟨id, position, body⟩ := n
    cases body with
    | assignment slot embedded =>
      cases hedit
      exact ⟨rfl, rfl, fun hcall => hcall⟩
    | _ => cases hedit
  | move _ position =>
    obtain rfl := Option.some.inj h
    refine .changed _ (fun n n' _ hedit => ?_) fun s _ => rfl
    cases hedit
    exact ⟨rfl, rfl, fun hcall => hcall⟩
  | add | remove | connect | disconnect => cases h

lemma connect_outcome {e : Edge} (h : s.connect e = .ok s') :
    s.graph.Connectable e ∧ e ∉ s.graph.edges ∧
      s' = ⟨⟨s.graph.nodes, s.graph.edges ++ [e]⟩, s.registry, s.nextId⟩ := by
  unfold connect at h
  cases hsource : s.graph.node? e.source with
  | none => simp [hsource] at h
  | some source =>
    cases htarget : s.graph.node? e.target with
    | none => simp [hsource, htarget] at h
    | some target =>
      simp only [hsource, htarget] at h
      split_ifs at h with houtput hinput hmem
      refine ⟨⟨source.variant, target.variant, ?_, ?_, ?_, ?_⟩, hmem, (Except.ok.inj h).symm⟩
      · simp [Graph.variantOf?, hsource]
      · simp [Graph.variantOf?, htarget]
      · simpa using houtput
      · simpa using hinput

theorem apply_outcome {edit : Edit} (h : s.apply edit = .ok s') : s.EditOutcome s' := by
  cases hrevised : edit.revised? with
  | some id =>
    cases revision_of_revised? hrevised s.registry with
    | refused error hrefused => simp [hrefused s rfl] at h
    | changed f hkeeps happly => exact editNode_outcome hkeeps (happly s rfl ▸ h)
  | none =>
    cases edit with
    | add template parameters position =>
      obtain ⟨⟨_, n⟩, hadd, rfl⟩ := exists_of_map_eq_ok h
      obtain ⟨body, hbody, rfl, rfl⟩ := exists_body_of_add hadd
      exact .added (templateBody_sanctioned hbody _)
    | remove id =>
      simp only [apply, remove] at h
      split_ifs at h
      obtain rfl := Except.ok.inj h
      exact .removed
    | connect e =>
      obtain ⟨he, hmem, rfl⟩ := connect_outcome h
      exact .connected he hmem
    | disconnect e =>
      simp only [apply, disconnect] at h
      split_ifs at h
      obtain rfl := Except.ok.inj h
      exact .disconnected
    | setParameters | setCondition | embed | bindSlot | move => cases hrevised

/-- What every outcome keeps is kept by every history. -/
theorem applyAll_induction {P : Store → Prop} (step : ∀ s s', EditOutcome s s' → P s → P s')
    {edits : List Edit} (h : s.applyAll edits = .ok s') (hs : P s) : P s' := by
  induction edits generalizing s with
  | nil => exact Except.ok.inj h ▸ hs
  | cons edit rest ih =>
    cases hedit : s.apply edit with
    | error e => simp [applyAll, hedit] at h
    | ok next =>
      simp only [applyAll, hedit] at h
      exact ih h (step s next (apply_outcome hedit) hs)

lemma EditOutcome.registry_eq (h : s.EditOutcome s') : s'.registry = s.registry := by
  cases h <;> rfl

/-- No edit takes a handle away from under an edge. -/
theorem EditOutcome.wired (h : s.EditOutcome s') (hwired : s.graph.Wired) : s'.graph.Wired := by
  intro e he
  cases h with
  | added _ => exact (hwired e he).mono fun id variant _ hid => Graph.variantOf?_append hid
  | edited hnodes _ hkeeps =>
    refine (hwired e he).mono fun id variant _ hid => ?_
    rw [Graph.variantOf?_replace hkeeps.id_eq hkeeps.variant_eq, ← hnodes]
    exact hid
  | removed =>
    obtain ⟨he, hends⟩ := List.mem_filter.1 he
    simp only [Bool.and_eq_true, bne_iff_ne] at hends
    -- The edges that are left touch other ids only, and those stand for what they did.
    refine (hwired e he).mono fun id variant hid hvariant => ?_
    rw [Graph.variantOf?_filter (by rcases hid with rfl | rfl <;> tauto)]
    exact hvariant
  | connected hconnectable _ =>
    rcases List.mem_append.1 he with he | he
    · exact hwired e he
    · exact List.mem_singleton.1 he ▸ hconnectable
  | disconnected => exact hwired e (List.mem_of_mem_erase he)

/-- Ids are distinct and numbered below the counter, edges are distinct and connect handles
that exist, and calls name functions of the category that their nodes need. -/
structure WellFormed (s : Store) : Prop where
  ids_nodup : (s.graph.nodes.map (·.id)).Nodup
  numbered : ∀ n ∈ s.graph.nodes, ∃ k < s.nextId, n.id = idOf k
  edges_nodup : s.graph.edges.Nodup
  wired : s.graph.Wired
  sanctioned : ∀ n ∈ s.graph.nodes, n.body.Sanctioned s.registry n.id

lemma wellFormed_new (registry : Registry) : (new registry).WellFormed where
  ids_nodup := List.nodup_nil
  numbered := by simp [new, ofGraph, Graph.empty]
  edges_nodup := List.nodup_nil
  wired := by simp [new, ofGraph, Graph.empty, Graph.Wired]
  sanctioned := by simp [new, ofGraph, Graph.empty]

lemma nextId_le_freshIndex (s : Store) : s.nextId ≤ s.freshIndex := Nat.le_add_right _ _

/-- Of one more number than there are nodes, one has an id that no node has. -/
lemma idOf_freshIndex_notMem (s : Store) : idOf s.freshIndex ∉ s.graph.nodes.map (·.id) := by
  intro hmem
  unfold freshIndex at hmem
  dsimp only at hmem
  cases hfind : (List.range s.graph.nodes.length).find?
      fun i => !s.graph.contains (idOf (s.nextId + i)) with
  | some i =>
    have hfree := List.find?_some hfind
    rw [hfind] at hmem
    have hcontains := Graph.contains_iff.2 hmem
    rw [Option.getD_some] at hcontains
    simp [hcontains] at hfree
  | none =>
    rw [hfind] at hmem
    have htaken : ∀ i ∈ List.range s.graph.nodes.length,
        idOf (s.nextId + i) ∈ s.graph.nodes.map (·.id) := by
      intro i hi
      refine Graph.contains_iff.1 ?_
      simpa using List.find?_eq_none.1 hfind i hi
    -- These and the last number make one distinct id too many.
    have hsub : (List.range (s.graph.nodes.length + 1)).map (fun i => idOf (s.nextId + i)) ⊆
        s.graph.nodes.map (·.id) := by
      rw [List.range_succ, List.map_append, List.append_subset]
      exact ⟨List.forall_mem_map.2 htaken, by simpa using hmem⟩
    have hnodup : ((List.range (s.graph.nodes.length + 1)).map
        fun i => idOf (s.nextId + i)).Nodup :=
      List.nodup_range.map fun i j hij => Nat.add_left_cancel (idOf_injective hij)
    have hle := (hnodup.subperm hsub).length_le
    simp at hle

namespace WellFormed

lemma added (h : s.WellFormed) {position : Position} {body : Body}
    (hbody : body.Sanctioned s.registry (idOf s.freshIndex))
    (hwired : Graph.Wired
      ⟨s.graph.nodes ++ [⟨idOf s.freshIndex, position, body⟩], s.graph.edges⟩) :
    WellFormed ⟨⟨s.graph.nodes ++ [⟨idOf s.freshIndex, position, body⟩], s.graph.edges⟩,
      s.registry, s.freshIndex + 1⟩ where
  ids_nodup := by
    rw [List.map_append]
    refine h.ids_nodup.append (List.nodup_singleton _) ?_
    simpa using s.idOf_freshIndex_notMem
  numbered := by
    refine List.forall_mem_append.2 ⟨fun n hn => ?_, by simpa using ⟨_, le_rfl, rfl⟩⟩
    obtain ⟨k, hk, hid⟩ := h.numbered n hn
    exact ⟨k, hk.trans (Nat.lt_succ_of_le s.nextId_le_freshIndex), hid⟩
  edges_nodup := h.edges_nodup
  wired := hwired
  sanctioned := List.forall_mem_append.2 ⟨h.sanctioned, by simpa using hbody⟩

lemma edited (h : s.WellFormed) {before after : List Node} {n n' : Node}
    (hnodes : s.graph.nodes = before ++ n :: after) (hkeeps : n.Keeps s.registry n')
    (hwired : Graph.Wired ⟨before ++ n' :: after, s.graph.edges⟩) :
    WellFormed ⟨⟨before ++ n' :: after, s.graph.edges⟩, s.registry, s.nextId⟩ where
  ids_nodup := by simpa [hnodes, hkeeps.id_eq] using h.ids_nodup
  numbered := by
    have hnumbered := h.numbered
    simp only [hnodes, List.forall_mem_append, List.forall_mem_cons] at hnumbered ⊢
    simpa only [hkeeps.id_eq] using hnumbered
  edges_nodup := h.edges_nodup
  wired := hwired
  sanctioned := by
    have hsanctioned := h.sanctioned
    simp only [hnodes, List.forall_mem_append, List.forall_mem_cons] at hsanctioned ⊢
    obtain ⟨hbefore, hn, hafter⟩ := hsanctioned
    exact ⟨hbefore, hkeeps.sanctioned hn, hafter⟩

/-- No edit spoils a well-formed store. -/
theorem step (h : s.WellFormed) (hout : s.EditOutcome s') : s'.WellFormed := by
  have hwired := hout.wired h.wired
  cases hout with
  | added hbody => exact h.added hbody hwired
  | edited hnodes _ hkeeps => exact h.edited hnodes hkeeps hwired
  | removed =>
    exact ⟨h.ids_nodup.sublist (List.filter_sublist.map _),
      fun n hn => h.numbered n (List.mem_of_mem_filter hn), h.edges_nodup.filter _, hwired,
      fun n hn => h.sanctioned n (List.mem_of_mem_filter hn)⟩
  | connected _ hmem =>
    exact ⟨h.ids_nodup, h.numbered, h.edges_nodup.append (List.nodup_singleton _) (by simpa),
      hwired, h.sanctioned⟩
  | disconnected => exact ⟨h.ids_nodup, h.numbered, h.edges_nodup.erase _, hwired, h.sanctioned⟩

end WellFormed

lemma wellFormed_of_applyAll {registry : Registry} {edits : List Edit}
    (h : (new registry).applyAll edits = .ok s) : s.registry = registry ∧ s.WellFormed :=
  applyAll_induction (P := fun t => t.registry = registry ∧ t.WellFormed)
    (fun _ _ hout ht => ⟨hout.registry_eq.trans ht.1, ht.2.step hout⟩) h
    ⟨rfl, wellFormed_new registry⟩

/-- After every history that began with an empty store, the store is well formed, and no
edge enters a trigger. -/
theorem applyAll_new_wellFormed (registry : Registry) (edits : List Edit) (s : Store)
    (h : (new registry).applyAll edits = .ok s) :
    s.registry = registry ∧ s.WellFormed ∧
      ∀ e ∈ s.graph.edges, ∀ n ∈ s.graph.nodes, n.id = e.target → n.variant ≠ .timing := by
  obtain ⟨hregistry, hs⟩ := wellFormed_of_applyAll h
  refine ⟨hregistry, hs, fun e he n hn hid => ?_⟩
  obtain ⟨m, hm, hvariant⟩ := hs.wired.passable he
  have hn := Graph.node?_of_mem hs.ids_nodup hn
  rw [hid] at hn
  exact Option.some.inj (hn.symm.trans hm) ▸ hvariant

/-- A history with every kind of edit. A node is removed with its edges, and its number is
not used again. -/
def session : List Edit :=
  [.add (.function "OnUseCard") .empty default, .add (.function "damage") .empty default,
    .add .assignment .empty default, .connect ⟨"node_0", .output, "node_2", .input⟩,
    .connect ⟨"node_2", .output, "node_1", .input⟩, .embed "node_2" "gethp" .empty,
    .setParameters "node_2" .empty, .bindSlot "node_2" ⟨.last 9⟩, .move "node_1" default,
    .remove "node_1", .add .conditional .empty default, .setCondition "node_3" {},
    .connect ⟨"node_2", .output, "node_3", .input⟩,
    .connect ⟨"node_3", .whenTrue, "node_2", .input⟩,
    .disconnect ⟨"node_3", .whenTrue, "node_2", .input⟩]

/-- The graph that it leaves. -/
def sessionGraph : Graph where
  nodes := [⟨"node_0", default, .timing ⟨"OnUseCard", .empty⟩⟩,
    ⟨"node_2", default,
      .assignment (some ⟨.last 9⟩) (some ⟨"node_2_embedded", ⟨"gethp", .empty⟩⟩)⟩,
    ⟨"node_3", default, .conditional {}⟩]
  edges := [⟨"node_0", .output, "node_2", .input⟩, ⟨"node_2", .output, "node_3", .input⟩]

theorem applyAll_new_wellFormed_session :
    ∃ s, (new .builtIn).applyAll session = .ok s ∧ s.graph = sessionGraph ∧ s.nextId = 4 ∧
      s.registry = .builtIn ∧ s.WellFormed ∧
      ∀ e ∈ s.graph.edges, ∀ n ∈ s.graph.nodes, n.id = e.target → n.variant ≠ .timing := by
  have hview : ((new .builtIn).applyAll session).toOption.map (fun s => (s.graph, s.nextId)) =
      some (sessionGraph, 4) := by cbv
  obtain ⟨s, hok, hparts⟩ := exists_ok_of_map hview
  obtain ⟨hgraph, hnext⟩ := Prod.mk.inj hparts
  exact ⟨s, hok, hgraph, hnext, applyAll_new_wellFormed .builtIn session s hok⟩

end Store

end ScriptGraph
