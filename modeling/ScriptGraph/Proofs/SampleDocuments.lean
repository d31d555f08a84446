import ScriptGraph.Proofs.EditHistories
import ScriptGraph.Sample.Generator

/-!
# What sample documents are made of

Whatever the choices, a sample document grows by two steps: a node is put below a node that is
already there, or an edge is drawn back from a node to itself or to one before it. What both
steps keep is a structure of its own, and the choices are looked into only to see that there are
no other steps.
-/
namespace ScriptGraph

/-- The body calls only functions that are registered, and, unless it is a trigger, only such that
have parameters. An assignment has a call. -/
structure Body.Complete (r : Registry) (body : Body) : Prop where
  registered : ∀ call, body.call? = some call → ∃ schema,
    r.lookup? call.function = some schema ∧ (body.variant ≠ .timing → schema.parameters ≠ [])
  embedded : ∀ slot, body ≠ .assignment slot none

namespace Sample

open Document (NodeEntry)
open Store (idOf)

section Draws

variable {α β : Type}

/-- The result has the property, whatever the choices and however many were made before. -/
def Yields (d : Draw α) (P : α → Prop) : Prop := ∀ choices drawn, P (d.run choices drawn).1

lemma yields_pure {a : α} {P : α → Prop} (h : P a) : Yields (pure a) P := fun _ _ => h

lemma yields_any (d : Draw α) : Yields d fun _ => True := fun _ _ => trivial

lemma Yields.mono {d : Draw α} {P Q : α → Prop} (h : Yields d P) (hPQ : ∀ a, P a → Q a) :
    Yields d Q :=
  fun choices drawn => hPQ _ (h choices drawn)

lemma Yields.bind {d : Draw α} {f : α → Draw β} {P : α → Prop} {Q : β → Prop} (h : Yields d P)
    (hf : ∀ a, P a → Yields (f a) Q) : Yields (d >>= f) Q :=
  fun choices drawn => hf _ (h choices drawn) choices _

lemma yields_below {bound : ℕ} (h : 0 < bound) : Yields (below bound) (· < bound) :=
  fun _ _ => Nat.mod_lt _ h

lemma yields_pick [Inhabited α] {xs : List α} (h : xs ≠ []) : Yields (pick xs) (· ∈ xs) := by
  refine (yields_below (List.length_pos_iff.2 h)).bind fun k hk => yields_pure ?_
  rw [List.getD_eq_getElem _ _ hk]
  exact List.getElem_mem hk

end Draws

/-- The built-in functions that sample nodes call are found by name. Those of no trigger have
parameters. -/
lemma builtIn_ofCategory : ∀ category ∈ [Category.timing, .valueAcquisition, .consequence],
    Registry.builtIn.ofCategory category ≠ [] ∧
      ∀ schema ∈ Registry.builtIn.ofCategory category,
        Registry.builtIn.lookup? schema.name = some schema ∧
          (category ≠ .timing → schema.parameters ≠ []) := by
  decide +kernel

/-- The category of the functions that nodes of a variant call. -/
def categoryOf? : Variant → Option Category
  | .timing => some .timing
  | .valueAcquisition => some .valueAcquisition
  | .consequence => some .consequence
  | _ => none

/-- The entry becomes a node that lacks nothing. -/
def Ready (e : NodeEntry) : Prop := ∃ n, e.toNode = .ok n ∧ n.body.Complete .builtIn

/-- The entry has the call of a built-in function, which has parameters unless the entry is a
trigger. -/
def Calls (e : NodeEntry) : Prop :=
  ∃ call schema, e.call = .ok call ∧ Registry.builtIn.lookup? call.function = some schema ∧
    (e.variant ≠ .timing → schema.parameters ≠ [])

/-- A call is all that a node needs whose variant calls a function itself. -/
lemma Calls.ready {e : NodeEntry} (h : Calls e) (hv : (categoryOf? e.variant).isSome) :
    Ready e := by
  obtain ⟨call, schema, hcall, hlookup, hparameters⟩ := h
  obtain ⟨body, hbody, hcall', hvariant, hembedded⟩ : ∃ body, e.body = .ok body ∧
      body.call? = some call ∧ body.variant = e.variant ∧ ∀ slot, body ≠ .assignment slot none := by
    cases he : e.variant with
    | timing =>
      exact ⟨.timing call, by simp [NodeEntry.body, he, hcall, Except.map], rfl, rfl, by simp⟩
    | valueAcquisition =>
      exact ⟨.valueAcquisition call, by simp [NodeEntry.body, he, hcall, Except.map], rfl, rfl,
        by simp⟩
    | consequence =>
      exact ⟨.consequence call, by simp [NodeEntry.body, he, hcall, Except.map], rfl, rfl, by simp⟩
    | _ => simp [he, categoryOf?] at hv
  refine ⟨⟨e.id, e.position, body⟩, by simp [NodeEntry.toNode, hbody, Except.map], ?_, hembedded⟩
  intro call' hsame
  obtain rfl := Option.some.inj (hcall'.symm.trans hsame)
  exact ⟨schema, hlookup, fun hne => hparameters (hvariant ▸ hne)⟩

lemma yields_functionNode (id : NodeId) {variant : Variant} {category : Category}
    (h : categoryOf? variant = some category) :
    Yields (functionNode id variant category) fun e =>
      e.id = id ∧ e.variant = variant ∧ Calls e := by
  have hcategory : category ∈ [Category.timing, .valueAcquisition, .consequence] ∧
      (variant ≠ .timing → category ≠ .timing) := by
    cases variant <;> simp [categoryOf?] at h <;> simp [← h]
  obtain ⟨hne, hschemas⟩ := builtIn_ofCategory category hcategory.1
  refine (yields_pick hne).bind fun schema hschema => ?_
  refine (yields_any _).bind fun values _ => ?_
  refine (yields_any _).bind fun x _ => (yields_any _).bind fun y _ => ?_
  obtain ⟨hlookup, hparameters⟩ := hschemas schema hschema
  exact yields_pure ⟨rfl, rfl, _, schema, rfl, hlookup, fun hv => hparameters (hcategory.2 hv)⟩

lemma yields_callingNode (id : NodeId) {variant : Variant} {category : Category}
    (h : categoryOf? variant = some category) :
    Yields (functionNode id variant category) fun e =>
      e.id = id ∧ e.variant = variant ∧ Ready e := by
  refine (yields_functionNode id h).mono ?_
  rintro e ⟨hid, hv, hcalls⟩
  exact ⟨hid, hv, hcalls.ready (by simp [hv, h])⟩

lemma yields_conditionNode (id : NodeId) {variant : Variant}
    (h : variant = .conditional ∨ variant = .continueIf) :
    Yields (conditionNode id variant) fun e => e.id = id ∧ e.variant = variant ∧ Ready e := by
  refine (yields_any _).bind fun count _ => (yields_any _).bind fun terms _ => ?_
  refine (yields_any _).bind fun logic _ => yields_pure ⟨rfl, rfl, ?_⟩
  rcases h with rfl | rfl
  · exact ⟨_, rfl, ⟨by simp [Body.call?], by simp⟩⟩
  · exact ⟨_, rfl, ⟨by simp [Body.call?], by simp⟩⟩

lemma yields_assignmentNode (id : NodeId) :
    Yields (assignmentNode id) fun e => e.id = id ∧ e.variant = .assignment ∧ Ready e := by
  refine (yields_functionNode _ rfl).bind fun inner hinner => ?_
  refine (yields_any _).bind fun slot _ => yields_pure ⟨rfl, rfl, ?_⟩
  obtain ⟨-, hv, call, schema, hcall, hlookup, hparameters⟩ := hinner
  refine ⟨⟨id, default, .assignment (some slot) (some ⟨inner.id, call⟩)⟩, ?_, ⟨?_, by simp⟩⟩
  · simp [NodeEntry.toNode, NodeEntry.body, NodeEntry.embeddedCall, hv, hcall, Except.map]
  · rintro _ ⟨⟩
    exact ⟨schema, hlookup, fun _ => hparameters (by simp [hv])⟩

/-- Of the variant of a node it matters here only that it is no trigger. -/
lemma Yields.noTrigger {d : Draw NodeEntry} {id : NodeId} {variant : Variant}
    (h : Yields d fun e => e.id = id ∧ e.variant = variant ∧ Ready e) (hv : variant ≠ .timing) :
    Yields d fun e => e.id = id ∧ e.variant ≠ .timing ∧ Ready e := by
  refine h.mono ?_
  rintro e ⟨hid, rfl, hready⟩
  exact ⟨hid, hv, hready⟩

lemma yields_anyNode (id : NodeId) :
    Yields (anyNode id) fun e => e.id = id ∧ e.variant ≠ .timing ∧ Ready e := by
  refine (yields_any _).bind fun kind _ => ?_
  split
  · exact (yields_callingNode id rfl).noTrigger (by simp)
  · exact (yields_conditionNode id (.inl rfl)).noTrigger (by simp)
  · exact (yields_conditionNode id (.inr rfl)).noTrigger (by simp)
  · exact (yields_assignmentNode id).noTrigger (by simp)
  · exact (yields_callingNode id rfl).noTrigger (by simp)

lemma yields_edge (source target : NodeEntry) :
    Yields (edge source target) fun e => ∃ handle ∈ source.variant.outputs,
      e = ⟨source.id, handle, target.id, .input⟩ := by
  have hne : source.variant.outputs ≠ [] := by
    cases source.variant <;> simp [Variant.outputs]
  exact (yields_pick hne).bind fun handle hhandle => yields_pure ⟨handle, hhandle, rfl⟩

/-- The edge joins an output of one of the entries to the input of another. -/
def Joins (entries : List NodeEntry) (e : Edge) : Prop :=
  ∃ source ∈ entries, ∃ target ∈ entries, target.variant ≠ .timing ∧
    ∃ handle ∈ source.variant.outputs, e = ⟨source.id, handle, target.id, .input⟩

lemma Joins.mono {entries more : List NodeEntry} {e : Edge} (h : Joins entries e)
    (hsub : entries ⊆ more) : Joins more e := by
  obtain ⟨source, hsource, target, htarget, hrest⟩ := h
  exact ⟨source, hsub hsource, target, hsub htarget, hrest⟩

/-- A document in the making: a trigger, the nodes below it, an edge into each of these from a
node before it, and edges back. -/
structure Grown where
  entry : NodeEntry
  rest : List NodeEntry
  tree : List Edge
  back : List Edge
  ids : (entry :: rest).map (·.id) = (List.range (rest.length + 1)).map idOf
  ready : ∀ e ∈ entry :: rest, Ready e
  entry_variant : entry.variant = .timing
  rest_variant : ∀ e ∈ rest, e.variant ≠ .timing
  targets : tree.map (·.target) = rest.map (·.id)
  ascending : ∀ e ∈ tree, ∃ i j, i < j ∧ e.source = idOf i ∧ e.target = idOf j
  descending : ∀ e ∈ back, ∃ i j, j ≤ i ∧ e.source = idOf i ∧ e.target = idOf j
  joins : ∀ e ∈ tree ++ back, Joins (entry :: rest) e

namespace Grown

def document (s : Grown) : Document := ⟨s.entry :: s.rest, s.tree ++ s.back⟩

/-- The trigger alone. -/
def root (entry : NodeEntry) (hid : entry.id = idOf 0) (hv : entry.variant = .timing)
    (hready : Ready entry) : Grown where
  entry := entry
  rest := []
  tree := []
  back := []
  ids := by simp [hid]
  ready := by simpa using hready
  entry_variant := hv
  rest_variant := by simp
  targets := rfl
  ascending := by simp
  descending := by simp
  joins := by simp

variable (s : Grown)

lemma exists_index {e : NodeEntry} (he : e ∈ s.entry :: s.rest) :
    ∃ i < s.rest.length + 1, e.id = idOf i := by
  have hmem : e.id ∈ (List.range (s.rest.length + 1)).map idOf := s.ids ▸ List.mem_map_of_mem he
  obtain ⟨i, hi, hid⟩ := List.mem_map.1 hmem
  exact ⟨i, List.mem_range.1 hi, hid.symm⟩

lemma id_rest {i : ℕ} (hi : i < s.rest.length) : s.rest[i].id = idOf (i + 1) := by
  have hat := congrArg (·[i + 1]?) s.ids
  simpa [hi] using hat

/-- A node more, below one that is there. -/
def grow (node parent : NodeEntry) (handle : Handle) (hid : node.id = idOf (s.rest.length + 1))
    (hv : node.variant ≠ .timing) (hready : Ready node) (hparent : parent ∈ s.entry :: s.rest)
    (hhandle : handle ∈ parent.variant.outputs) : Grown where
  entry := s.entry
  rest := s.rest ++ [node]
  tree := s.tree ++ [⟨parent.id, handle, node.id, .input⟩]
  back := s.back
  ids := by
    rw [← List.cons_append, List.map_append, s.ids]
    simp [List.range_succ, hid]
  ready := by
    rw [← List.cons_append]
    exact List.forall_mem_append.2 ⟨s.ready, by simpa using hready⟩
  entry_variant := s.entry_variant
  rest_variant := List.forall_mem_append.2 ⟨s.rest_variant, by simpa using hv⟩
  targets := by rw [List.map_append, s.targets, List.map_append]; rfl
  ascending := by
    refine List.forall_mem_append.2 ⟨s.ascending, ?_⟩
    obtain ⟨i, hi, hsource⟩ := s.exists_index hparent
    simpa using ⟨i, s.rest.length + 1, hi, hsource, hid⟩
  descending := s.descending
  joins := by
    have hsub : s.entry :: s.rest ⊆ s.entry :: (s.rest ++ [node]) :=
      List.cons_subset_cons _ (List.subset_append_left _ _)
    obtain ⟨htree, hback⟩ := List.forall_mem_append.1 s.joins
    have hnew : Joins (s.entry :: (s.rest ++ [node])) ⟨parent.id, handle, node.id, .input⟩ :=
      ⟨parent, hsub hparent, node, by simp, hv, handle, hhandle, rfl⟩
    refine List.forall_mem_append.2 ⟨List.forall_mem_append.2 ⟨?_, by simpa using hnew⟩, ?_⟩
    · exact fun e he => (htree e he).mono hsub
    · exact fun e he => (hback e he).mono hsub

/-- An edge more, from a node back to itself or to one before it. -/
def turnBack {i j : ℕ} (hi : i < s.rest.length) (hj : j ≤ i) (handle : Handle)
    (hhandle : handle ∈ s.rest[i].variant.outputs) : Grown where
  entry := s.entry
  rest := s.rest
  tree := s.tree
  back := s.back ++ [⟨s.rest[i].id, handle, s.rest[j].id, .input⟩]
  ids := s.ids
  ready := s.ready
  entry_variant := s.entry_variant
  rest_variant := s.rest_variant
  targets := s.targets
  ascending := s.ascending
  descending := by
    refine List.forall_mem_append.2 ⟨s.descending, ?_⟩
    simpa using ⟨i + 1, j + 1, by omega, s.id_rest hi, s.id_rest (by omega)⟩
  joins := by
    rw [← List.append_assoc]
    refine List.forall_mem_append.2 ⟨s.joins, ?_⟩
    have hmem : ∀ {k} (hk : k < s.rest.length), s.rest[k] ∈ s.entry :: s.rest :=
      fun hk => List.mem_cons_of_mem _ (List.getElem_mem hk)
    have hnew : Joins (s.entry :: s.rest) ⟨s.rest[i].id, handle, s.rest[j].id, .input⟩ :=
      ⟨s.rest[i], hmem hi, s.rest[j], hmem (by omega), s.rest_variant _ (List.getElem_mem _),
        handle, hhandle, rfl⟩
    simpa using hnew

end Grown

lemma yields_addNodes (n : ℕ) (s : Grown) (hback : s.back = []) :
    Yields (addNodes n s.document) fun d => ∃ s' : Grown, s'.document = d ∧
      s'.rest.length = s.rest.length + n ∧ s'.back = [] := by
  induction n generalizing s with
  | zero => exact yields_pure ⟨s, rfl, rfl, hback⟩
  | succ n ih =>
    refine (yields_anyNode _).bind fun node hnode => ?_
    obtain ⟨hid, hv, hready⟩ := hnode
    refine (yields_pick (List.cons_ne_nil _ _)).bind fun parent hparent => ?_
    refine (yields_edge parent node).bind fun e he => ?_
    obtain ⟨handle, hhandle, rfl⟩ := he
    set s' := s.grow node parent handle hid hv hready hparent hhandle
    have hsame : s'.document = ⟨s.document.nodes ++ [node],
        s.document.edges ++ [⟨parent.id, handle, node.id, .input⟩]⟩ := by
      simp [Grown.document, s', Grown.grow, hback]
    rw [← hsame]
    have hmore : s'.rest.length = s.rest.length + 1 := List.length_append
    refine (ih s' hback).mono ?_
    rintro d ⟨t, ht, hlength, htback⟩
    exact ⟨t, ht, by omega, htback⟩

lemma yields_addBackEdges (n : ℕ) (s : Grown) (hn : n ≤ s.rest.length) :
    Yields (addBackEdges n s.document) fun d => ∃ s' : Grown, s'.document = d ∧
      s'.rest.length = s.rest.length ∧ s'.back.length = s.back.length + n := by
  induction n generalizing s with
  | zero => exact yields_pure ⟨s, rfl, rfl, rfl⟩
  | succ n ih =>
    have hlength : s.document.nodes.length - 1 = s.rest.length := rfl
    refine (yields_below (by omega)).bind fun i hi => ?_
    refine (yields_below (Nat.succ_pos i)).bind fun j hj => ?_
    have hi : i < s.rest.length := hi
    have hat : ∀ {k} (hk : k < s.rest.length),
        s.document.nodes.getD (k + 1) default = s.rest[k] :=
      fun hk => by simp [Grown.document, hk]
    rw [hat hi, hat (show j < s.rest.length by omega)]
    refine (yields_edge _ _).bind fun e he => ?_
    obtain ⟨handle, hhandle, rfl⟩ := he
    set s' := s.turnBack hi (Nat.le_of_lt_succ hj) handle hhandle
    have hsame : s'.document = ⟨s.document.nodes, s.document.edges ++
        [⟨s.rest[i].id, handle, s.rest[j].id, .input⟩]⟩ := by
      simp [Grown.document, s', Grown.turnBack]
    rw [← hsame]
    have hmore : s'.back.length = s.back.length + 1 := List.length_append
    refine (ih s' (Nat.le_of_succ_le hn)).mono ?_
    rintro d ⟨t, ht, hrest, hback⟩
    exact ⟨t, ht, hrest, by omega⟩

/-- Every sample document is grown, with as many nodes and back edges as were asked for. -/
theorem yields_document (nodes cycles : ℕ) :
    Yields (document nodes cycles) fun d => ∃ s : Grown, s.document = d ∧
      s.rest.length = nodes ∧ s.back.length = min cycles nodes := by
  refine (yields_callingNode _ rfl).bind fun entry hentry => ?_
  obtain ⟨hid, hv, hready⟩ := hentry
  refine (yields_addNodes nodes (.root entry hid hv hready) rfl).bind fun tree htree => ?_
  obtain ⟨s, rfl, hlength, hback⟩ := htree
  have hrest : s.rest.length = nodes := hlength.trans (Nat.zero_add nodes)
  refine (yields_addBackEdges _ s (hrest ▸ Nat.min_le_right cycles nodes)).mono ?_
  rintro d ⟨t, rfl, htrest, htback⟩
  rw [hback, List.length_nil, zero_add] at htback
  exact ⟨t, rfl, htrest.trans hrest, htback⟩

end Sample

end ScriptGraph
