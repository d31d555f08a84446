import ScriptGraph.Document.Conversion
import ScriptGraph.Proofs.Routes

/-!
# Plain import

A document becomes a graph exactly if ids are distinct and every entry has what its variant
needs. Its nodes are then the entries in order, and its edges are those of the document, whether
there are nodes at their ends or not. Otherwise the entries are taken one after another up to the
first that is refused, and of that one a repeated id is seen before anything it lacks.
-/
namespace ScriptGraph.Document

namespace NodeEntry

variable {e : NodeEntry} {error : ImportError} {n : Node}

/-- The node calls a function itself. -/
def IsCaller (e : NodeEntry) : Prop :=
  e.variant = .timing ∨ e.variant = .valueAcquisition ∨ e.variant = .consequence

/-- The entry has what its variant needs: the name of a function for a node that calls one, and a
value call that names one inside an assignment, if there is anything inside. -/
structure Complete (e : NodeEntry) : Prop where
  function : e.IsCaller → e.function ≠ none
  embedded : e.variant = .assignment → ∀ inner, e.embedded = some inner →
    inner.variant = .valueAcquisition ∧ inner.function ≠ none

/-- What an entry lacks, and the error for it. Other fields than the one in question have no part
in this. -/
inductive Lacks (e : NodeEntry) : ImportError → Prop
  | function : e.IsCaller → e.function = none → Lacks e (.missingFunction e.id e.variant)
  | embeddedVariant {inner : NodeEntry} : e.variant = .assignment → e.embedded = some inner →
      inner.variant ≠ .valueAcquisition →
      Lacks e (.embeddedVariant e.id inner.id inner.variant)
  | embeddedFunction {inner : NodeEntry} : e.variant = .assignment → e.embedded = some inner →
      inner.variant = .valueAcquisition → inner.function = none →
      Lacks e (.missingFunction inner.id .valueAcquisition)

/-- The node is that of the entry. -/
structure Becomes (e : NodeEntry) (n : Node) : Prop where
  id_eq : n.id = e.id
  variant_eq : n.variant = e.variant
  position_eq : n.position = e.position

lemma toNode_of_lacks (h : e.Lacks error) : e.toNode = .error error := by
  cases h with
  | function hcaller hnone =>
    rcases hcaller with hv | hv | hv <;> simp [toNode, body, hv, call, hnone, Except.map]
  | embeddedVariant hv hembedded hinner =>
    simp [toNode, body, hv, embeddedCall, hembedded, hinner, Except.map]
  | embeddedFunction hv hembedded hinner hnone =>
    simp [toNode, body, hv, embeddedCall, hembedded, hinner, call, hnone, Except.map]

lemma Lacks.not_complete (h : e.Lacks error) : ¬ e.Complete := by
  intro hcomplete
  cases h with
  | function hcaller hnone => exact hcomplete.function hcaller hnone
  | embeddedVariant hv hembedded hinner => exact hinner (hcomplete.embedded hv _ hembedded).1
  | embeddedFunction hv hembedded _ hnone => exact (hcomplete.embedded hv _ hembedded).2 hnone

/-- An entry becomes a node, unless it lacks something. -/
lemma toNode_or_lacks (e : NodeEntry) :
    (e.Complete ∧ ∃ n, e.toNode = .ok n ∧ e.Becomes n) ∨ ∃ error, e.Lacks error := by
  obtain ⟨id, variant, function, position, parameters, slot, embedded, condition⟩ := e
  cases variant with
  | conditional | continueIf =>
    exact .inl ⟨⟨by simp [IsCaller], by simp⟩, _, rfl, rfl, rfl, rfl⟩
  | timing | valueAcquisition | consequence =>
    cases function with
    | none => exact .inr ⟨_, .function (by simp [IsCaller]) rfl⟩
    | some function => exact .inl ⟨⟨by simp, by simp⟩, _, rfl, rfl, rfl, rfl⟩
  | assignment =>
    cases embedded with
    | none => exact .inl ⟨⟨by simp [IsCaller], by simp⟩, _, rfl, rfl, rfl, rfl⟩
    | some inner =>
      by_cases hinner : inner.variant = .valueAcquisition
      · cases hfunction : inner.function with
        | none => exact .inr ⟨_, .embeddedFunction rfl rfl hinner hfunction⟩
        | some function =>
          refine .inl ⟨⟨by simp [IsCaller], by simp [hinner, hfunction]⟩,
            ⟨id, position, .assignment slot (some ⟨inner.id, ⟨function, inner.parameters⟩⟩)⟩, ?_,
            rfl, rfl, rfl⟩
          simp [toNode, body, embeddedCall, call, hinner, hfunction, Except.map]
      · exact .inr ⟨_, .embeddedVariant rfl rfl hinner⟩

lemma toNode_of_complete (h : e.Complete) : ∃ n, e.toNode = .ok n := by
  rcases e.toNode_or_lacks with ⟨-, n, hn, -⟩ | ⟨error, hlacks⟩
  · exact ⟨n, hn⟩
  · exact absurd h hlacks.not_complete

lemma toNode_eq_ok (h : e.toNode = .ok n) : e.Complete ∧ e.Becomes n := by
  rcases e.toNode_or_lacks with ⟨hcomplete, m, hm, hbecomes⟩ | ⟨error, hlacks⟩
  · obtain rfl := Except.ok.inj (hm.symm.trans h)
    exact ⟨hcomplete, hbecomes⟩
  · cases (toNode_of_lacks hlacks).symm.trans h

end NodeEntry

variable {d : Document} {before after entries : List NodeEntry} {e : NodeEntry}
  {error : ImportError} {nodes : List Node}

/-- Ids are distinct, and no entry lacks anything. -/
structure Loadable (entries : List NodeEntry) : Prop where
  ids_nodup : (entries.map (·.id)).Nodup
  complete : ∀ e ∈ entries, e.Complete

/-- Why an entry is refused behind others: because its id is that of one of them, or else for what
it lacks. -/
inductive Refuses (before : List NodeEntry) (e : NodeEntry) : ImportError → Prop
  | repeated : e.id ∈ before.map (·.id) → Refuses before e (.duplicateId e.id)
  | lacking {error : ImportError} : e.id ∉ before.map (·.id) → e.Lacks error →
      Refuses before e error

namespace ImportError

/-- The id of the entry that an error is about. -/
def subject? : ImportError → Option NodeId
  | duplicateId id => some id
  | missingFunction id _ => some id
  | embeddedVariant id _ _ => some id
  | notDocument => none
  | refused _ => none

/-- The id stands in the text of the error. -/
def Names (error : ImportError) (id : NodeId) : Prop :=
  ∃ opening ending, error.message = opening ++ id ++ ending

lemma names_of_subject? {id : NodeId} (h : error.subject? = some id) : error.Names id := by
  unfold Names message
  cases error with
  | duplicateId _ =>
    obtain rfl := Option.some.inj h
    exact ⟨"Duplicate node id '", "'", rfl⟩
  | missingFunction _ variant =>
    obtain rfl := Option.some.inj h
    refine ⟨"Node '", "' is invalid: " ++ variant.text ++ " node requires a functionName", ?_⟩
    simp only [String.append_assoc]
    rfl
  | embeddedVariant _ inner variant =>
    obtain rfl := Option.some.inj h
    refine ⟨"Node '", "' is invalid: embedded node '" ++ inner ++
      "' must be ValueAcquisition, found " ++ variant.text, ?_⟩
    simp only [String.append_assoc]
    rfl
  | notDocument | refused => cases h

end ImportError

/-- An error names the entry, or the call inside it that has no function. -/
lemma Refuses.names (h : Refuses before e error) : error.Names e.id ∨
    ∃ inner, e.embedded = some inner ∧ inner.function = none ∧ error.Names inner.id := by
  cases h with
  | repeated _ => exact .inl (ImportError.names_of_subject? rfl)
  | lacking _ hlacks =>
    cases hlacks with
    | function | embeddedVariant => exact .inl (ImportError.names_of_subject? rfl)
    | @embeddedFunction inner _ hembedded _ hnone =>
      exact .inr ⟨inner, hembedded, hnone, ImportError.names_of_subject? rfl⟩

/-- As long as ids are new and entries become nodes, they are taken over one after another. -/
lemma toNodes_append (seen : List NodeId)
    (h : List.Forall₂ (fun e n => e.toNode = .ok n) entries nodes)
    (hids : (entries.map (·.id) ++ seen).Nodup) (rest : List NodeEntry) :
    toNodes seen (entries ++ rest) =
      (toNodes ((entries.map (·.id)).reverse ++ seen) rest).map (nodes ++ ·) := by
  induction h generalizing seen with
  | nil =>
    simp only [List.nil_append, List.map_nil, List.reverse_nil]
    cases toNodes seen rest <;> rfl
  | @cons e n entries nodes hn _ ih =>
    have hnew : e.id ∉ seen := fun hmem =>
      (List.nodup_cons.1 hids).1 (List.mem_append_right _ hmem)
    have hrest : (entries.map (·.id) ++ e.id :: seen).Nodup := List.perm_middle.nodup_iff.2 hids
    rw [List.cons_append, toNodes, if_neg hnew, hn]
    simp only [ih _ hrest, List.map_cons, List.reverse_cons, List.append_assoc,
      List.singleton_append]
    cases toNodes _ rest <;> rfl

lemma Loadable.exists_nodes (h : Loadable entries) :
    ∃ nodes, List.Forall₂ (fun e n => e.toNode = .ok n) entries nodes := by
  obtain ⟨-, hcomplete⟩ := h
  induction entries with
  | nil => exact ⟨[], .nil⟩
  | cons e rest ih =>
    obtain ⟨he, hrest⟩ := List.forall_mem_cons.1 hcomplete
    obtain ⟨n, hn⟩ := NodeEntry.toNode_of_complete he
    obtain ⟨nodes, hnodes⟩ := ih hrest
    exact ⟨n :: nodes, .cons hn hnodes⟩

lemma toGraph_of_forall₂ (h : List.Forall₂ (fun e n => e.toNode = .ok n) d.nodes nodes)
    (hids : (d.nodes.map (·.id)).Nodup) : d.toGraph = .ok ⟨nodes, d.edges⟩ := by
  have hnodes := toNodes_append [] h (by simpa using hids) []
  simp only [List.append_nil, toNodes, Except.map] at hnodes
  rw [toGraph, hnodes]
  rfl

/-- The entries before are taken over, so that their ids are what a repeated id is compared with. -/
lemma toGraph_of_refuses (hnodes : d.nodes = before ++ e :: after) (hbefore : Loadable before)
    (h : Refuses before e error) : d.toGraph = .error error := by
  obtain ⟨nodes, hloads⟩ := hbefore.exists_nodes
  rw [toGraph, hnodes, toNodes_append [] hloads (by simpa using hbefore.ids_nodup), toNodes]
  cases h with
  | repeated hmem =>
    rw [if_pos (by simpa using hmem)]
    rfl
  | lacking hnew hlacks =>
    rw [if_neg (by simpa using hnew), NodeEntry.toNode_of_lacks hlacks]
    rfl

/-- Of entries that cannot all be loaded, one is the first to be refused. -/
lemma loadable_or_refuses (entries : List NodeEntry) : Loadable entries ∨
    ∃ before e after error, entries = before ++ e :: after ∧ Loadable before ∧
      Refuses before e error := by
  induction entries using List.reverseRecOn with
  | nil => exact .inl ⟨List.nodup_nil, List.forall_mem_nil _⟩
  | append_singleton entries e ih =>
    rcases ih with hloadable | ⟨before, first, after, error, rfl, hbefore, hfirst⟩
    · by_cases hmem : e.id ∈ entries.map (·.id)
      · exact .inr ⟨entries, e, [], _, rfl, hloadable, .repeated hmem⟩
      rcases e.toNode_or_lacks with ⟨hcomplete, -⟩ | ⟨error, hlacks⟩
      · refine .inl ⟨?_, List.forall_mem_append.2 ⟨hloadable.complete, by simpa using hcomplete⟩⟩
        rw [List.map_append]
        exact hloadable.ids_nodup.append (List.nodup_singleton _) (by simpa using hmem)
      · exact .inr ⟨entries, e, [], error, rfl, hloadable, .lacking hmem hlacks⟩
    · exact .inr ⟨before, first, after ++ [e], error, by simp, hbefore, hfirst⟩

lemma of_toGraph {g : Graph} (h : d.toGraph = .ok g) : Loadable d.nodes ∧
    List.Forall₂ NodeEntry.Becomes d.nodes g.nodes ∧ g.edges = d.edges := by
  rcases loadable_or_refuses d.nodes with hloadable |
    ⟨before, e, after, error, hnodes, hbefore, hrefuses⟩
  · obtain ⟨nodes, hloads⟩ := hloadable.exists_nodes
    obtain rfl := Except.ok.inj ((toGraph_of_forall₂ hloads hloadable.ids_nodup).symm.trans h)
    exact ⟨hloadable, hloads.imp fun e n hn => (NodeEntry.toNode_eq_ok hn).2, rfl⟩
  · cases (toGraph_of_refuses hnodes hbefore hrefuses).symm.trans h

/-- A document becomes a graph exactly if its ids are distinct and its entries lack nothing. The
graph has a node for each entry, in order, and the edges of the document as they are. Otherwise
the first entry that is refused gives the error: for its repeated id, or else for what it lacks.
The error names that entry, or the call inside it that has no function. -/
theorem toGraph_permissive (d : Document) :
    ((∃ g, d.toGraph = .ok g) ↔ Loadable d.nodes) ∧
    (∀ g, d.toGraph = .ok g →
      List.Forall₂ NodeEntry.Becomes d.nodes g.nodes ∧ g.edges = d.edges) ∧
    (∀ before e after error, d.nodes = before ++ e :: after → Loadable before →
      Refuses before e error → d.toGraph = .error error) ∧
    ∀ error, d.toGraph = .error error → ∃ before e after,
      d.nodes = before ++ e :: after ∧ Loadable before ∧ Refuses before e error ∧
        (error.Names e.id ∨
          ∃ inner, e.embedded = some inner ∧ inner.function = none ∧ error.Names inner.id) := by
  refine ⟨⟨fun ⟨g, hg⟩ => (of_toGraph hg).1, fun h => ?_⟩, fun g hg => (of_toGraph hg).2,
    fun before e after error hnodes hbefore h => toGraph_of_refuses hnodes hbefore h,
    fun error herror => ?_⟩
  · obtain ⟨nodes, hloads⟩ := h.exists_nodes
    exact ⟨_, toGraph_of_forall₂ hloads h.ids_nodup⟩
  · rcases loadable_or_refuses d.nodes with h |
      ⟨before, e, after, error', hnodes, hbefore, hrefuses⟩
    · obtain ⟨nodes, hloads⟩ := h.exists_nodes
      cases (toGraph_of_forall₂ hloads h.ids_nodup).symm.trans herror
    · have hsame := (toGraph_of_refuses hnodes hbefore hrefuses).symm.trans herror
      obtain rfl := Except.error.inj hsame
      exact ⟨before, e, after, hnodes, hbefore, hrefuses, hrefuses.names⟩

/-- A value call without a function. -/
def idle : NodeEntry := { id := "idle", variant := .valueAcquisition }

/-- A document with a value call inside an assignment, an idle one inside a node that has no use
for it, and an edge to no node. -/
def patchwork : Document where
  nodes := [{ id := "start", variant := .timing, function := some "Begin" },
    { id := "keep", variant := .assignment,
      embedded := some { id := "look", variant := .valueAcquisition, function := some "Look" } },
    { id := "ask", variant := .conditional, embedded := some idle }]
  edges := [⟨"start", .output, "gone", .input⟩]

/-- An entry with an id that stands there already, and without a function. -/
def echo : NodeEntry := { id := "start", variant := .consequence }

/-- An assignment of an idle call. -/
def hollow : NodeEntry := { id := "hold", variant := .assignment, embedded := some idle }

/-- It becomes a graph, but not with either entry behind its own. Of the first the repeated id is
seen before the missing function. -/
theorem toGraph_permissive_patchwork :
    (∃ g, patchwork.toGraph = .ok g ∧ Loadable patchwork.nodes ∧
      List.Forall₂ NodeEntry.Becomes patchwork.nodes g.nodes ∧ g.edges = patchwork.edges) ∧
    toGraph ⟨patchwork.nodes ++ [echo], []⟩ = .error (.duplicateId "start") ∧
    toGraph ⟨patchwork.nodes ++ [hollow], []⟩ =
      .error (.missingFunction "idle" .valueAcquisition) := by
  obtain ⟨g, hg⟩ : ∃ g, patchwork.toGraph = .ok g := ⟨_, rfl⟩
  obtain ⟨hiff, hgraph, -⟩ := toGraph_permissive patchwork
  have hloadable : Loadable patchwork.nodes := hiff.1 ⟨g, hg⟩
  refine ⟨⟨g, hg, hloadable, hgraph g hg⟩, ?_, ?_⟩
  · exact (toGraph_permissive _).2.2.1 patchwork.nodes echo [] _ rfl hloadable
      (.repeated (by decide))
  · have hlacks : hollow.Lacks (.missingFunction idle.id .valueAcquisition) :=
      .embeddedFunction rfl rfl rfl rfl
    exact (toGraph_permissive _).2.2.1 patchwork.nodes hollow [] _ rfl hloadable
      (.lacking (by decide) hlacks)

end ScriptGraph.Document
