import ScriptGraph.Proofs.EditHistories

/-!
# Edits of different nodes

An edit of a node looks at the registry and at the first node with its id, and changes nothing
but that node. So edits of two different ids do not meet: neither decides whether the other is
refused, and both can be made in either order. Ids may repeat, since all nodes but the first with
an id are passed over in the same way before and after.
-/
namespace ScriptGraph.Store

/-- How a change comes out before and after another one, `k`: it is refused both times for the
same reason, or it is made both times, and `k` closes the square. -/
inductive Commutes {ε α : Type} (before after : Except ε α) (k : α → Except ε α) : Prop
  | refused {error : ε} : before = .error error → after = .error error → Commutes before after k
  | made {x y : α} : before = .ok x → after = .ok y → k x = .ok y → Commutes before after k

namespace Commutes

variable {ε α β : Type} {x y : Except ε α} {k : α → Except ε α}

/-- A square of parts is a square of the wholes that they are put into. -/
lemma map (h : Commutes x y k) {whole : α → β} {l : β → Except ε β}
    (hl : ∀ part, l (whole part) = (k part).map whole) :
    Commutes (x.map whole) (y.map whole) l := by
  cases h with
  | refused hx hy => exact .refused (congrArg _ hx) (congrArg _ hy)
  | made hx hy hk => exact .made (congrArg _ hx) (congrArg _ hy) (by rw [hl, hk]; rfl)

lemma error_iff (h : Commutes x y k) (error : ε) : y = .error error ↔ x = .error error := by
  cases h with
  | refused hx hy => rw [hx, hy]
  | made hx hy _ => simp [hx, hy]

lemma ok_iff (h : Commutes x y k) : (∃ t, y = .ok t) ↔ ∃ t, x = .ok t := by
  cases h with
  | refused hx hy => simp [hx, hy]
  | made hx hy _ => simp [hx, hy]

lemma exists_join (h : Commutes x y k) {t : α} (ht : x = .ok t) :
    ∃ both, y = .ok both ∧ k t = .ok both := by
  cases h with
  | refused hx _ => cases hx.symm.trans ht
  | made hx hy hk =>
    obtain rfl := Except.ok.inj (hx.symm.trans ht)
    exact ⟨_, hy, hk⟩

end Commutes

variable {s s' : Store} {a b id : NodeId} {f g : Node → Except EditError Node}

/-- The second node of the square is looked for past the first, which keeps its id. -/
lemma commutes_editFirst (hab : a ≠ b) (hf : ∀ n n', n.id = a → f n = .ok n' → n'.id = a)
    (hg : ∀ n n', n.id = b → g n = .ok n' → n'.id = b) {nodes nodes' : List Node}
    (h : editFirst a f nodes = .ok nodes') :
    Commutes (editFirst b g nodes) (editFirst b g nodes') (editFirst a f) := by
  induction nodes generalizing nodes' with
  | nil => cases h
  | cons m rest ih =>
    by_cases ha : m.id = a
    · rw [editFirst_of_eq ha] at h
      obtain ⟨m', hm, rfl⟩ := exists_of_map_eq_ok h
      have ha' : m'.id = a := hf m m' ha hm
      rw [editFirst_of_ne (ha ▸ hab), editFirst_of_ne (ha' ▸ hab)]
      cases editFirst b g rest with
      | error error => exact .refused rfl rfl
      | ok rest' => exact .made rfl rfl (by rw [editFirst_of_eq ha, hm]; rfl)
    · rw [editFirst_of_ne ha] at h
      obtain ⟨rest', hrest, rfl⟩ := exists_of_map_eq_ok h
      by_cases hb : m.id = b
      · rw [editFirst_of_eq hb, editFirst_of_eq hb]
        cases hm : g m with
        | error error => exact .refused rfl rfl
        | ok m' =>
          have hb' : m'.id ≠ a := hg m m' hb hm ▸ hab.symm
          exact .made rfl rfl (by rw [editFirst_of_ne hb', hrest]; rfl)
      · rw [editFirst_of_ne hb, editFirst_of_ne hb]
        exact (ih hrest).map fun part => editFirst_of_ne ha

lemma commutes_editNode (hab : a ≠ b) (hf : ∀ n n', n.id = a → f n = .ok n' → n'.id = a)
    (hg : ∀ n n', n.id = b → g n = .ok n' → n'.id = b) (h : s.editNode a f = .ok s') :
    Commutes (s.editNode b g) (s'.editNode b g) (·.editNode a f) := by
  obtain ⟨nodes', hfirst, rfl⟩ := exists_of_map_eq_ok h
  exact (commutes_editFirst hab hf hg hfirst).map fun _ => rfl

/-- Nothing of a store is changed but the first node with an id, which keeps its id and its
variant. -/
structure RevisedAt (s : Store) (id : NodeId) (s' : Store) : Prop where
  edges_eq : s'.graph.edges = s.graph.edges
  registry_eq : s'.registry = s.registry
  nextId_eq : s'.nextId = s.nextId
  ids_eq : s'.graph.nodes.map (·.id) = s.graph.nodes.map (·.id)
  variants_eq : s'.graph.nodes.map (·.variant) = s.graph.nodes.map (·.variant)
  others : ∃ before n n' after, s.graph.nodes = before ++ n :: after ∧
    s'.graph.nodes = before ++ n' :: after ∧ n.id = id ∧ ∀ m ∈ before, m.id ≠ id

lemma revisedAt_editNode (hf : ∀ n n', n.id = id → f n = .ok n' → n.Keeps s.registry n')
    (h : s.editNode id f = .ok s') : s.RevisedAt id s' := by
  obtain ⟨nodes', hfirst, rfl⟩ := exists_of_map_eq_ok h
  obtain ⟨before, n, after, n', hnodes, hbefore, hid, hn, rfl⟩ := editFirst_eq_ok hfirst
  have hkeeps := hf n n' hid hn
  exact ⟨rfl, rfl, rfl, by simp [hnodes, hkeeps.id_eq], by simp [hnodes, hkeeps.variant_eq],
    before, n, n', after, hnodes, rfl, hid, hbefore⟩

lemma revisedAt_apply {edit : Edit} (hedit : edit.revised? = some id)
    (h : s.apply edit = .ok s') : s.RevisedAt id s' := by
  cases revision_of_revised? hedit s.registry with
  | refused error hrefused => simp [hrefused s rfl] at h
  | changed f hkeeps happly => exact revisedAt_editNode hkeeps (happly s rfl ▸ h)

/-- The registry is the same before and after, so both edits change their nodes in the same way
in all four stores. -/
lemma commutes_apply (hab : a ≠ b) {first second : Edit} (hfirst : first.revised? = some a)
    (hsecond : second.revised? = some b) (h : s.apply first = .ok s') :
    Commutes (s.apply second) (s'.apply second) (·.apply first) := by
  have hregistry := (revisedAt_apply hfirst h).registry_eq
  cases revision_of_revised? hsecond s.registry with
  | refused error hrefused => exact .refused (hrefused s rfl) (hrefused s' hregistry)
  | changed g hg hsecond' =>
    cases revision_of_revised? hfirst s.registry with
    | refused error hrefused => simp [hrefused s rfl] at h
    | changed f hf hfirst' =>
      have hcommutes := commutes_editNode hab
        (fun n n' hn hn' => (hf n n' hn hn').id_eq.trans hn)
        (fun n n' hn hn' => (hg n n' hn hn').id_eq.trans hn) (hfirst' s rfl ▸ h)
      rw [← hsecond' s rfl, ← hsecond' s' hregistry] at hcommutes
      cases hcommutes with
      | refused hx hy => exact .refused hx hy
      | made hx hy hk =>
        have hregistry' := (revisedAt_apply hsecond hx).registry_eq
        exact .made hx hy ((hfirst' _ hregistry').trans hk)

/-- Edits of different nodes are independent. If the first is made, the second comes out as it
would have without it: it is refused for the same reason, or it is made as well, and then both
orders lead to the same store. Each changes nothing but the first node with its id. -/
theorem apply_independent (s : Store) (a b : NodeId) (first second : Edit) (hab : a ≠ b)
    (hfirst : first.revised? = some a) (hsecond : second.revised? = some b) (s' : Store)
    (h : s.apply first = .ok s') :
    s.RevisedAt a s' ∧
    (∀ error, s'.apply second = .error error ↔ s.apply second = .error error) ∧
    ((∃ t, s'.apply second = .ok t) ↔ ∃ t, s.apply second = .ok t) ∧
    ∀ s'', s.apply second = .ok s'' → s.RevisedAt b s'' ∧
      ∃ both, s'.apply second = .ok both ∧ s''.apply first = .ok both := by
  have hcommutes := commutes_apply hab hfirst hsecond h
  exact ⟨revisedAt_apply hfirst h, hcommutes.error_iff, hcommutes.ok_iff,
    fun s'' h'' => ⟨revisedAt_apply hsecond h'', hcommutes.exists_join h''⟩⟩

/-- Two ids that stand twice each, for nodes of different kinds. -/
def mirrored : Graph where
  nodes := [⟨"x", default, .conditional {}⟩, ⟨"y", default, .assignment none none⟩,
    ⟨"x", default, .assignment none none⟩, ⟨"y", default, .continueIf {}⟩]
  edges := [⟨"x", .whenTrue, "y", .input⟩]

/-- A condition for `x` and a call for `y` reach the first of each, in either order. Without the
call, parameters for it are refused before and after. -/
theorem apply_independent_mirrored : "x" ≠ "y" ∧ ∃ s' s'' both,
    (ofGraph mirrored .builtIn).apply (.setCondition "x" ⟨[], .xor⟩) = .ok s' ∧
      (ofGraph mirrored .builtIn).apply (.embed "y" "gethp" .empty) = .ok s'' ∧
      (ofGraph mirrored .builtIn).RevisedAt "x" s' ∧
      (ofGraph mirrored .builtIn).RevisedAt "y" s'' ∧
      s'.apply (.embed "y" "gethp" .empty) = .ok both ∧
      s''.apply (.setCondition "x" ⟨[], .xor⟩) = .ok both ∧
      s'.apply (.setParameters "y" .empty) = .error (.missingEmbedded "y") := by
  obtain ⟨s', h'⟩ : ∃ s', (ofGraph mirrored .builtIn).apply
      (.setCondition "x" ⟨[], .xor⟩) = .ok s' := ⟨_, rfl⟩
  have hview : ((ofGraph mirrored .builtIn).apply
      (.embed "y" "gethp" .empty)).toOption.map (·.nextId) = some 0 := by cbv
  obtain ⟨s'', h'', -⟩ := exists_ok_of_map hview
  obtain ⟨hx, -, -, hjoin⟩ := apply_independent (ofGraph mirrored .builtIn) "x" "y"
    (.setCondition "x" ⟨[], .xor⟩) (.embed "y" "gethp" .empty) (by decide) rfl rfl s' h'
  obtain ⟨-, herror, -, -⟩ := apply_independent (ofGraph mirrored .builtIn) "x" "y"
    (.setCondition "x" ⟨[], .xor⟩) (.setParameters "y" .empty) (by decide) rfl rfl s' h'
  obtain ⟨hy, both, hboth, hboth'⟩ := hjoin s'' h''
  exact ⟨by decide, s', s'', both, h', h'', hx, hy, hboth, hboth', (herror _).2 rfl⟩

end ScriptGraph.Store
