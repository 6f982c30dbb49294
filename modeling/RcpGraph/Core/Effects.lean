import RcpGraph.Core.Staging

/-!
What an operation can touch. Every node is kept under its own id, an operation
leaves all nodes and edges alone that it does not name, and only `remove_nodes`
takes a node away.
-/

namespace RcpGraph

variable {rt : Runtime}

/-- Every node is stored under its own id. -/
def GraphState.Keyed (s : GraphState rt) : Prop :=
  ∀ id n, s.nodes.get? id = some n → n.id = id

theorem keyed_of_nodes (s t : GraphState rt) (h : s.nodes = t.nodes) (ht : t.Keyed) : s.Keyed := by
  intro id n hn
  exact ht id n (h ▸ hn)

/-- The nodes an operation writes or removes. -/
def GraphOperation.nodeTargets : GraphOperation rt → List String
  | .createNodes nodes => nodes.map (·.id)
  | .updateNodes updates => updates.map (·.id)
  | .removeNodes ids => ids
  | .supersedeNodes items => items.map (·.id)
  | .mergeNodes merges => merges.map (·.duplicate)
  | .setStanding id _ => [id]
  | _ => []

/-- The ids of the nodes an operation creates. -/
def GraphOperation.createdIds : GraphOperation rt → List String
  | .createNodes nodes => nodes.map (·.id)
  | _ => []

/-- The edges an operation writes, as id and endpoints, in written order. -/
def GraphOperation.edgesWritten : GraphOperation rt → List (String × String × String)
  | .createEdges edges =>
      edges.filterMap fun e => e.writtenId.map fun id => (id, e.source, e.target)
  | .supersedeNodes items =>
      items.filterMap fun i => (i.edge? 0).map fun e => (e.id, e.source, e.target)
  | .mergeNodes merges =>
      merges.map fun m =>
        (derivedEdgeId m.duplicate "duplicate_of" m.canonical, m.duplicate, m.canonical)
  | _ => []

/-- Whether an operation may write or remove edges. -/
def GraphOperation.movesEdges : GraphOperation rt → Bool
  | .createEdges _ | .removeEdges _ | .removeNodes _ | .supersedeNodes _ | .mergeNodes _ => true
  | _ => false

section Record

variable (s : GraphState rt) (n m : ProjectNode rt) (r : Nat) (cause : Option BeliefCause)

@[simp] theorem recordBeliefTransition_nodes :
    (recordBeliefTransition s n m r cause).nodes = s.nodes := by
  unfold recordBeliefTransition
  cases cause with
  | none => rfl
  | some c =>
      simp only
      split <;> rfl

@[simp] theorem recordBeliefTransition_edges :
    (recordBeliefTransition s n m r cause).edges = s.edges := by
  unfold recordBeliefTransition
  cases cause with
  | none => rfl
  | some c =>
      simp only
      split <;> rfl

@[simp] theorem recordBeliefTransition_ontology :
    (recordBeliefTransition s n m r cause).ontology = s.ontology := by
  unfold recordBeliefTransition
  cases cause with
  | none => rfl
  | some c =>
      simp only
      split <;> rfl

end Record

/-- A step that rewrites the node of one id, under that id. -/
def Rewrites (id : String) (s t : GraphState rt) : Prop :=
  ∃ n m, s.nodes.get? id = some n ∧ m.id = n.id ∧ m.type = n.type ∧
    t.nodes = s.nodes.insert id m

theorem Rewrites.keyed {id : String} {s t : GraphState rt} (h : Rewrites id s t) (hs : s.Keyed) :
    t.Keyed := by
  obtain ⟨n, m, hn, hid, -, ht⟩ := h
  intro x k hk
  rw [ht, Dict.get?_insert] at hk
  split at hk
  next hx =>
    cases hk
    rw [hid, hx]
    exact hs id n hn
  next => exact hs x k hk

theorem Rewrites.other {id x : String} {s t : GraphState rt} (h : Rewrites id s t) (hx : x ≠ id) :
    t.nodes.get? x = s.nodes.get? x := by
  obtain ⟨n, m, -, -, -, ht⟩ := h
  rw [ht, Dict.get?_insert, if_neg hx]

theorem Rewrites.mem {id : String} {s t : GraphState rt} (h : Rewrites id s t) (x : String) :
    x ∈ t.nodes ↔ x ∈ s.nodes := by
  obtain ⟨n, m, hn, -, -, ht⟩ := h
  rw [ht, Dict.mem_insert]
  constructor
  · rintro (rfl | hx)
    · exact Dict.mem_of_get? hn
    · exact hx
  · exact .inr

theorem Rewrites.nodeType? {id : String} {s t : GraphState rt} (h : Rewrites id s t) (x : String) :
    t.nodeType? x = s.nodeType? x := by
  by_cases hx : x = id
  · obtain ⟨n, m, hn, -, htype, ht⟩ := h
    simp [GraphState.nodeType?, ht, hx, hn, htype]
  · simp [GraphState.nodeType?, h.other hx]

theorem updateNode_rewrites (p : Patch rt) (generated : Bool) (u : NodeUpdate)
    (s t : GraphState rt) (hs : s.Keyed) (h : updateNode p generated u s = .ok t) :
    Rewrites u.id s t ∧ t.edges = s.edges := by
  obtain ⟨n, m, hn, -, hm, rfl⟩ := updateNode_ok p generated u s t h
  obtain ⟨-, hid, htype, -⟩ := ProjectNode.revise_ok _ _ _ _ _ _ hm
  refine ⟨⟨n, m, hn, hid, htype, ?_⟩, by simp⟩
  simp [hs u.id n hn]

theorem retireNode_rewrites (p : Patch rt) (id : String) (cause : Option BeliefCause)
    (s t : GraphState rt) (h : retireNode p id cause s = .ok t) :
    Rewrites id s t ∧ t.edges = s.edges := by
  obtain ⟨n, m, hn, hm, rfl⟩ := retireNode_ok p id cause s t h
  obtain ⟨-, hid, htype, -⟩ := ProjectNode.revise_ok _ _ _ _ _ _ hm
  exact ⟨⟨n, m, hn, hid, htype, by simp⟩, by simp⟩

theorem supersedeNode_rewrites (p : Patch rt) (item : SupersedeNode) (s t : GraphState rt)
    (h : supersedeNode p item s = .ok t) : Rewrites item.id s t := by
  obtain ⟨u, hu, rfl⟩ := supersedeNode_ok p item s t h
  obtain ⟨hr, -⟩ := retireNode_rewrites p item.id item.cause s u hu
  cases item.edge? p.revision <;> exact hr

theorem mergeNode_rewrites (p : Patch rt) (item : NodeMerge) (s t : GraphState rt)
    (h : mergeNode p item s = .ok t) : Rewrites item.duplicate s t := by
  obtain ⟨u, hu, rfl⟩ := mergeNode_ok p item s t h
  exact (retireNode_rewrites p item.duplicate item.cause s u hu).1

theorem setStanding_rewrites (revision : Nat) (id : String) (standing : Standing)
    (s t : GraphState rt) (hs : s.Keyed) (h : setStanding revision id standing s = .ok t) :
    Rewrites id s t ∧ t.edges = s.edges := by
  obtain ⟨n, hn, rfl⟩ := setStanding_ok revision id standing s t h
  refine ⟨⟨n, n.withStanding standing revision, hn, rfl, rfl, ?_⟩, rfl⟩
  simp [hs id n hn]

theorem get?_createNodes (revision : Nat) (nodes : List (RawNode rt)) (s : GraphState rt)
    (x : String) :
    (nodes.foldl (fun s raw => createNode revision raw s) s).nodes.get? x =
      match nodes.reverse.find? fun raw => raw.id = x with
      | some raw => some (raw.create revision)
      | none => s.nodes.get? x := by
  induction nodes generalizing s with
  | nil => rfl
  | cons raw nodes ih =>
      rw [List.foldl_cons, ih, List.reverse_cons, List.find?_append]
      cases nodes.reverse.find? fun raw => raw.id = x with
      | some r => rfl
      | none =>
          simp only [createNode, Dict.get?_insert, Option.none_or, List.find?_cons,
            List.find?_nil]
          by_cases hx : raw.id = x
          · simp [hx]
          · simp [hx, Ne.symm hx]

theorem edges_createNodes (revision : Nat) (nodes : List (RawNode rt)) (s : GraphState rt) :
    (nodes.foldl (fun s raw => createNode revision raw s) s).edges = s.edges :=
  foldl_constant (createNode revision) (·.edges) (fun _ _ => rfl) nodes s

/-- Every step that rewrites nodes keeps the node dictionary keyed. -/
theorem run_keyed {α : Type} (f : α → GraphState rt → Except String (GraphState rt))
    (as : List α) (id : α → String)
    (step : ∀ a ∈ as, ∀ s t, s.Keyed → f a s = .ok t → Rewrites (id a) s t) (s t : GraphState rt)
    (hs : s.Keyed) (h : Steps.run f as s = .ok t) : t.Keyed :=
  Steps.run_invariant f GraphState.Keyed as
    (fun a ha s t hs hf => (step a ha s t hs hf).keyed hs) s t hs h

/-- A run of rewriting steps leaves every other node alone. -/
theorem run_other {α : Type} (f : α → GraphState rt → Except String (GraphState rt))
    (as : List α) (id : α → String)
    (step : ∀ a ∈ as, ∀ s t, s.Keyed → f a s = .ok t → Rewrites (id a) s t) (s t : GraphState rt)
    (hs : s.Keyed) (h : Steps.run f as s = .ok t) (x : String) (hx : x ∉ as.map id) :
    t.nodes.get? x = s.nodes.get? x := by
  have key := Steps.run_invariant f
    (fun u : GraphState rt => u.Keyed ∧ u.nodes.get? x = s.nodes.get? x) as
    (fun a ha u v hu hf => by
      have hr := step a ha u v hu.1 hf
      have hne : x ≠ id a := fun he => hx (List.mem_map.mpr ⟨a, ha, he.symm⟩)
      exact ⟨hr.keyed hu.1, (hr.other hne).trans hu.2⟩) s t ⟨hs, rfl⟩ h
  exact key.2

/-- A run of rewriting steps neither adds nor removes nodes. -/
theorem run_mem {α : Type} (f : α → GraphState rt → Except String (GraphState rt))
    (as : List α) (id : α → String)
    (step : ∀ a ∈ as, ∀ s t, s.Keyed → f a s = .ok t → Rewrites (id a) s t) (s t : GraphState rt)
    (hs : s.Keyed) (h : Steps.run f as s = .ok t) (x : String) : x ∈ t.nodes ↔ x ∈ s.nodes := by
  have key := Steps.run_invariant f
    (fun u : GraphState rt => u.Keyed ∧ (x ∈ u.nodes ↔ x ∈ s.nodes)) as
    (fun a ha u v hu hf => by
      have hr := step a ha u v hu.1 hf
      exact ⟨hr.keyed hu.1, (hr.mem x).trans hu.2⟩) s t ⟨hs, Iff.rfl⟩ h
  exact key.2

/-- A run of rewriting steps keeps the type of every node. -/
theorem run_nodeType? {α : Type} (f : α → GraphState rt → Except String (GraphState rt))
    (as : List α) (id : α → String)
    (step : ∀ a ∈ as, ∀ s t, s.Keyed → f a s = .ok t → Rewrites (id a) s t) (s t : GraphState rt)
    (hs : s.Keyed) (h : Steps.run f as s = .ok t) (x : String) :
    t.nodeType? x = s.nodeType? x := by
  have key := Steps.run_invariant f
    (fun u : GraphState rt => u.Keyed ∧ u.nodeType? x = s.nodeType? x) as
    (fun a ha u v hu hf => by
      have hr := step a ha u v hu.1 hf
      exact ⟨hr.keyed hu.1, (hr.nodeType? x).trans hu.2⟩) s t ⟨hs, rfl⟩ h
  exact key.2

/-- The steps of an operation that rewrites nodes one after another. -/
theorem applyOp_rewrites (p : Patch rt) (generated : Bool) :
    (∀ u s t, s.Keyed → updateNode p generated u s = .ok t → Rewrites u.id s t) ∧
      (∀ i s t, s.Keyed → supersedeNode p i s = .ok t → Rewrites i.id s t) ∧
      (∀ m s t, s.Keyed → mergeNode p m s = .ok t → Rewrites m.duplicate s t) :=
  ⟨fun u s t hs h => (updateNode_rewrites p generated u s t hs h).1,
    fun i s t _ h => supersedeNode_rewrites p i s t h,
    fun m s t _ h => mergeNode_rewrites p m s t h⟩

theorem nodes_createEdges (revision : Nat) (edges : List NewEdge) (s t : GraphState rt)
    (h : Steps.run (createEdge revision) edges s = .ok t) : t.nodes = s.nodes :=
  Steps.run_constant _ (·.nodes) edges (fun e _ s t h => by
    obtain ⟨id, declared, -, -, rfl⟩ := createEdge_ok revision e s t h
    rfl) s t h

/-- The operations that are not about nodes. -/
theorem nodes_applyOp_other (p : Patch rt) (generated : Bool) (op : GraphOperation rt)
    (hop : op.nodeTargets = []) (s t : GraphState rt) (h : applyOp p generated op s = .ok t) :
    t.nodes = s.nodes := by
  cases op with
  | createNodes nodes =>
      obtain rfl : nodes = [] := by simpa [GraphOperation.nodeTargets] using hop
      cases h
      rfl
  | updateNodes updates =>
      obtain rfl : updates = [] := by simpa [GraphOperation.nodeTargets] using hop
      cases h
      rfl
  | createEdges edges => exact nodes_createEdges p.revision edges s t h
  | removeNodes ids =>
      obtain rfl : ids = [] := by simpa [GraphOperation.nodeTargets] using hop
      cases h
      refine Dict.ext ?_
      simp [removeNodes, Dict.filter]
  | supersedeNodes items =>
      obtain rfl : items = [] := by simpa [GraphOperation.nodeTargets] using hop
      cases h
      rfl
  | mergeNodes merges =>
      obtain rfl : merges = [] := by simpa [GraphOperation.nodeTargets] using hop
      cases h
      rfl
  | resolveAmbiguities rs =>
      exact Steps.run_constant _ (·.nodes) rs (fun r _ s t h => by
        obtain ⟨as, rfl⟩ := resolveAmbiguity_ok r s t h
        rfl) s t h
  | resolveProposals rs =>
      exact Steps.run_constant _ (·.nodes) rs (fun r _ s t h => by
        obtain ⟨q, q', -, -, rfl⟩ := resolveProposal_ok p r s t h
        rfl) s t h
  | withdrawProposals ws =>
      exact Steps.run_constant _ (·.nodes) ws (fun w _ s t h => by
        obtain ⟨q, q', -, -, rfl⟩ := withdrawProposal_ok p w s t h
        rfl) s t h
  | createAmbiguities as =>
      cases h
      exact foldl_constant (createAmbiguity p.revision) (·.nodes) (fun _ _ => rfl) as s
  | createProposals ps =>
      cases h
      exact foldl_constant (createProposal p) (·.nodes) (fun _ _ => rfl) ps s
  | upsertGlossary terms =>
      cases h
      exact foldl_constant (upsertTerm p.revision) (·.nodes) (fun _ _ => rfl) terms s
  | setStanding id standing => cases hop
  | removeEdges _ | setCoverage _ | setProjectTruthScope _ _ | setOntology _ =>
      cases h
      rfl

theorem keyed_applyOp (p : Patch rt) (generated : Bool) (op : GraphOperation rt)
    (s t : GraphState rt) (hs : s.Keyed) (h : applyOp p generated op s = .ok t) : t.Keyed := by
  obtain ⟨hupdate, hsupersede, hmerge⟩ := applyOp_rewrites p generated
  cases op with
  | createNodes nodes =>
      cases h
      intro x n hn
      rw [get?_createNodes] at hn
      split at hn
      next raw hraw =>
        cases hn
        simpa [RawNode.create] using List.find?_some hraw
      next => exact hs x n hn
  | updateNodes updates => exact run_keyed _ updates (·.id) (fun u _ => hupdate u) s t hs h
  | supersedeNodes items => exact run_keyed _ items (·.id) (fun i _ => hsupersede i) s t hs h
  | mergeNodes merges => exact run_keyed _ merges (·.duplicate) (fun m _ => hmerge m) s t hs h
  | removeNodes ids =>
      cases h
      intro x n hn
      simp only [removeNodes, Dict.get?_filter] at hn
      exact hs x n (Option.filter_eq_some_iff.mp hn).1
  | setStanding id standing =>
      exact (setStanding_rewrites p.revision id standing s t hs h).1.keyed hs
  | _ =>
      intro x n hn
      rw [nodes_applyOp_other p generated _ rfl s t h] at hn
      exact hs x n hn

/-- An operation leaves every node alone that it does not name. -/
theorem get?_nodes_applyOp (p : Patch rt) (generated : Bool) (op : GraphOperation rt)
    (s t : GraphState rt) (hs : s.Keyed) (h : applyOp p generated op s = .ok t) (x : String)
    (hx : x ∉ op.nodeTargets) : t.nodes.get? x = s.nodes.get? x := by
  obtain ⟨hupdate, hsupersede, hmerge⟩ := applyOp_rewrites p generated
  cases op with
  | createNodes nodes =>
      cases h
      rw [get?_createNodes]
      split
      next raw hraw =>
        refine absurd ?_ hx
        refine List.mem_map.mpr ⟨raw, ?_, by simpa using List.find?_some hraw⟩
        simpa using List.mem_of_find?_eq_some hraw
      next => rfl
  | updateNodes updates => exact run_other _ updates (·.id) (fun u _ => hupdate u) s t hs h x hx
  | supersedeNodes items => exact run_other _ items (·.id) (fun i _ => hsupersede i) s t hs h x hx
  | mergeNodes merges => exact run_other _ merges (·.duplicate) (fun m _ => hmerge m) s t hs h x hx
  | removeNodes ids =>
      cases h
      have hx' : x ∉ ids := hx
      simp only [removeNodes, Dict.get?_filter]
      cases s.nodes.get? x <;> simp [Option.filter, hx']
  | setStanding id standing =>
      refine (setStanding_rewrites p.revision id standing s t hs h).1.other ?_
      simpa [GraphOperation.nodeTargets] using hx
  | _ => rw [nodes_applyOp_other p generated _ rfl s t h]

/-- Which nodes are there after an operation. -/
theorem mem_nodes_applyOp (p : Patch rt) (generated : Bool) (op : GraphOperation rt)
    (s t : GraphState rt) (hs : s.Keyed) (h : applyOp p generated op s = .ok t) (x : String) :
    x ∈ t.nodes ↔
      match op with
      | .createNodes nodes => x ∈ nodes.map (·.id) ∨ x ∈ s.nodes
      | .removeNodes ids => x ∉ ids ∧ x ∈ s.nodes
      | _ => x ∈ s.nodes := by
  obtain ⟨hupdate, hsupersede, hmerge⟩ := applyOp_rewrites p generated
  cases op with
  | createNodes nodes =>
      cases h
      rw [Dict.mem_iff_isSome, get?_createNodes, Dict.mem_iff_isSome]
      cases hf : nodes.reverse.find? fun raw => raw.id = x with
      | some raw =>
          have hx : x ∈ nodes.map (·.id) :=
            List.mem_map.mpr ⟨raw, by simpa using List.mem_of_find?_eq_some hf,
              by simpa using List.find?_some hf⟩
          simp [hx]
      | none =>
          have hx : x ∉ nodes.map (·.id) := by
            rw [List.find?_eq_none] at hf
            simpa using hf
          simp only [hx, false_or]
  | updateNodes updates => exact run_mem _ updates (·.id) (fun u _ => hupdate u) s t hs h x
  | supersedeNodes items => exact run_mem _ items (·.id) (fun i _ => hsupersede i) s t hs h x
  | mergeNodes merges => exact run_mem _ merges (·.duplicate) (fun m _ => hmerge m) s t hs h x
  | removeNodes ids =>
      cases h
      rw [Dict.mem_iff_isSome, Dict.mem_iff_isSome]
      simp only [removeNodes, Dict.get?_filter]
      cases s.nodes.get? x <;> simp [Option.filter]
  | setStanding id standing =>
      exact (setStanding_rewrites p.revision id standing s t hs h).1.mem x
  | _ => rw [nodes_applyOp_other p generated _ rfl s t h]

/-- An operation keeps the type of every node it neither creates nor removes. -/
theorem nodeType?_applyOp (p : Patch rt) (generated : Bool) (op : GraphOperation rt)
    (s t : GraphState rt) (hs : s.Keyed) (h : applyOp p generated op s = .ok t) (x : String)
    (hcreate : x ∉ op.createdIds) (hremove : ∀ ids, op = .removeNodes ids → x ∉ ids) :
    t.nodeType? x = s.nodeType? x := by
  obtain ⟨hupdate, hsupersede, hmerge⟩ := applyOp_rewrites p generated
  cases op with
  | createNodes nodes =>
      rw [GraphState.nodeType?, get?_nodes_applyOp p generated _ s t hs h x hcreate]
      rfl
  | removeNodes ids =>
      rw [GraphState.nodeType?, get?_nodes_applyOp p generated _ s t hs h x (hremove ids rfl)]
      rfl
  | updateNodes updates => exact run_nodeType? _ updates (·.id) (fun u _ => hupdate u) s t hs h x
  | supersedeNodes items =>
      exact run_nodeType? _ items (·.id) (fun i _ => hsupersede i) s t hs h x
  | mergeNodes merges =>
      exact run_nodeType? _ merges (·.duplicate) (fun m _ => hmerge m) s t hs h x
  | setStanding id standing =>
      exact (setStanding_rewrites p.revision id standing s t hs h).1.nodeType? x
  | _ =>
      rw [GraphState.nodeType?, nodes_applyOp_other p generated _ rfl s t h]
      rfl

/-- The operations that are not about edges. -/
theorem edges_applyOp_other (p : Patch rt) (generated : Bool) (op : GraphOperation rt)
    (hop : op.movesEdges = false) (s t : GraphState rt) (hs : s.Keyed)
    (h : applyOp p generated op s = .ok t) : t.edges = s.edges := by
  cases op with
  | createNodes nodes =>
      cases h
      exact edges_createNodes p.revision nodes s
  | updateNodes updates =>
      have key := Steps.run_invariant (updateNode p generated)
        (fun u : GraphState rt => u.Keyed ∧ u.edges = s.edges) updates
        (fun a _ u v hu hf => by
          obtain ⟨hr, he⟩ := updateNode_rewrites p generated a u v hu.1 hf
          exact ⟨hr.keyed hu.1, he.trans hu.2⟩) s t ⟨hs, rfl⟩ h
      exact key.2
  | resolveAmbiguities rs =>
      exact Steps.run_constant _ (·.edges) rs (fun r _ s t h => by
        obtain ⟨as, rfl⟩ := resolveAmbiguity_ok r s t h
        rfl) s t h
  | resolveProposals rs =>
      exact Steps.run_constant _ (·.edges) rs (fun r _ s t h => by
        obtain ⟨q, q', -, -, rfl⟩ := resolveProposal_ok p r s t h
        rfl) s t h
  | withdrawProposals ws =>
      exact Steps.run_constant _ (·.edges) ws (fun w _ s t h => by
        obtain ⟨q, q', -, -, rfl⟩ := withdrawProposal_ok p w s t h
        rfl) s t h
  | createAmbiguities as =>
      cases h
      exact foldl_constant (createAmbiguity p.revision) (·.edges) (fun _ _ => rfl) as s
  | createProposals ps =>
      cases h
      exact foldl_constant (createProposal p) (·.edges) (fun _ _ => rfl) ps s
  | upsertGlossary terms =>
      cases h
      exact foldl_constant (upsertTerm p.revision) (·.edges) (fun _ _ => rfl) terms s
  | setStanding id standing => exact (setStanding_rewrites p.revision id standing s t hs h).2
  | setCoverage _ | setProjectTruthScope _ _ | setOntology _ =>
      cases h
      rfl
  | createEdges _ | removeEdges _ | removeNodes _ | supersedeNodes _ | mergeNodes _ => cases hop

theorem ontology_retireNode (p : Patch rt) (id : String) (cause : Option BeliefCause)
    (s t : GraphState rt) (h : retireNode p id cause s = .ok t) : t.ontology = s.ontology := by
  obtain ⟨n, m, -, -, rfl⟩ := retireNode_ok p id cause s t h
  simp

/-- Only `set_ontology` writes the ontology. -/
theorem ontology_applyOp (p : Patch rt) (generated : Bool) (op : GraphOperation rt)
    (hop : ∀ ontology, op ≠ .setOntology ontology) (s t : GraphState rt)
    (h : applyOp p generated op s = .ok t) : t.ontology = s.ontology := by
  cases op with
  | createNodes nodes =>
      cases h
      exact foldl_constant (createNode p.revision) (·.ontology) (fun _ _ => rfl) nodes s
  | updateNodes updates =>
      exact Steps.run_constant _ (·.ontology) updates (fun u _ s t h => by
        obtain ⟨n, m, -, -, -, rfl⟩ := updateNode_ok p generated u s t h
        simp) s t h
  | createEdges edges =>
      exact Steps.run_constant _ (·.ontology) edges (fun e _ s t h => by
        obtain ⟨id, declared, -, -, rfl⟩ := createEdge_ok p.revision e s t h
        rfl) s t h
  | supersedeNodes items =>
      exact Steps.run_constant _ (·.ontology) items (fun i _ s t h => by
        obtain ⟨u, hu, rfl⟩ := supersedeNode_ok p i s t h
        have := ontology_retireNode p i.id i.cause s u hu
        cases i.edge? p.revision <;> exact this) s t h
  | mergeNodes merges =>
      exact Steps.run_constant _ (·.ontology) merges (fun m _ s t h => by
        obtain ⟨u, hu, rfl⟩ := mergeNode_ok p m s t h
        exact ontology_retireNode p m.duplicate m.cause s u hu) s t h
  | resolveAmbiguities rs =>
      exact Steps.run_constant _ (·.ontology) rs (fun r _ s t h => by
        obtain ⟨as, rfl⟩ := resolveAmbiguity_ok r s t h
        rfl) s t h
  | resolveProposals rs =>
      exact Steps.run_constant _ (·.ontology) rs (fun r _ s t h => by
        obtain ⟨q, q', -, -, rfl⟩ := resolveProposal_ok p r s t h
        rfl) s t h
  | withdrawProposals ws =>
      exact Steps.run_constant _ (·.ontology) ws (fun w _ s t h => by
        obtain ⟨q, q', -, -, rfl⟩ := withdrawProposal_ok p w s t h
        rfl) s t h
  | createAmbiguities as =>
      cases h
      exact foldl_constant (createAmbiguity p.revision) (·.ontology) (fun _ _ => rfl) as s
  | createProposals ps =>
      cases h
      exact foldl_constant (createProposal p) (·.ontology) (fun _ _ => rfl) ps s
  | upsertGlossary terms =>
      cases h
      exact foldl_constant (upsertTerm p.revision) (·.ontology) (fun _ _ => rfl) terms s
  | setStanding id standing =>
      obtain ⟨n, -, rfl⟩ := setStanding_ok p.revision id standing s t h
      rfl
  | setOntology ontology => exact absurd rfl (hop ontology)
  | removeEdges _ | removeNodes _ | setCoverage _ | setProjectTruthScope _ _ =>
      cases h
      rfl

/-- A run of operations keeps every node under its own id. -/
theorem keyed_run (p : Patch rt) (generated : Bool) (ops : List (GraphOperation rt))
    (s t : GraphState rt) (hs : s.Keyed) (h : Steps.run (applyOp p generated) ops s = .ok t) :
    t.Keyed :=
  Steps.run_invariant _ GraphState.Keyed ops
    (fun op _ s t hs h => keyed_applyOp p generated op s t hs h) s t hs h

/-- The operations that write the content of nodes or the set of nodes. -/
def GraphOperation.editsNodes : GraphOperation rt → Bool
  | .createNodes _ | .updateNodes _ | .removeNodes _ => true
  | _ => false

section Look

variable {β : Type} (look : ProjectNode rt → β)
  (hlook : ∀ n m : ProjectNode rt, m.type = n.type → m.extensionType = n.extensionType →
    (∀ f, f ≠ "status" → f ≠ "validity" → m.field? f = n.field? f) → look m = look n)

include hlook in
/-- Retiring a node writes its lifecycle field only. -/
theorem look_retireNode (p : Patch rt) (id : String) (cause : Option BeliefCause)
    (s t : GraphState rt) (h : retireNode p id cause s = .ok t) (x : String) :
    (t.nodes.get? x).map look = (s.nodes.get? x).map look := by
  by_cases hx : x = id
  · subst hx
    obtain ⟨n, m, hn, hm, rfl⟩ := retireNode_ok p x cause s t h
    have hkeys : ∀ g ∈ (Dict.ofList [(n.type.lifecycleField, Json.str retiredValue)]).keys,
        g = "status" ∨ g = "validity" := by
      intro g hg
      have hname : g = n.type.lifecycleField := by
        simpa [Dict.ofList, Dict.update, Dict.insert, Dict.keys, Dict.empty, Assoc.overwrite,
          Assoc.write] using hg
      rw [hname]
      cases n.type <;> simp [NodeType.lifecycleField]
    obtain ⟨-, -, htype, hext, -⟩ := ProjectNode.revise_ok _ _ _ _ _ _ hm
    have hsame : look m = look n := by
      refine hlook n m htype hext fun f hstatus hvalidity => ?_
      refine ProjectNode.field?_revise n m _ _ _ _ hm f (fun hmem => ?_) (fun _ hmem => ?_)
      · rcases hkeys f hmem with rfl | rfl
        · exact hstatus rfl
        · exact hvalidity rfl
      · have := hkeys _ hmem
        simp at this
    simp [hn, hsame]
  · rw [(retireNode_rewrites p id cause s t h).1.other hx]

include hlook in
/-- An operation that edits no node changes a node in its lifecycle and its standing at most. -/
theorem look_applyOp (p : Patch rt) (generated : Bool) (op : GraphOperation rt)
    (hop : op.editsNodes = false) (s t : GraphState rt) (hs : s.Keyed)
    (h : applyOp p generated op s = .ok t) (x : String) :
    (t.nodes.get? x).map look = (s.nodes.get? x).map look := by
  cases op with
  | createNodes _ | updateNodes _ | removeNodes _ => cases hop
  | supersedeNodes items =>
      exact Steps.run_constant _ (fun u : GraphState rt => (u.nodes.get? x).map look) items
        (fun i _ a b hab => by
          obtain ⟨c, hc, rfl⟩ := supersedeNode_ok p i a b hab
          have hretired := look_retireNode look hlook p i.id i.cause a c hc x
          cases i.edge? p.revision <;> exact hretired) s t h
  | mergeNodes merges =>
      exact Steps.run_constant _ (fun u : GraphState rt => (u.nodes.get? x).map look) merges
        (fun m _ a b hab => by
          obtain ⟨c, hc, rfl⟩ := mergeNode_ok p m a b hab
          exact look_retireNode look hlook p m.duplicate m.cause a c hc x) s t h
  | setStanding id standing =>
      obtain ⟨n, hn, rfl⟩ := setStanding_ok p.revision id standing s t h
      by_cases hx : x = n.id
      · rw [← hs id n hn, ← hx] at hn
        rw [hn]
        simp [hx, hlook n (n.withStanding standing p.revision) rfl rfl fun _ _ _ => rfl]
      · simp [hx]
  | _ => rw [nodes_applyOp_other p generated _ rfl s t h]

end Look

end RcpGraph
