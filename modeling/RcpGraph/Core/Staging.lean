import RcpGraph.Core.Materialize

/-!
Staged application against whole application. Both run the same operations in
the same order; they differ in when an edge's layer is derived and in when the
watermark is written. No operation reads either, so the graphs agree on
everything else, operation by operation.
-/

namespace RcpGraph

open Schema

variable {rt : Runtime}

def Edge.erased (e : Edge) : Edge := { e with layer := .metaLayer }

/-- The graph without edge layers and watermark. -/
def GraphState.erased (s : GraphState rt) : GraphState rt :=
  { s with
    edges := s.edges.map fun _ e => e.erased
    lastRefreshAt := none }

/-- Graphs that differ at most in edge layers and watermark. -/
def Alike (s t : GraphState rt) : Prop := s.erased = t.erased

@[simp] theorem Edge.erased_erased (e : Edge) : e.erased.erased = e.erased := rfl

@[simp] theorem map_erased_idem (d : Dict String Edge) :
    ((d.map fun _ e => e.erased).map fun _ e => e.erased) = d.map fun _ e => e.erased := by
  refine Dict.ext ?_
  simp [Dict.map, Function.comp_def]

theorem GraphState.erased_erased (s : GraphState rt) : s.erased.erased = s.erased := by
  simp [erased]

namespace Alike

variable {s t u : GraphState rt}

theorem refl (s : GraphState rt) : Alike s s := rfl

theorem symm (h : Alike s t) : Alike t s := Eq.symm h

theorem trans (h : Alike s t) (h' : Alike t u) : Alike s u := Eq.trans h h'

theorem eq (h : Alike s t) : s.erased = t.erased := h

theorem nodes (h : Alike s t) : s.nodes = t.nodes :=
  show s.erased.nodes = t.erased.nodes by rw [h.eq]

theorem proposals (h : Alike s t) : s.proposals = t.proposals :=
  show s.erased.proposals = t.erased.proposals by rw [h.eq]

theorem revision (h : Alike s t) : s.revision = t.revision :=
  show s.erased.revision = t.erased.revision by rw [h.eq]

theorem edges (h : Alike s t) :
    (s.edges.map fun _ e => e.erased) = t.edges.map fun _ e => e.erased :=
  congrArg GraphState.edges h.eq

/-- Alike graphs have the same edges up to their layers. -/
theorem get?_edges (h : Alike s t) (id : String) :
    (s.edges.get? id).map Edge.erased = (t.edges.get? id).map Edge.erased := by
  simpa using congrArg (fun d => d.get? id) h.edges

theorem mem_edges (h : Alike s t) (id : String) : id ∈ s.edges ↔ id ∈ t.edges := by
  have := congrArg Option.isSome (h.get?_edges id)
  rw [Option.isSome_map, Option.isSome_map] at this
  rw [Dict.mem_iff_isSome, Dict.mem_iff_isSome, this]

end Alike

section Blind

/-- A step whose outcome, up to layers and watermark, does not depend on them. -/
def Blind (f : GraphState rt → Except String (GraphState rt)) : Prop :=
  ∀ s, (f s.erased).map GraphState.erased = (f s).map GraphState.erased

theorem Blind.alike {f : GraphState rt → Except String (GraphState rt)} (hf : Blind f)
    {s t s' : GraphState rt} (h : Alike s t) (hs : f s = .ok s') :
    ∃ t', f t = .ok t' ∧ Alike s' t' := by
  have key : (f s).map GraphState.erased = (f t).map GraphState.erased := by
    rw [← hf s, ← hf t, h.eq]
  rw [hs] at key
  cases ht : f t with
  | error e => simp [ht, Except.map] at key
  | ok t' =>
      have : s'.erased = t'.erased := by simpa [ht, Except.map] using key
      exact ⟨t', rfl, this⟩

theorem blind_run {α : Type} (f : α → GraphState rt → Except String (GraphState rt))
    (as : List α) (h : ∀ a ∈ as, Blind (f a)) : Blind (Steps.run f as) :=
  fun s => Steps.run_blind f GraphState.erased GraphState.erased_erased as h s

/-- A step that always succeeds. -/
theorem blind_ok (f : GraphState rt → GraphState rt)
    (h : ∀ s, (f s.erased).erased = (f s).erased) : Blind fun s => .ok (f s) := by
  intro s
  simp [Except.map, h]

theorem blind_fold {α : Type} (f : α → GraphState rt → GraphState rt) (as : List α)
    (h : ∀ a s, (f a s.erased).erased = (f a s).erased) :
    Blind fun s => .ok (as.foldl (fun s a => f a s) s) := by
  refine blind_ok _ fun s => ?_
  induction as generalizing s with
  | nil => exact s.erased_erased
  | cons a as ih =>
      simp only [List.foldl_cons]
      calc (as.foldl (fun s a => f a s) (f a s.erased)).erased
          = (as.foldl (fun s a => f a s) (f a s.erased).erased).erased := (ih _).symm
        _ = (as.foldl (fun s a => f a s) (f a s).erased).erased := by rw [h a s]
        _ = (as.foldl (fun s a => f a s) (f a s)).erased := ih _

/-- Steps in sequence. -/
theorem Blind.seq {f g : GraphState rt → Except String (GraphState rt)} (hf : Blind f)
    (hg : Blind g) : Blind fun s => (f s).bind g := by
  intro s
  have hs := hf s
  cases h1 : f s with
  | error e =>
      cases h2 : f s.erased with
      | error e' => simpa [h1, h2, Except.map, Except.bind] using hs
      | ok t => simp [h1, h2, Except.map] at hs
  | ok t =>
      cases h2 : f s.erased with
      | error e => simp [h1, h2, Except.map] at hs
      | ok t' =>
          have ht : t'.erased = t.erased := by simpa [h1, h2, Except.map] using hs
          simp only [h1, h2, Except.bind]
          rw [← hg t', ← hg t, ht]

end Blind

theorem opDependencies_erased (s : GraphState rt) (op : ProposalOperation rt) :
    opDependencies s.erased op = opDependencies s op := by
  cases op with
  | removeRelations legacy ids =>
      have h : ∀ id, s.erased.edges.get? id = (s.edges.get? id).map Edge.erased := fun id =>
        Dict.get?_map ..
      simp only [opDependencies, h, Prod.mk.injEq, and_true]
      induction ids with
      | nil => rfl
      | cons id ids ih =>
          cases hid : s.edges.get? id with
          | none => simpa [List.filterMap_cons, hid] using ih
          | some e => simpa [List.filterMap_cons, hid, Edge.erased] using ih
  | _ => rfl

theorem opEdgeDependencies_erased (s : GraphState rt) (op : ProposalOperation rt) :
    opEdgeDependencies s.erased op = opEdgeDependencies s op := by
  cases op with
  | removal legacy ids =>
      simp [opEdgeDependencies, GraphState.erased, Dict.values, Dict.map, List.filter_map,
        Function.comp_def, Edge.erased]
  | _ => rfl

theorem proposalDependencies_erased (s : GraphState rt) (ops : List (ProposalOperation rt)) :
    proposalDependencies s.erased ops = proposalDependencies s ops := by
  have hedges : opEdgeDependencies s.erased = opEdgeDependencies s :=
    funext (opEdgeDependencies_erased s)
  simp only [proposalDependencies, opDependencies_erased, hedges]

theorem recordBeliefTransition_erased (s : GraphState rt) (n m : ProjectNode rt) (r : Nat)
    (cause : Option BeliefCause) :
    recordBeliefTransition s.erased n m r cause = (recordBeliefTransition s n m r cause).erased := by
  unfold recordBeliefTransition
  cases cause with
  | none => rfl
  | some c =>
      simp only
      split <;> rfl

theorem blind_updateNode (p : Patch rt) (generated : Bool) (u : NodeUpdate) :
    Blind (updateNode p generated u) := by
  intro s
  have hat : nodeAt s.erased u.id = nodeAt s u.id := rfl
  simp only [updateNode, hat, bind, Except.bind]
  cases nodeAt s u.id with
  | error e => rfl
  | ok n =>
      simp only
      split
      · rfl
      · simp only [pure, Except.pure]
        cases n.revise p.coercions u.changes p.revision
            (if p.kind = .approval then n.standing else .asserted) with
        | error e => rfl
        | ok m =>
            simp only [Except.map, recordBeliefTransition_erased]
            simp [GraphState.erased]

theorem blind_createEdge (revision : Nat) (raw : NewEdge) :
    Blind (createEdge revision raw : GraphState rt → Except String (GraphState rt)) := by
  intro s
  have ho : s.erased.ontology = s.ontology := rfl
  simp only [createEdge, ho]
  split
  · rfl
  · rfl
  · simp only [Except.map, GraphState.erased, Dict.map_insert, map_erased_idem]
    rfl

theorem blind_retireNode (p : Patch rt) (id : String) (cause : Option BeliefCause) :
    Blind (retireNode p id cause) := by
  intro s
  have hat : nodeAt s.erased id = nodeAt s id := rfl
  simp only [retireNode, hat, bind, Except.bind]
  cases nodeAt s id with
  | error e => rfl
  | ok n =>
      simp only [pure, Except.pure]
      cases n.retire p.revision (p.kind = .approval) with
      | error e => rfl
      | ok m =>
          have hset : { s.erased with nodes := s.erased.nodes.insert id m } =
              { s with nodes := s.nodes.insert id m }.erased := rfl
          simp [Except.map, hset, recordBeliefTransition_erased, GraphState.erased_erased]

theorem blind_addEdge (e : Edge) : Blind fun s : GraphState rt => .ok (addEdge e s) := by
  refine blind_ok _ fun s => ?_
  simp [addEdge, GraphState.erased, Dict.map_insert]

theorem blind_supersedeNode (p : Patch rt) (item : SupersedeNode) :
    Blind (supersedeNode p item) := by
  refine (blind_retireNode p item.id item.cause).seq ?_
  cases item.supersededBy with
  | none => exact blind_ok _ fun s => s.erased_erased
  | some target =>
      by_cases h : target = ""
      · simp only [h, if_true]
        exact blind_ok _ fun s => s.erased_erased
      · simp only [h, if_false]
        exact blind_addEdge _

theorem blind_mergeNode (p : Patch rt) (item : NodeMerge) : Blind (mergeNode p item) :=
  (blind_retireNode p item.duplicate item.cause).seq (blind_addEdge _)

theorem blind_resolveAmbiguity (r : AmbiguityResolution) :
    Blind (resolveAmbiguity r : GraphState rt → Except String (GraphState rt)) := by
  intro s
  have ha : s.erased.ambiguities = s.ambiguities := rfl
  simp only [resolveAmbiguity, ha]
  cases s.ambiguities.get? r.id with
  | none => rfl
  | some a => simp [Except.map, GraphState.erased]

theorem createProposal_erased (p : Patch rt) (raw : NewProposal rt) (s : GraphState rt) :
    (createProposal p raw s.erased).erased = (createProposal p raw s).erased := by
  simp only [createProposal, proposalDependencies_erased]
  simp [GraphState.erased]

theorem blind_resolveProposal (p : Patch rt) (r : ProposalResolution) :
    Blind (resolveProposal p r) := by
  intro s
  have hat : proposalAt s.erased r.id = proposalAt s r.id := rfl
  simp only [resolveProposal, hat, bind, Except.bind]
  cases proposalAt s r.id with
  | error e => rfl
  | ok q => simp [Except.map, pure, Except.pure, GraphState.erased]

theorem blind_withdrawProposal (p : Patch rt) (w : ProposalWithdrawal) :
    Blind (withdrawProposal p w) := by
  intro s
  have hat : proposalAt s.erased w.id = proposalAt s w.id := rfl
  simp only [withdrawProposal, hat, bind, Except.bind]
  cases proposalAt s w.id with
  | error e => rfl
  | ok q => simp [Except.map, pure, Except.pure, GraphState.erased]

theorem blind_setStanding (revision : Nat) (id : String) (standing : Standing) :
    Blind (setStanding revision id standing : GraphState rt → Except String (GraphState rt)) := by
  intro s
  have hat : nodeAt s.erased id = nodeAt s id := rfl
  simp only [setStanding, hat, bind, Except.bind]
  cases nodeAt s id with
  | error e => rfl
  | ok n => simp [Except.map, pure, Except.pure, GraphState.erased]

theorem foldl_erase_erased (ids : List String) (d : Dict String Edge) :
    ((ids.foldl Dict.erase (d.map fun _ e => e.erased)).map fun _ e => e.erased) =
      (ids.foldl Dict.erase d).map fun _ e => e.erased := by
  induction ids generalizing d with
  | nil => simp
  | cons id ids ih =>
      simp only [List.foldl_cons]
      rw [← Dict.map_erase, ih]

/-- No operation reads edge layers or the watermark. -/
theorem blind_applyOp (p : Patch rt) (generated : Bool) (op : GraphOperation rt) :
    Blind (applyOp p generated op) := by
  cases op with
  | createNodes nodes =>
      exact blind_fold _ nodes fun raw s => by simp [createNode, GraphState.erased]
  | updateNodes updates => exact blind_run _ updates fun u _ => blind_updateNode p generated u
  | createEdges edges => exact blind_run _ edges fun e _ => blind_createEdge p.revision e
  | removeEdges ids =>
      refine blind_ok _ fun s => ?_
      simp [removeEdges, GraphState.erased, foldl_erase_erased]
  | removeNodes ids =>
      refine blind_ok _ fun s => ?_
      have h : ∀ d : Dict String Edge,
          ((d.map fun _ e => e.erased).filter fun _ e => e.source ∉ ids && e.target ∉ ids) =
            (d.filter fun _ e => e.source ∉ ids && e.target ∉ ids).map fun _ e => e.erased :=
        fun d => (Dict.map_filter d _ _ _ fun _ _ => rfl).symm
      simp only [removeNodes, GraphState.erased]
      rw [h, map_erased_idem]
  | supersedeNodes items => exact blind_run _ items fun i _ => blind_supersedeNode p i
  | mergeNodes merges => exact blind_run _ merges fun m _ => blind_mergeNode p m
  | createAmbiguities as =>
      exact blind_fold _ as fun raw s => by simp [createAmbiguity, GraphState.erased]
  | resolveAmbiguities rs => exact blind_run _ rs fun r _ => blind_resolveAmbiguity r
  | createProposals ps => exact blind_fold _ ps fun raw s => createProposal_erased p raw s
  | resolveProposals rs => exact blind_run _ rs fun r _ => blind_resolveProposal p r
  | withdrawProposals ws => exact blind_run _ ws fun w _ => blind_withdrawProposal p w
  | upsertGlossary terms =>
      exact blind_fold _ terms fun raw s => by simp [upsertTerm, GraphState.erased]
  | setCoverage c => exact blind_ok _ fun s => s.erased_erased
  | setStanding id standing => exact blind_setStanding p.revision id standing
  | setProjectTruthScope scope repository =>
      exact blind_ok _ fun s => by simp [GraphState.erased]
  | setOntology o => exact blind_ok _ fun s => by simp [GraphState.erased]

/-- Deriving layers again changes nothing else. -/
theorem relayerEdge_alike (id : String) (s : GraphState rt) : Alike (relayerEdge id s) s := by
  unfold relayerEdge
  split
  · exact .refl s
  next e he =>
    simp only
    split
    · exact .refl s
    · have hmap : (s.edges.insert id { e with layer := edgeLayer s e.source e.target e.layer }).map
            (fun _ e => e.erased) = s.edges.map fun _ e => e.erased := by
        rw [Dict.map_insert]
        refine Dict.insert_of_get? _ id _ ?_
        simp [he, Edge.erased]
      simp [Alike, GraphState.erased, hmap]

theorem relayer_alike (ids : List String) (s : GraphState rt) : Alike (relayer ids s) s := by
  have aux : ∀ (xs : List String) (s : GraphState rt),
      Alike (xs.foldl (fun s id => relayerEdge id s) s) s := by
    intro xs
    induction xs with
    | nil => exact fun s => .refl s
    | cons x xs ih => exact fun s => (ih _).trans (relayerEdge_alike x s)
  exact aux _ s

section Frame

/-- What no operation writes. -/
def GraphState.frame (s : GraphState rt) :
    Nat × List ValidationMessage × Option ReplayFailure × Option String :=
  (s.revision, s.validationMessages, s.replayFailure, s.lastRefreshAt)

theorem frame_recordBeliefTransition (s : GraphState rt) (n m : ProjectNode rt) (r : Nat)
    (cause : Option BeliefCause) : (recordBeliefTransition s n m r cause).frame = s.frame := by
  unfold recordBeliefTransition
  cases cause with
  | none => rfl
  | some c =>
      simp only
      split <;> rfl

theorem frame_updateNode (p : Patch rt) (generated : Bool) (u : NodeUpdate) (s t : GraphState rt)
    (h : updateNode p generated u s = .ok t) : t.frame = s.frame := by
  obtain ⟨n, m, -, -, -, rfl⟩ := updateNode_ok p generated u s t h
  exact frame_recordBeliefTransition s n m p.revision u.cause

theorem frame_createEdge (revision : Nat) (raw : NewEdge) (s t : GraphState rt)
    (h : createEdge revision raw s = .ok t) : t.frame = s.frame := by
  obtain ⟨id, declared, -, -, rfl⟩ := createEdge_ok revision raw s t h
  rfl

theorem frame_retireNode (p : Patch rt) (id : String) (cause : Option BeliefCause)
    (s t : GraphState rt) (h : retireNode p id cause s = .ok t) : t.frame = s.frame := by
  obtain ⟨n, m, -, -, rfl⟩ := retireNode_ok p id cause s t h
  exact frame_recordBeliefTransition _ n m p.revision cause

theorem frame_supersedeNode (p : Patch rt) (item : SupersedeNode) (s t : GraphState rt)
    (h : supersedeNode p item s = .ok t) : t.frame = s.frame := by
  obtain ⟨u, hu, rfl⟩ := supersedeNode_ok p item s t h
  rw [← frame_retireNode p item.id item.cause s u hu]
  cases item.edge? p.revision <;> rfl

theorem frame_mergeNode (p : Patch rt) (item : NodeMerge) (s t : GraphState rt)
    (h : mergeNode p item s = .ok t) : t.frame = s.frame := by
  obtain ⟨u, hu, rfl⟩ := mergeNode_ok p item s t h
  exact frame_retireNode p item.duplicate item.cause s u hu

theorem frame_resolveAmbiguity (r : AmbiguityResolution) (s t : GraphState rt)
    (h : resolveAmbiguity r s = .ok t) : t.frame = s.frame := by
  obtain ⟨as, rfl⟩ := resolveAmbiguity_ok r s t h
  rfl

theorem frame_resolveProposal (p : Patch rt) (r : ProposalResolution) (s t : GraphState rt)
    (h : resolveProposal p r s = .ok t) : t.frame = s.frame := by
  obtain ⟨q, q', -, -, rfl⟩ := resolveProposal_ok p r s t h
  rfl

theorem frame_withdrawProposal (p : Patch rt) (w : ProposalWithdrawal) (s t : GraphState rt)
    (h : withdrawProposal p w s = .ok t) : t.frame = s.frame := by
  obtain ⟨q, q', -, -, rfl⟩ := withdrawProposal_ok p w s t h
  rfl

theorem frame_setStanding (revision : Nat) (id : String) (standing : Standing)
    (s t : GraphState rt) (h : setStanding revision id standing s = .ok t) :
    t.frame = s.frame := by
  obtain ⟨n, -, rfl⟩ := setStanding_ok revision id standing s t h
  rfl

theorem foldl_constant {α β : Type} (f : α → GraphState rt → GraphState rt)
    (g : GraphState rt → β) (h : ∀ a s, g (f a s) = g s) (as : List α) (s : GraphState rt) :
    g (as.foldl (fun s a => f a s) s) = g s := by
  induction as generalizing s with
  | nil => rfl
  | cons a as ih => exact (ih (f a s)).trans (h a s)

/-- Revision, messages, failure and watermark are not an operation's business. -/
theorem frame_applyOp (p : Patch rt) (generated : Bool) (op : GraphOperation rt)
    (s t : GraphState rt) (h : applyOp p generated op s = .ok t) : t.frame = s.frame := by
  cases op with
  | createNodes nodes =>
      cases h
      exact foldl_constant (createNode p.revision) _ (fun raw s => rfl) nodes s
  | updateNodes updates =>
      exact Steps.run_constant _ _ updates (fun u _ => frame_updateNode p generated u) s t h
  | createEdges edges =>
      exact Steps.run_constant _ _ edges (fun e _ => frame_createEdge p.revision e) s t h
  | removeEdges ids | removeNodes ids =>
      cases h
      rfl
  | supersedeNodes items =>
      exact Steps.run_constant _ _ items (fun i _ => frame_supersedeNode p i) s t h
  | mergeNodes merges =>
      exact Steps.run_constant _ _ merges (fun m _ => frame_mergeNode p m) s t h
  | createAmbiguities as =>
      cases h
      exact foldl_constant (createAmbiguity p.revision) _ (fun raw s => rfl) as s
  | resolveAmbiguities rs =>
      exact Steps.run_constant _ _ rs (fun r _ => frame_resolveAmbiguity r) s t h
  | createProposals ps =>
      cases h
      exact foldl_constant (createProposal p) _ (fun raw s => rfl) ps s
  | resolveProposals rs =>
      exact Steps.run_constant _ _ rs (fun r _ => frame_resolveProposal p r) s t h
  | withdrawProposals ws =>
      exact Steps.run_constant _ _ ws (fun w _ => frame_withdrawProposal p w) s t h
  | upsertGlossary terms =>
      cases h
      exact foldl_constant (upsertTerm p.revision) _ (fun raw s => rfl) terms s
  | setStanding id standing => exact frame_setStanding p.revision id standing s t h
  | setCoverage c | setProjectTruthScope scope repository | setOntology o =>
      cases h
      rfl

theorem revision_applyOp (p : Patch rt) (generated : Bool) (op : GraphOperation rt)
    (s t : GraphState rt) (h : applyOp p generated op s = .ok t) : t.revision = s.revision :=
  congrArg Prod.fst (frame_applyOp p generated op s t h)

end Frame

/-- The fields of a patch that its operations read. -/
def Patch.applies (p : Patch rt) :
    Nat × PatchKind × SchemaGeneration × Option Author × Option String :=
  (p.revision, p.kind, p.schemaGeneration, p.author, p.sourceOperationId)

theorem updateNode_congr (p q : Patch rt) (h : p.applies = q.applies) :
    (updateNode p : Bool → NodeUpdate → _) = updateNode q := by
  simp only [Patch.applies, Prod.mk.injEq] at h
  obtain ⟨hr, hk, hg, ha, hs⟩ := h
  funext generated u s
  have hf : forbiddenFields p generated = forbiddenFields q generated := by
    simp only [forbiddenFields, hg]
  have hc : p.coercions = q.coercions := by simp only [Patch.coercions, hg]
  simp only [updateNode, hf, hc, hr, hk]

theorem retireNode_congr (p q : Patch rt) (h : p.applies = q.applies) :
    (retireNode p : String → _) = retireNode q := by
  simp only [Patch.applies, Prod.mk.injEq] at h
  obtain ⟨hr, hk, hg, ha, hs⟩ := h
  funext id cause s
  simp only [retireNode, hr, hk]

/-- An operation means the same in every patch of the same envelope. -/
theorem applyOp_congr (p q : Patch rt) (h : p.applies = q.applies) (generated : Bool)
    (op : GraphOperation rt) : applyOp p generated op = applyOp q generated op := by
  have hu := updateNode_congr p q h
  have ht := retireNode_congr p q h
  simp only [Patch.applies, Prod.mk.injEq] at h
  obtain ⟨hr, hk, hg, ha, hs⟩ := h
  funext s
  cases op with
  | updateNodes updates => simp only [applyOp, hu]
  | supersedeNodes items =>
      have hstep : supersedeNode p = supersedeNode q := by
        funext item s
        simp only [supersedeNode, ht, hr]
      simp only [applyOp, hstep]
  | mergeNodes merges =>
      have hstep : mergeNode p = mergeNode q := by
        funext item s
        simp only [mergeNode, ht, hr]
      simp only [applyOp, hstep]
  | createProposals ps =>
      have hstep : createProposal p = createProposal q := by
        funext raw s
        simp only [createProposal, Patch.actor, hr, ha, hs]
      simp only [applyOp, hstep]
  | resolveProposals rs =>
      have hstep : resolveProposal p = resolveProposal q := by
        funext r s
        simp only [resolveProposal, Patch.actor, hr, ha, hs]
      simp only [applyOp, hstep]
  | withdrawProposals ws =>
      have hstep : withdrawProposal p = withdrawProposal q := by
        funext w s
        simp only [withdrawProposal, hr, hs]
      simp only [applyOp, hstep]
  | _ => simp only [applyOp, hr]

theorem stamp_alike (p : Patch rt) (s : GraphState rt) (r : Nat) :
    Alike { stamp p s with revision := r } { s with revision := r } := rfl

/-- What staging one operation did, layers and watermark aside. -/
theorem applyPatch_single (p : Patch rt) (generated : List Nat) (op : GraphOperation rt)
    (s t : GraphState rt) (h : applyPatch { p with ops := [op] } generated s = .ok t) :
    ∃ u, applyOp p (decide (0 ∈ generated)) op s = .ok u ∧
      t = stamp p (relayer (createdEdgeIds op) u) := by
  simp only [applyPatch, List.zipIdx_cons, List.zipIdx_nil, bind, Except.bind, pure,
    Except.pure] at h
  have hc : applyOp { p with ops := [op] } (decide (0 ∈ generated)) op =
      applyOp p (decide (0 ∈ generated)) op := applyOp_congr _ _ rfl _ op
  cases hu : applyOp p (decide (0 ∈ generated)) op s with
  | error e => simp [Steps.run, hc, hu] at h
  | ok u =>
      refine ⟨u, rfl, ?_⟩
      simpa [Steps.run, hc, hu, stamp] using h.symm

theorem staged_alike (p : Patch rt) (ids : List String) (s u : GraphState rt)
    (h : u.revision = s.revision) :
    Alike { stamp p (relayer ids u) with revision := s.revision } u := by
  refine (stamp_alike p _ _).trans ?_
  have hr : (relayer ids u).revision = s.revision := (relayer_alike ids u).revision.trans h
  rw [← hr]
  exact relayer_alike ids u

/-- Staging one operation is applying it, layers and watermark aside. -/
theorem applyValidOperation_ok (s : GraphState rt) (p : Patch rt) (op : GraphOperation rt)
    (t : GraphState rt) (h : applyValidOperation s p op = .ok t) :
    ∃ u, applyOp p (decide (0 ∈ p.generatedIndexes)) op s = .ok u ∧ Alike t u := by
  simp only [applyValidOperation, bind, Except.bind, pure, Except.pure] at h
  cases ht : applyPatch { p with ops := [op] } p.generatedIndexes s with
  | error e => simp [ht] at h
  | ok t' =>
      obtain ⟨u, hu, rfl⟩ := applyPatch_single p _ op s t' ht
      simp only [ht, Except.ok.injEq] at h
      rw [← h]
      exact ⟨u, hu, staged_alike p _ s u (revision_applyOp p _ op s u hu)⟩

/-- Staging a generated operation is applying it with the generated privilege. -/
theorem applyTransitionGeneratedOperation_ok (s : GraphState rt) (p : Patch rt)
    (op : GraphOperation rt) (t : GraphState rt)
    (h : applyTransitionGeneratedOperation s p op = .ok t) :
    ∃ u, applyOp p true op s = .ok u ∧ Alike t u := by
  simp only [applyTransitionGeneratedOperation, bind, Except.bind, pure, Except.pure] at h
  cases ht : applyPatch { p with ops := [op] } (0 :: p.generatedIndexes) s with
  | error e => simp [ht] at h
  | ok t' =>
      obtain ⟨u, hu, rfl⟩ := applyPatch_single p _ op s t' ht
      simp only [List.mem_cons, true_or, decide_true] at hu
      simp only [ht, Except.ok.injEq] at h
      rw [← h]
      exact ⟨u, hu, staged_alike p _ s u (revision_applyOp p _ op s u hu)⟩

/-- What a whole patch did: its operations in order, then layers and stamps. -/
theorem applyPatch_ok (p : Patch rt) (generated : List Nat) (s t : GraphState rt)
    (h : applyPatch p generated s = .ok t) :
    ∃ u, Steps.run (fun (op, i) => applyOp p (decide (i ∈ generated)) op) p.ops.zipIdx s = .ok u ∧
      t = stamp p (relayer (p.ops.flatMap createdEdgeIds) u) := by
  simp only [applyPatch, bind, Except.bind, pure, Except.pure] at h
  cases hu : Steps.run (fun (op, i) => applyOp p (decide (i ∈ generated)) op) p.ops.zipIdx s with
  | error e => simp [hu] at h
  | ok u =>
      simp only [hu, Except.ok.injEq] at h
      exact ⟨u, rfl, h.symm⟩

end RcpGraph
