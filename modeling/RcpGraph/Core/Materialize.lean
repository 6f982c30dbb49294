import RcpGraph.Core.Ontology
import RcpGraph.Lib.Steps

/-!
Application of patches. `applyOp` is the effect of one operation; `applyPatch`
runs the operations of a patch in order, derives the layers of the edges it
created once more from the finished graph, and stamps revision and watermark.
-/

namespace RcpGraph

open Schema

variable {rt : Runtime}

/-- `IMMUTABLE_NODE_UPDATE_FIELDS`. -/
def immutableNodeUpdateFields : List String :=
  [ "id", "extension_type", "standing", "created_rev", "updated_rev", "type",
    "current_summary_stale", "next_action_stale", "legacy_strength" ]

/-- `LEGACY_COMPATIBILITY_UPDATE_FIELDS`. -/
def legacyCompatibilityUpdateFields : List String :=
  ["current_summary_stale", "next_action_stale", "legacy_strength"]

def guidanceStaleFields : List String := ["current_summary_stale", "next_action_stale"]

/-- The nodes and configuration keys one Proposal operation depends on, as the
operation registry declares them. -/
def opDependencies (s : GraphState rt) : ProposalOperation rt → List String × List String
  | .contentChange _ nodes | .statusChange _ nodes =>
      (nodes.map (·.id),
        nodes.filterMap fun u => if "extension_fields" ∈ u.changes then some "ontology" else none)
  | .standingChange nodeId _ => ([nodeId], [])
  | .removal _ nodeIds => (nodeIds, [])
  | .supersede _ nodes => (nodes.flatMap fun i => i.id :: i.supersededBy.toList, [])
  | .merge _ merges => (merges.flatMap fun m => [m.duplicate, m.canonical], [])
  | .createRelations _ edges => (edges.flatMap fun e => [e.source, e.target], [])
  | .removeRelations _ edgeIds =>
      ((edgeIds.filterMap s.edges.get?).flatMap fun e => [e.source, e.target], [])
  | .legacyTruthScope _ _ => ([], ["project_truth_scope"])
  | .legacyOntology _ => ([], ["ontology"])
  | .legacyCreateAmbiguities ambiguities => (ambiguities.flatMap (·.relatedNodeIds), [])
  | .legacyResolveAmbiguities resolutions =>
      ((resolutions.filterMap fun r => s.ambiguities.get? r.id).flatMap (·.relatedNodeIds), [])
  | .legacyCreateNodes _ | .legacyUpsertGlossary _ | .legacySetCoverage _ => ([], [])

/-- The edge and node references of the causes a Proposal operation cites. -/
def opCauses : ProposalOperation rt → List BeliefCause
  | .contentChange _ nodes | .statusChange _ nodes => nodes.filterMap (·.cause)
  | _ => []

def opEdgeDependencies (s : GraphState rt) (op : ProposalOperation rt) : List String :=
  (match op with
    | .removeRelations _ edgeIds => edgeIds
    | .removal _ nodeIds =>
        (s.edges.values.filter fun e =>
          decide (e.source ∈ nodeIds) || decide (e.target ∈ nodeIds)).map (·.id)
    | _ => []) ++
  (opCauses op).filterMap fun
    | .evidenceEdge ref => some ref
    | _ => none

def opCauseNodes (op : ProposalOperation rt) : List String :=
  (opCauses op).filterMap fun
    | .decision ref => some ref
    | _ => none

/-- `proposal_dependencies`: the graph objects and configuration whose exact state
a Proposal depends on. -/
def proposalDependencies (s : GraphState rt) (ops : List (ProposalOperation rt)) :
    List String × List String × List String :=
  (Text.sortedSet (ops.flatMap fun op => (opDependencies s op).1 ++ opCauseNodes op),
    Text.sortedSet (ops.flatMap (opEdgeDependencies s)),
    Text.sortedSet (ops.flatMap fun op => (opDependencies s op).2))

/-- `state.nodes[id]`; a missing key is the text of its `KeyError`. -/
def nodeAt (s : GraphState rt) (id : String) : Except String (ProjectNode rt) :=
  match s.nodes.get? id with
  | some n => .ok n
  | none => .error (Text.quoted id)

def proposalAt (s : GraphState rt) (id : String) : Except String (Proposal rt) :=
  match s.proposals.get? id with
  | some p => .ok p
  | none => .error (Text.quoted id)

/-- `_record_belief_transition`. -/
def recordBeliefTransition (s : GraphState rt) (previous updated : ProjectNode rt)
    (revision : Nat) (cause : Option BeliefCause) : GraphState rt :=
  match cause with
  | none => s
  | some cause =>
      if previous.type.isBelief && updated.type.isBelief &&
          previous.text "status" ≠ updated.text "status" then
        { s with
          beliefTransitions := s.beliefTransitions ++
            [⟨previous.id, previous.text "status", updated.text "status", revision, cause⟩] }
      else s

def createNode (revision : Nat) (raw : RawNode rt) (s : GraphState rt) : GraphState rt :=
  { s with nodes := s.nodes.insert raw.id (raw.create revision) }

/-- The fields an update of this patch may not name. -/
def forbiddenFields (p : Patch rt) (generated : Bool) : List String :=
  match p.schemaGeneration with
  | .one => immutableNodeUpdateFields.filter fun f => f ∉ legacyCompatibilityUpdateFields
  | .two =>
      if generated then immutableNodeUpdateFields.filter fun f => f ∉ guidanceStaleFields
      else immutableNodeUpdateFields

def Patch.coercions (p : Patch rt) : Coercions :=
  match p.schemaGeneration with
  | .one => rt.lax
  | .two => strict

def updateNode (p : Patch rt) (generated : Bool) (u : NodeUpdate) (s : GraphState rt) :
    Except String (GraphState rt) := do
  let node ← nodeAt s u.id
  let immutable := Text.sortedSet (u.changes.keys.filter fun f => f ∈ forbiddenFields p generated)
  if immutable ≠ [] then
    throw ("node updates cannot change system fields: " ++ Text.join ", " immutable)
  let updated ← node.revise p.coercions u.changes p.revision
    (if p.kind = .approval then node.standing else .asserted)
  let s := recordBeliefTransition s node updated p.revision u.cause
  pure { s with nodes := s.nodes.insert node.id updated }

/-- The layer an edge gets before its endpoints are looked at. -/
def declaredLayer (ontology : OntologyState) (relation : String) : Option RelationLayer :=
  match relationSpec? relation with
  | some spec => some spec.layer
  | none => (customRelation ontology relation).map (·.layer)

/-- The id of the edge a payload creates, when it is well formed. -/
def NewEdge.writtenId (e : NewEdge) : Option String :=
  match e.id with
  | none => some (derivedEdgeId e.source e.relation e.target)
  | some id => id

def createEdge (revision : Nat) (raw : NewEdge) (s : GraphState rt) :
    Except String (GraphState rt) :=
  match raw.writtenId, declaredLayer s.ontology raw.relation with
  | none, _ => .error "Input should be a valid string"
  | _, none => .error "Field required"
  | some id, some declared =>
      .ok
        { s with
          edges := s.edges.insert id
            { id := id
              source := raw.source
              target := raw.target
              relation := raw.relation
              layer := edgeLayer s raw.source raw.target declared
              explanation := raw.explanation.getD ""
              assessment := raw.assessment.join.map Assessment.full
              expectation := raw.expectation.join
              createdRev := revision } }

def removeEdges (edgeIds : List String) (s : GraphState rt) : GraphState rt :=
  { s with edges := edgeIds.foldl Dict.erase s.edges }

def removeNodes (nodeIds : List String) (s : GraphState rt) : GraphState rt :=
  { s with
    nodes := s.nodes.filter fun id _ => id ∉ nodeIds
    edges := s.edges.filter fun _ e => e.source ∉ nodeIds && e.target ∉ nodeIds }

/-- Retire one node and record what that says about a belief. -/
def retireNode (p : Patch rt) (id : String) (cause : Option BeliefCause) (s : GraphState rt) :
    Except String (GraphState rt) := do
  let previous ← nodeAt s id
  let retired ← previous.retire p.revision (p.kind = .approval)
  pure (recordBeliefTransition { s with nodes := s.nodes.insert id retired } previous retired
    p.revision cause)

/-- The edge that supersede and merge add between two nodes. -/
def generatedEdge (source relation target explanation : String) (revision : Nat) : Edge where
  id := derivedEdgeId source relation target
  source := source
  target := target
  relation := relation
  layer := .metaLayer
  explanation := explanation
  assessment := none
  expectation := none
  createdRev := revision

def addEdge (e : Edge) (s : GraphState rt) : GraphState rt :=
  { s with edges := s.edges.insert e.id e }

def supersedeNode (p : Patch rt) (item : SupersedeNode) (s : GraphState rt) :
    Except String (GraphState rt) := do
  let s ← retireNode p item.id item.cause s
  match item.supersededBy with
  | none => pure s
  | some target =>
      if target = "" then pure s
      else pure (addEdge (generatedEdge item.id "supersedes" target item.explanation p.revision) s)

def mergeNode (p : Patch rt) (item : NodeMerge) (s : GraphState rt) :
    Except String (GraphState rt) := do
  let s ← retireNode p item.duplicate item.cause s
  pure (addEdge
    (generatedEdge item.duplicate "duplicate_of" item.canonical item.explanation p.revision) s)

def createAmbiguity (revision : Nat) (raw : NewAmbiguity) (s : GraphState rt) : GraphState rt :=
  { s with ambiguities := s.ambiguities.insert raw.id { raw with raisedRev := revision } }

def resolveAmbiguity (r : AmbiguityResolution) (s : GraphState rt) :
    Except String (GraphState rt) :=
  match s.ambiguities.get? r.id with
  | none => .error (Text.quoted r.id)
  | some a =>
      .ok
        { s with
          ambiguities := s.ambiguities.insert a.id
            { a with status := if r.dismissed then .dismissed else .resolved } }

/-- The author a resolution or a filing is attributed to. -/
def Patch.actor (p : Patch rt) : Author := if p.author = some .human then .human else .agent

def createProposal (p : Patch rt) (raw : NewProposal rt) (s : GraphState rt) : GraphState rt :=
  let deps := proposalDependencies s raw.proposal.ops
  let proposal :=
    { raw.proposal with
      baseRev := s.revision
      relatedNodeIds := deps.1
      relatedEdgeIds := deps.2.1
      relatedConfigKeys := deps.2.2
      createdBy := if raw.createdBySet then raw.proposal.createdBy else p.actor
      createdByOperationId :=
        if raw.createdByOperationIdSet then raw.proposal.createdByOperationId
        else p.sourceOperationId
      raisedRev := p.revision }
  { s with proposals := s.proposals.insert proposal.id proposal }

def resolveProposal (p : Patch rt) (r : ProposalResolution) (s : GraphState rt) :
    Except String (GraphState rt) := do
  let proposal ← proposalAt s r.id
  pure
    { s with
      proposals := s.proposals.insert proposal.id
        { proposal with
          status := r.status.toProposalStatus
          resolvedRev := some p.revision
          resolvedBy := some p.actor
          resolvedByOperationId := p.sourceOperationId
          resolutionReason := r.reason
          rejectionReason := if r.status = .rejected then r.reason else none } }

def withdrawProposal (p : Patch rt) (w : ProposalWithdrawal) (s : GraphState rt) :
    Except String (GraphState rt) := do
  let proposal ← proposalAt s w.id
  pure
    { s with
      proposals := s.proposals.insert proposal.id
        { proposal with
          status := .withdrawn
          resolvedRev := some p.revision
          resolvedBy := some .agent
          resolvedByOperationId := p.sourceOperationId
          resolutionReason := some w.reason } }

def upsertTerm (revision : Nat) (raw : NewGlossaryTerm) (s : GraphState rt) : GraphState rt :=
  { s with glossary := s.glossary.insert raw.term { raw with updatedRev := revision } }

def setStanding (revision : Nat) (nodeId : String) (standing : Standing) (s : GraphState rt) :
    Except String (GraphState rt) := do
  let node ← nodeAt s nodeId
  pure { s with nodes := s.nodes.insert node.id (node.withStanding standing revision) }

/-- The effect of one operation. -/
def applyOp (p : Patch rt) (generated : Bool) (op : GraphOperation rt) (s : GraphState rt) :
    Except String (GraphState rt) :=
  match op with
  | .createNodes nodes => .ok (nodes.foldl (fun s raw => createNode p.revision raw s) s)
  | .updateNodes updates => Steps.run (updateNode p generated) updates s
  | .createEdges edges => Steps.run (createEdge p.revision) edges s
  | .removeEdges edgeIds => .ok (removeEdges edgeIds s)
  | .removeNodes nodeIds => .ok (removeNodes nodeIds s)
  | .supersedeNodes items => Steps.run (supersedeNode p) items s
  | .mergeNodes merges => Steps.run (mergeNode p) merges s
  | .createAmbiguities ambiguities =>
      .ok (ambiguities.foldl (fun s raw => createAmbiguity p.revision raw s) s)
  | .resolveAmbiguities resolutions => Steps.run resolveAmbiguity resolutions s
  | .createProposals proposals => .ok (proposals.foldl (fun s raw => createProposal p raw s) s)
  | .resolveProposals resolutions => Steps.run (resolveProposal p) resolutions s
  | .withdrawProposals proposals => Steps.run (withdrawProposal p) proposals s
  | .upsertGlossary terms => .ok (terms.foldl (fun s raw => upsertTerm p.revision raw s) s)
  | .setCoverage _ => .ok s
  | .setStanding nodeId standing => setStanding p.revision nodeId standing s
  | .setProjectTruthScope scope _ =>
      .ok
        { s with
          projectTruthScope := Text.sortedSet scope
          configRevisions := s.configRevisions.insert "project_truth_scope" p.revision }
  | .setOntology ontology =>
      .ok
        { s with
          ontology := ontology
          configRevisions := s.configRevisions.insert "ontology" p.revision }

/-- The ids of the edges an operation creates through `create_edges`. -/
def createdEdgeIds : GraphOperation rt → List String
  | .createEdges edges => edges.filterMap NewEdge.writtenId
  | _ => []

/-- Derive one edge's layer again from the graph as it is now. -/
def relayerEdge (id : String) (s : GraphState rt) : GraphState rt :=
  match s.edges.get? id with
  | none => s
  | some e =>
      let derived := edgeLayer s e.source e.target e.layer
      if derived = e.layer then s
      else { s with edges := s.edges.insert id { e with layer := derived } }

def relayer (ids : List String) (s : GraphState rt) : GraphState rt :=
  (Text.stableUnion ids).foldl (fun s id => relayerEdge id s) s

/-- Advance the revision and, for an ingestion patch, the watermark. -/
def stamp (p : Patch rt) (s : GraphState rt) : GraphState rt :=
  { s with
    revision := max s.revision p.revision
    lastRefreshAt :=
      if p.kind = .seed ∨ p.kind = .refresh then some p.createdAt else s.lastRefreshAt }

/-- The operation indexes the transition manager generated. -/
def Patch.generatedIndexes (p : Patch rt) : List Nat :=
  match p.transition with
  | none => []
  | some trace => trace.generatedActions.map (·.operationIndex)

/-- `_apply_patch` with the given generated operation indexes. -/
def applyPatch (p : Patch rt) (generated : List Nat) (s : GraphState rt) :
    Except String (GraphState rt) := do
  let s ← Steps.run (fun (op, i) => applyOp p (decide (i ∈ generated)) op) p.ops.zipIdx s
  pure (stamp p (relayer (p.ops.flatMap createdEdgeIds) s))

def applyValidPatch (s : GraphState rt) (p : Patch rt) : Except String (GraphState rt) :=
  applyPatch p p.generatedIndexes s

/-- Stage one operation without advancing the revision. -/
def applyValidOperation (s : GraphState rt) (p : Patch rt) (op : GraphOperation rt) :
    Except String (GraphState rt) := do
  let t ← applyPatch { p with ops := [op] } p.generatedIndexes s
  pure { t with revision := s.revision }

/-- Stage one operation that the transition manager generated. -/
def applyTransitionGeneratedOperation (s : GraphState rt) (p : Patch rt)
    (op : GraphOperation rt) : Except String (GraphState rt) := do
  let t ← applyPatch { p with ops := [op] } (0 :: p.generatedIndexes) s
  pure { t with revision := s.revision }

section Inversion

theorem nodeAt_ok (s : GraphState rt) (id : String) (n : ProjectNode rt) :
    nodeAt s id = .ok n ↔ s.nodes.get? id = some n := by
  unfold nodeAt
  cases s.nodes.get? id <;> simp

theorem proposalAt_ok (s : GraphState rt) (id : String) (q : Proposal rt) :
    proposalAt s id = .ok q ↔ s.proposals.get? id = some q := by
  unfold proposalAt
  cases s.proposals.get? id <;> simp

/-- What one update did. -/
theorem updateNode_ok (p : Patch rt) (generated : Bool) (u : NodeUpdate) (s t : GraphState rt)
    (h : updateNode p generated u s = .ok t) :
    ∃ n m, s.nodes.get? u.id = some n ∧
      (∀ f ∈ u.changes.keys, f ∉ forbiddenFields p generated) ∧
      n.revise p.coercions u.changes p.revision
        (if p.kind = .approval then n.standing else .asserted) = .ok m ∧
      t = { recordBeliefTransition s n m p.revision u.cause with
        nodes := (recordBeliefTransition s n m p.revision u.cause).nodes.insert n.id m } := by
  simp only [updateNode, bind, Except.bind, pure, Except.pure] at h
  cases hn : nodeAt s u.id with
  | error e => simp [hn] at h
  | ok n =>
      simp only [hn] at h
      split at h
      next => cases h
      next hf =>
        cases hm : n.revise p.coercions u.changes p.revision
            (if p.kind = .approval then n.standing else .asserted) with
        | error e => simp [hm] at h
        | ok m =>
            simp only [hm, Except.ok.injEq] at h
            refine ⟨n, m, (nodeAt_ok s u.id n).mp hn, ?_, hm, h.symm⟩
            simpa [Text.sortedSet_eq_nil] using hf

/-- What retiring one node did. -/
theorem retireNode_ok (p : Patch rt) (id : String) (cause : Option BeliefCause)
    (s t : GraphState rt) (h : retireNode p id cause s = .ok t) :
    ∃ n m, s.nodes.get? id = some n ∧ n.retire p.revision (p.kind = .approval) = .ok m ∧
      t = recordBeliefTransition { s with nodes := s.nodes.insert id m } n m p.revision cause := by
  simp only [retireNode, bind, Except.bind, pure, Except.pure] at h
  cases hn : nodeAt s id with
  | error e => simp [hn] at h
  | ok n =>
      simp only [hn] at h
      cases hm : n.retire p.revision (p.kind = .approval) with
      | error e => simp [hm] at h
      | ok m =>
          simp only [hm, Except.ok.injEq] at h
          exact ⟨n, m, (nodeAt_ok s id n).mp hn, hm, h.symm⟩

/-- The edge one supersession adds. -/
def SupersedeNode.edge? (item : SupersedeNode) (revision : Nat) : Option Edge :=
  (item.supersededBy.filter (· ≠ "")).map fun target =>
    generatedEdge item.id "supersedes" target item.explanation revision

theorem supersedeNode_ok (p : Patch rt) (item : SupersedeNode) (s t : GraphState rt)
    (h : supersedeNode p item s = .ok t) :
    ∃ u, retireNode p item.id item.cause s = .ok u ∧
      t = match item.edge? p.revision with
        | none => u
        | some e => addEdge e u := by
  simp only [supersedeNode, bind, Except.bind, pure, Except.pure] at h
  cases hu : retireNode p item.id item.cause s with
  | error e => simp [hu] at h
  | ok u =>
      refine ⟨u, rfl, ?_⟩
      simp only [hu] at h
      cases ht : item.supersededBy with
      | none => simpa [ht, SupersedeNode.edge?] using h.symm
      | some target =>
          by_cases he : target = ""
          · simpa [ht, he, SupersedeNode.edge?, Option.filter] using h.symm
          · simpa [ht, he, SupersedeNode.edge?, Option.filter] using h.symm

theorem mergeNode_ok (p : Patch rt) (item : NodeMerge) (s t : GraphState rt)
    (h : mergeNode p item s = .ok t) :
    ∃ u, retireNode p item.duplicate item.cause s = .ok u ∧
      t = addEdge (generatedEdge item.duplicate "duplicate_of" item.canonical item.explanation
        p.revision) u := by
  simp only [mergeNode, bind, Except.bind, pure, Except.pure] at h
  cases hu : retireNode p item.duplicate item.cause s with
  | error e => simp [hu] at h
  | ok u =>
      simp only [hu, Except.ok.injEq] at h
      exact ⟨u, rfl, h.symm⟩

theorem setStanding_ok (revision : Nat) (id : String) (standing : Standing) (s t : GraphState rt)
    (h : setStanding revision id standing s = .ok t) :
    ∃ n, s.nodes.get? id = some n ∧
      t = { s with nodes := s.nodes.insert n.id (n.withStanding standing revision) } := by
  simp only [setStanding, bind, Except.bind, pure, Except.pure] at h
  cases hn : nodeAt s id with
  | error e => simp [hn] at h
  | ok n =>
      simp only [hn, Except.ok.injEq] at h
      exact ⟨n, (nodeAt_ok s id n).mp hn, h.symm⟩

/-- The edge a payload writes into a graph. -/
def NewEdge.edgeIn (raw : NewEdge) (s : GraphState rt) (id : String) (declared : RelationLayer)
    (revision : Nat) : Edge where
  id := id
  source := raw.source
  target := raw.target
  relation := raw.relation
  layer := edgeLayer s raw.source raw.target declared
  explanation := raw.explanation.getD ""
  assessment := raw.assessment.join.map Assessment.full
  expectation := raw.expectation.join
  createdRev := revision

theorem createEdge_ok (revision : Nat) (raw : NewEdge) (s t : GraphState rt)
    (h : createEdge revision raw s = .ok t) :
    ∃ id declared, raw.writtenId = some id ∧ declaredLayer s.ontology raw.relation = some declared ∧
      t = addEdge (raw.edgeIn s id declared revision) s := by
  simp only [createEdge] at h
  split at h
  next => cases h
  next => cases h
  next id declared hid hd =>
    cases h
    exact ⟨id, declared, hid, hd, rfl⟩

theorem resolveProposal_ok (p : Patch rt) (r : ProposalResolution) (s t : GraphState rt)
    (h : resolveProposal p r s = .ok t) :
    ∃ q q', s.proposals.get? r.id = some q ∧ q'.id = q.id ∧
      t = { s with proposals := s.proposals.insert q.id q' } := by
  simp only [resolveProposal, bind, Except.bind, pure, Except.pure] at h
  cases hq : proposalAt s r.id with
  | error e => simp [hq] at h
  | ok q =>
      simp only [hq, Except.ok.injEq] at h
      refine ⟨q, _, (proposalAt_ok s r.id q).mp hq, ?_, h.symm⟩
      rfl

theorem withdrawProposal_ok (p : Patch rt) (w : ProposalWithdrawal) (s t : GraphState rt)
    (h : withdrawProposal p w s = .ok t) :
    ∃ q q', s.proposals.get? w.id = some q ∧ q'.id = q.id ∧
      t = { s with proposals := s.proposals.insert q.id q' } := by
  simp only [withdrawProposal, bind, Except.bind, pure, Except.pure] at h
  cases hq : proposalAt s w.id with
  | error e => simp [hq] at h
  | ok q =>
      simp only [hq, Except.ok.injEq] at h
      refine ⟨q, _, (proposalAt_ok s w.id q).mp hq, ?_, h.symm⟩
      rfl

theorem resolveAmbiguity_ok (r : AmbiguityResolution) (s t : GraphState rt)
    (h : resolveAmbiguity r s = .ok t) : ∃ as, t = { s with ambiguities := as } := by
  simp only [resolveAmbiguity] at h
  cases ha : s.ambiguities.get? r.id with
  | none => simp [ha] at h
  | some a =>
      simp only [ha, Except.ok.injEq] at h
      exact ⟨_, h.symm⟩

end Inversion

end RcpGraph
