import RcpGraph.Core.Transitions
import RcpGraph.Validation.Report

/-!
What a Proposal reads and what approving it writes. A pending Proposal is stale
when something it was filed against has moved, which is judged by revision stamps
and recorded ids; the footprint projects an approval on the current graph and
lists what it changes there.
-/

namespace RcpGraph

variable {rt : Runtime}

/-- `is_decision_choice`. -/
def isDecisionChoice (changes : Dict String Json) : Bool :=
  decide ("selected_option" ∈ changes) || decide (changed changes "status" = .str "decided")

/-- The one implied field accepted for a legacy Decision approval. -/
def normalizedDecisionUpdate (s : GraphState rt) (u : NodeUpdate) : NodeUpdate :=
  match s.typed? .decision u.id with
  | none => u
  | some n =>
      if changed u.changes "selected_option" ≠ .null ∧ "status" ∉ u.changes ∧
          n.text "status" ≠ "decided" then
        { u with changes := u.changes.insert "status" (.str "decided") }
      else u

/-- `normalized_decision_proposal_ops`. -/
def normalizedDecisionProposalOps (s : GraphState rt) (p : Proposal rt) :
    List (GraphOperation rt) :=
  p.ops.map fun op =>
    match op.toGraphOperation with
    | .updateNodes updates => .updateNodes (updates.map (normalizedDecisionUpdate s))
    | other => other

/-- The updates a Proposal operation makes. -/
def ProposalOperation.updates : ProposalOperation rt → List NodeUpdate
  | .contentChange _ nodes | .statusChange _ nodes => nodes
  | _ => []

/-- `proposal_updates_node`. -/
def proposalUpdatesNode (p : Proposal rt) (nodeId : String) : Bool :=
  p.ops.any fun op => op.updates.any fun u => decide (u.id = nodeId)

inductive ProposalResource where
  | node (id : String)
  | edge (id : String)
  | config (id : String)
  | incidentEdges (id : String)
  deriving DecidableEq, Repr

def explicitStandings (p : Proposal rt) : List String :=
  p.ops.filterMap fun
    | .standingChange id _ => some id
    | _ => none

/-- `_proposal_removal_targets`. -/
def proposalRemovalTargets (p : Proposal rt) : List String :=
  p.ops.flatMap fun
    | .removal false ids => ids
    | _ => []

/-- The node a single reviewed operation writes. -/
def reviewedSubject (p : Proposal rt) : ProposalOperation rt → Except String (List String)
  | .removal _ _ | .createRelations _ _ | .removeRelations _ _ => .ok []
  | .contentChange _ (u :: _) | .statusChange _ (u :: _) => .ok [u.id]
  | .supersede _ (i :: _) => .ok [i.id]
  | .merge _ (m :: _) => .ok [m.duplicate]
  | .contentChange _ [] | .statusChange _ [] | .supersede _ [] | .merge _ [] =>
      .error "list index out of range"
  | _ => .ok p.relatedNodeIds

/-- The nodes one operation of a connected review writes. -/
def writtenSubjects (p : Proposal rt) (op : ProposalOperation rt) : List String :=
  if op.isLegacy then p.relatedNodeIds
  else
    match op with
    | .contentChange _ nodes | .statusChange _ nodes => nodes.map (·.id)
    | .supersede _ nodes => nodes.map (·.id)
    | .merge _ merges => merges.map (·.duplicate)
    | _ => []

/-- `_proposal_approval_standing_targets`. -/
def approvalStandingTargets (p : Proposal rt) : Except String (List String) :=
  match p.dependencyRule with
  | .nodesAndEdges | .causeEvidence =>
      if explicitStandings p ≠ [] then .ok []
      else
        match p.ops with
        | [op] => if op.isLegacy then .ok p.relatedNodeIds else reviewedSubject p op
        | _ => .ok p.relatedNodeIds
  | .connectedReview =>
      .ok (Text.stableUnion ((p.ops.flatMap (writtenSubjects p)).filter fun id =>
        id ∉ explicitStandings p && id ∉ proposalRemovalTargets p))

/-- `proposal_approval_operations`: the exact ordered effects of an approval. -/
def proposalApprovalOperations (s : GraphState rt) (p : Proposal rt) (reason : Option String := none) :
    Except String (List (GraphOperation rt)) :=
  (approvalStandingTargets p).map fun targets =>
    normalizedDecisionProposalOps s p ++
      [.resolveProposals [{ id := p.id, status := .approved, reason := reason }]] ++
      targets.map fun id => .setStanding id .accepted

/-- `proposal_evidence_cause_edge_ids`, in order. -/
def evidenceCauseEdgeIds (p : Proposal rt) : List String :=
  Text.sortedSet (p.ops.flatMap fun op => op.updates.filterMap fun u =>
    match u.cause with
    | some (.evidenceEdge ref) => some ref
    | _ => none)

/-- `proposal_cause_evidence_sources`: each current cause edge with its Evidence. -/
def causeEvidenceSources (s : GraphState rt) (p : Proposal rt) : List (String × String) :=
  if p.dependencyRule.number < 2 then []
  else (evidenceCauseEdgeIds p).filterMap fun id => (s.edges.get? id).map fun e => (id, e.source)

def removedEdgeIds (p : Proposal rt) : List String :=
  p.ops.flatMap fun
    | .removeRelations _ ids => ids
    | _ => []

/-- `_proposal_reference_dependencies`: edges and Decisions named by the operations. -/
def referencedEdges (p : Proposal rt) : List String := removedEdgeIds p ++ evidenceCauseEdgeIds p

def referencedDecisions (p : Proposal rt) : List String :=
  Text.sortedSet (p.ops.flatMap opCauseNodes)

/-- `_proposal_created_edge_ids`. -/
def proposalCreatedEdgeIds (p : Proposal rt) : List String :=
  p.ops.flatMap fun
    | .createRelations false edges => edges.map NewEdge.edgeId
    | .supersede false nodes =>
        nodes.filterMap fun i => i.supersededBy.map fun t => derivedEdgeId i.id "supersedes" t
    | .merge false merges =>
        merges.map fun m => derivedEdgeId m.duplicate "duplicate_of" m.canonical
    | _ => []

/-- `ProposalIncidentEdges`. -/
structure ProposalIncidentEdges where
  nodeIds : List String
  edgeIds : List String
  deriving DecidableEq, Repr

/-- `_ProposalDependencyInputs`; sets are ordered lists. -/
structure ProposalDependencyInputs where
  nodeIds : List String
  edgeIds : List String
  configKeys : List String
  requiredAbsentEdgeIds : List String
  incidentSnapshots : List ProposalIncidentEdges
  decisionIds : List String
  causeEvidenceSources : List (String × String)

/-- Whether an edge touches one of the given nodes. -/
def Edge.touches (e : Edge) (ids : List String) : Bool :=
  decide (e.source ∈ ids) || decide (e.target ∈ ids)

/-- `_proposal_dependency_contract`. -/
def proposalDependencyContract (s : GraphState rt) (p : Proposal rt) (deriveUnfiled : Bool := false) :
    ProposalDependencyInputs :=
  let deps :=
    if deriveUnfiled && p.raisedRev = 0 then proposalDependencies s p.ops
    else (p.relatedNodeIds, p.relatedEdgeIds, p.relatedConfigKeys)
  let edges := deps.2.1
  let connected := decide (p.dependencyRule = .connectedReview)
  let targets := proposalRemovalTargets p
  { nodeIds := deps.1
    edgeIds := Text.sortedSet (edges ++ referencedEdges p)
    configKeys := deps.2.2
    requiredAbsentEdgeIds := Text.sortedSet ((proposalCreatedEdgeIds p).filter fun id =>
      !connected || decide (id ∉ removedEdgeIds p))
    incidentSnapshots :=
      if targets = [] then []
      else
        -- Under a connected review a recorded edge counts only while it touches a target.
        [{ nodeIds := targets
           edgeIds := edges.filter fun id =>
             !connected || (s.edges.get? id).any fun e => e.touches targets }]
    decisionIds := referencedDecisions p
    causeEvidenceSources := causeEvidenceSources s p }

/-- The revision a Proposal's dependencies are judged against. -/
def Proposal.dependencyRevision (p : Proposal rt) : Nat :=
  if p.raisedRev = 0 then p.baseRev else p.raisedRev

/-- A node that is gone or was updated after a revision. -/
def nodeMoved (s : GraphState rt) (revision : Nat) (id : String) : Bool :=
  match s.nodes.get? id with
  | none => true
  | some n => decide (revision < n.updatedRev)

def edgeMoved (s : GraphState rt) (revision : Nat) (id : String) : Bool :=
  match s.edges.get? id with
  | none => true
  | some e => decide (revision < e.createdRev)

/-- The ids in exactly one of an incident snapshot and the graph. -/
def incidentMoves (s : GraphState rt) (snapshot : ProposalIncidentEdges) : List String :=
  let current := (s.edges.values.filter fun e => e.touches snapshot.nodeIds).map (·.id)
  Text.sortedSet
    ((current.filter fun id => id ∉ snapshot.edgeIds) ++
      snapshot.edgeIds.filter fun id => id ∉ current)

/-- `moved_proposal_dependencies`. -/
def movedProposalDependencies (s : GraphState rt) (p : Proposal rt) : List String :=
  let revision := p.dependencyRevision
  let contract := proposalDependencyContract s p
  Text.stableUnion
    (contract.nodeIds.filter (nodeMoved s revision) ++
      contract.configKeys.filter (fun key => revision < s.configRevisions.getD key 0) ++
      contract.edgeIds.filter (edgeMoved s revision) ++
      contract.requiredAbsentEdgeIds.filter (fun id => decide (id ∈ s.edges)) ++
      contract.incidentSnapshots.flatMap (incidentMoves s) ++
      (contract.causeEvidenceSources.filter fun c =>
        !edgeMoved s revision c.1 && nodeMoved s revision c.2).map Prod.snd ++
      contract.decisionIds.filter fun id =>
        (s.typed? .decision id).isNone || nodeMoved s revision id)

/-- `proposal_is_stale`. -/
def proposalIsStale (s : GraphState rt) (p : Proposal rt) : Bool :=
  movedProposalDependencies s p ≠ []

/-- `ProposalDependenciesAndEffects` without the parts that no rule reads. -/
structure ProposalFootprint where
  dependencies : List ProposalResource
  effects : List ProposalResource
  deriving DecidableEq, Repr

/-- The reads of a Proposal. -/
def footprintDependencies (s : GraphState rt) (p : Proposal rt) : List ProposalResource :=
  let contract := proposalDependencyContract s p true
  (contract.nodeIds ++ contract.decisionIds ++ contract.causeEvidenceSources.map Prod.snd).map .node ++
    (contract.edgeIds ++ contract.requiredAbsentEdgeIds).map .edge ++
    contract.configKeys.map .config ++
    contract.incidentSnapshots.flatMap fun snapshot => snapshot.nodeIds.map .incidentEdges

/-- The keys at which two dictionaries differ. -/
def changedKeys {α : Type} [DecidableEq α] (before after : Dict String α) : List String :=
  (before.keys ++ after.keys).filter fun k => before.get? k ≠ after.get? k

/-- What changed between two graphs. -/
def stateEffects (before after : GraphState rt) : List ProposalResource :=
  (changedKeys before.nodes after.nodes).map .node ++
    (changedKeys before.edges after.edges).flatMap (fun id =>
      .edge id ::
        ((before.edges.get? id).toList ++ (after.edges.get? id).toList).flatMap fun e =>
          [.incidentEdges e.source, .incidentEdges e.target]) ++
    (changedKeys before.configRevisions after.configRevisions).map .config

/-- An unfiled draft gets the stamps its filing would give it. -/
def filedDraft (s : GraphState rt) (p : Proposal rt) : Proposal rt :=
  if p.raisedRev = 0 then
    let contract := proposalDependencyContract s p true
    { p with
      baseRev := s.revision
      raisedRev := s.revision
      relatedNodeIds := contract.nodeIds
      relatedEdgeIds := contract.edgeIds
      relatedConfigKeys := contract.configKeys }
  else p

/-- `_writes_decision_outcome`. -/
def writesDecisionOutcome (s : GraphState rt) (ops : List (GraphOperation rt)) : Bool :=
  ops.any fun
    | .updateNodes updates =>
        updates.any fun u => (s.typed? .decision u.id).isSome && isDecisionChoice u.changes
    | _ => false

/-- The approval patch a footprint inspects. -/
def inspectionPatch (s : GraphState rt) (p : Proposal rt) (ops : List (GraphOperation rt)) :
    Patch rt where
  revision := s.revision + 1
  kind := .approval
  author := some .human
  producer := .human
  createdAt := ""
  summary := "Inspect approval effects of " ++ p.id ++ "."
  ops := ops
  humanAction := if writesDecisionOutcome s ops then some .decisionChoice else none

/-- The graph a footprint's approval starts from. -/
def footprintState (s : GraphState rt) (p : Proposal rt) : GraphState rt :=
  { s with proposals := s.proposals.insert p.id (filedDraft s p) }

/-- `_proposal_effect_footprint` without validation. -/
def proposalEffectFootprint (s : GraphState rt) (p : Proposal rt) :
    Except String ProposalFootprint := do
  let draft := filedDraft s p
  let ops ← proposalApprovalOperations s draft
  match prepareValidated (footprintState s p) [inspectionPatch s draft ops] with
  | .error e => throw e.text
  | .ok prepared =>
      pure ⟨footprintDependencies s p, stateEffects (footprintState s p) prepared.graph⟩

/-- Whether one review's writes meet the other's reads. -/
def interferes (a b : ProposalFootprint) : Bool :=
  (a.effects.any fun r => decide (r ∈ b.dependencies)) ||
    b.effects.any fun r => decide (r ∈ a.dependencies)

end RcpGraph
