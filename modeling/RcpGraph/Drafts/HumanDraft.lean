import RcpGraph.Drafts.Graph

/-!
The staged human draft, how it is read against a canonical graph, and what of it stays after
a Sync.
-/

namespace RcpGraph.Drafts

inductive StandingOrigin where
  | edit
  | judgment
  deriving DecidableEq, Repr

inductive ProposalDecision where
  | approved
  | rejected
  deriving DecidableEq, Repr

structure ProposalJudgment where
  decision : ProposalDecision
  reason : Option String := none
  deriving DecidableEq, Repr

structure DraftNodeChange where
  baseUpdatedRev : Nat
  changes : Dict String Json
  standing : Option Standing := none
  standingOrigin : Option StandingOrigin := none
  cancelAttemptIds : Option (List String) := none
  deriving DecidableEq

/-- A duplicate staged to be merged away, with the links copied onto the kept node. -/
structure DraftMerge where
  duplicate : String
  canonical : String
  edgeIds : List String
  deriving DecidableEq, Repr

structure HumanDraft where
  baseRevision : Nat
  ontologyBaseRevision : Option Nat := none
  nodes : Dict String DraftNodeChange := .empty
  removedNodeIds : List String := []
  proposals : Dict String ProposalJudgment := .empty
  ontology : Option Json := none
  customNodes : Dict String NewNode := .empty
  addedEdges : List NewEdge := []
  removedEdgeIds : List String := []
  edgeBaseRevision : Option Nat := none
  merges : Option (List DraftMerge) := none
  deriving DecidableEq

structure SyncNode where
  nodeId : String
  baseUpdatedRev : Nat
  changes : Dict String Json
  standing : Option Standing
  cancelAttemptIds : Option (List String)
  deriving DecidableEq

structure HumanSyncRequest where
  baseRevision : Nat
  removedNodeIds : List String
  nodes : List SyncNode
  proposals : List (String × ProposalJudgment)
  ontology : Option Json
  customNodes : List NewNode
  addedEdges : List NewEdge
  removedEdgeIds : List String
  deriving DecidableEq

def emptyHumanDraft (baseRevision : Nat) : HumanDraft where
  baseRevision

/-- Attempts that are still open. -/
def openAttemptIds (node : GraphNode) : List String :=
  ((node.attempts.getD []).filter fun attempt =>
    attempt.status ∈ ["planned", "submitted", "running"]).map ExperimentAttempt.id

/-- What stays of an entry whose node was not changed since: the changes that still differ. -/
def settledEntry (node : GraphNode) (entry : DraftNodeChange) : Option DraftNodeChange :=
  let changes := entry.changes.filter fun key value => decide (node.get key ≠ some value)
  let standing := if entry.standing = some node.standing then none else entry.standing
  let standingOrigin := if standing.isSome then entry.standingOrigin else none
  let dropsStanding := changes.entries.isEmpty && standingOrigin = some .edit
  let standing := if dropsStanding then none else standing
  let standingOrigin := if dropsStanding then none else standingOrigin
  -- An attempt already closed canonically no longer needs releasing.
  let cancelAttemptIds :=
    (entry.cancelAttemptIds.getD []).filter fun id => decide (id ∈ openAttemptIds node)
  if changes.entries.isEmpty && standing.isNone && cancelAttemptIds.isEmpty then none
  else some {
    baseUpdatedRev := entry.baseUpdatedRev
    changes
    standing
    standingOrigin
    cancelAttemptIds := if cancelAttemptIds.isEmpty then none else some cancelAttemptIds }

def draftNodeIsBehind (entry : DraftNodeChange) (node : Option GraphNode) : Bool :=
  node.any fun node => decide (entry.baseUpdatedRev ≠ node.updatedRev)

/-- An entry as the draft keeps it beside the graph; one that is behind is not touched. -/
def normalizedEntry (graph : GraphState) (nodeId : String) (entry : DraftNodeChange) :
    Option DraftNodeChange :=
  (graph.nodes.get? nodeId).bind fun node =>
    if draftNodeIsBehind entry (some node) then some entry else settledEntry node entry

def proposalTargetsNode (proposal : Proposal) (nodeId : String) : Bool :=
  proposal.ops.any fun raw =>
    raw.get? "op" = some (.str "update_nodes") &&
      (((raw.get? "nodes").bind Json.arr?).getD []).any fun update =>
        update.get? "id" = some (.str nodeId)

def proposalDecisionsWithoutDirectChoices (draft : HumanDraft) (graph : GraphState) :
    Dict String ProposalJudgment :=
  let decisionIds := (draft.nodes.entries.filter fun e =>
    ((graph.nodes.get? e.1).any fun node => node.type.isChooser) &&
      ((e.2.changes.get? "selected_option").isSome ||
        e.2.changes.get? "status" = some (.str "decided"))).map Prod.fst
  draft.proposals.filter fun proposalId _ =>
    match graph.proposals.get? proposalId with
    | none => true
    | some proposal =>
        decide (proposal.status ≠ .pending) ||
          !decisionIds.any fun nodeId => proposalTargetsNode proposal nodeId

/-- A merge stays one item while its duplicate is removed; unlinked copies drop out of it. -/
def normalizedMerges (removedNodeIds : List String) (addedEdges : List NewEdge)
    (merges : List DraftMerge) : List DraftMerge :=
  (merges.filter fun merge => decide (merge.duplicate ∈ removedNodeIds)).map fun merge =>
    { merge with
      edgeIds := merge.edgeIds.filter fun id => addedEdges.any fun edge => edge.id = id }

/-- The draft read against a canonical graph; a staged approval of a stale Proposal is
dropped. -/
def normalizeHumanDraft (draft : HumanDraft) (graph : GraphState)
    (staleProposalIds : List String := []) : HumanDraft :=
  let removedNodeIds := draft.removedNodeIds.filter fun nodeId => (graph.nodes.get? nodeId).isSome
  let ontology := if draft.ontology = some graph.ontology then none else draft.ontology
  let normalized : HumanDraft :=
    { draft with
      baseRevision := graph.revision
      nodes := draft.nodes.filterMap (normalizedEntry graph)
      removedNodeIds
      merges := draft.merges.map (normalizedMerges removedNodeIds draft.addedEdges)
      ontology
      edgeBaseRevision :=
        if draft.addedEdges.isEmpty && draft.removedEdgeIds.isEmpty then none
        else some (draft.edgeBaseRevision.getD draft.baseRevision)
      ontologyBaseRevision :=
        ontology.map fun _ => draft.ontologyBaseRevision.getD draft.baseRevision }
  { normalized with
    proposals := (proposalDecisionsWithoutDirectChoices normalized graph).filter
      fun proposalId entry =>
        decide (entry.decision ≠ .approved) || decide (proposalId ∉ staleProposalIds) }

structure HumanDraftReconciliation where
  draft : HumanDraft
  discardedProposalIds : List String

def reconcileHumanDraft (draft : HumanDraft) (graph : GraphState) : HumanDraftReconciliation :=
  let normalized := normalizeHumanDraft draft graph
  let pending := fun proposalId =>
    (graph.proposals.get? proposalId).any fun proposal => proposal.status = .pending
  let discardedProposalIds :=
    (normalized.proposals.keys.filter fun proposalId => !pending proposalId).mergeSort
  if discardedProposalIds.isEmpty then { draft := normalized, discardedProposalIds }
  else {
    draft := { normalized with
      proposals := normalized.proposals.filter fun proposalId _ =>
        decide (proposalId ∉ discardedProposalIds) }
    discardedProposalIds }

/-- Draft links whose endpoints are both kept. -/
def liveAddedEdges (draft : HumanDraft) : List NewEdge :=
  draft.addedEdges.filter fun edge =>
    decide (edge.source ∉ draft.removedNodeIds) && decide (edge.target ∉ draft.removedNodeIds)

/-- The number of staged changes; a merge counts once, its copied links are part of it. -/
def humanDraftChangeCount (draft : Option HumanDraft) : Nat :=
  match draft with
  | none => 0
  | some draft =>
      let mergeCopies := (draft.merges.getD []).flatMap DraftMerge.edgeIds
      draft.nodes.values.foldl
        (fun count entry => count + entry.changes.entries.length +
          entry.standing.toList.length + (entry.cancelAttemptIds.getD []).length) 0 +
      draft.removedNodeIds.length + draft.proposals.entries.length +
      draft.ontology.toList.length + draft.customNodes.entries.length +
      ((liveAddedEdges draft).filter fun edge => decide (edge.id ∉ mergeCopies)).length +
      draft.removedEdgeIds.length

/-- What stays staged after a Sync: the entries it could not send. -/
def retainBehindDraftAfterSync (draft : HumanDraft) (previousGraph nextGraph : GraphState) :
    Option HumanDraft :=
  let nodes := draft.nodes.filter fun nodeId entry =>
    draftNodeIsBehind entry (previousGraph.nodes.get? nodeId)
  if nodes.entries.isEmpty then none
  else some (normalizeHumanDraft { emptyHumanDraft nextGraph.revision with nodes } nextGraph)

def toHumanSyncRequest (draft : HumanDraft) (graph : GraphState) : HumanSyncRequest where
  baseRevision := draft.edgeBaseRevision.getD graph.revision
  removedNodeIds := draft.removedNodeIds
  nodes := (draft.nodes.entries.filter fun e =>
    !draftNodeIsBehind e.2 (graph.nodes.get? e.1)).map fun e =>
      { nodeId := e.1
        baseUpdatedRev := e.2.baseUpdatedRev
        changes := e.2.changes
        standing := e.2.standing
        cancelAttemptIds := e.2.cancelAttemptIds.filter fun ids => !ids.isEmpty }
  proposals := draft.proposals.entries
  ontology := draft.ontology
  customNodes := draft.customNodes.values
  addedEdges := liveAddedEdges draft
  removedEdgeIds := draft.removedEdgeIds

theorem normalizedEntry_of_behind {graph : GraphState} {nodeId : String} {entry : DraftNodeChange}
    {node : GraphNode} (hnode : graph.nodes.get? nodeId = some node)
    (hbehind : entry.baseUpdatedRev ≠ node.updatedRev) :
    normalizedEntry graph nodeId entry = some entry := by
  simp only [normalizedEntry, hnode, Option.bind_some, draftNodeIsBehind, Option.any_some,
    decide_eq_true hbehind, if_true]

/-- An entry that is behind in both graphs stays staged as it is. -/
theorem retained_entry {draft : HumanDraft} {previousGraph nextGraph : GraphState}
    {nodeId : String} {entry : DraftNodeChange} {node : GraphNode}
    (hentry : draft.nodes.get? nodeId = some entry)
    (hbehind : draftNodeIsBehind entry (previousGraph.nodes.get? nodeId) = true)
    (hnode : nextGraph.nodes.get? nodeId = some node)
    (hstill : entry.baseUpdatedRev ≠ node.updatedRev) :
    ∃ retained, retainBehindDraftAfterSync draft previousGraph nextGraph = some retained ∧
      retained.nodes.get? nodeId = some entry := by
  have hkept : (draft.nodes.filter fun nodeId entry =>
      draftNodeIsBehind entry (previousGraph.nodes.get? nodeId)).get? nodeId = some entry := by
    rw [Dict.get?_filter, hentry]
    simp [hbehind]
  have hnonempty : (draft.nodes.filter fun nodeId entry =>
      draftNodeIsBehind entry (previousGraph.nodes.get? nodeId)).entries ≠ [] :=
    List.ne_nil_of_mem ((Dict.get?_eq_some_iff _ nodeId entry).mp hkept)
  refine ⟨_, if_neg (by simpa using hnonempty), ?_⟩
  refine (Dict.get?_filterMap _ (normalizedEntry nextGraph) nodeId).trans ?_
  simp only [hkept, Option.bind_some, normalizedEntry_of_behind hnode hstill]

end RcpGraph.Drafts
