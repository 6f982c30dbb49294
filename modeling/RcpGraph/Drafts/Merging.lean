import RcpGraph.Lib.FirstOfKey
import RcpGraph.Drafts.HumanDraft

/-!
Staging on the canvas: removing nodes, adding and removing links, and merging a duplicate
into a kept node, which copies the links of the duplicate. An id drawn for a copied link comes
from the supply `uuids` of the call.
-/

namespace RcpGraph.Drafts

/-- A node may be staged for removal; `none` where the draft stays as it is. -/
def stageNodeRemoval? (draft : HumanDraft) (graph : GraphState) (nodeId : String)
    (experimentLoopActive : Bool) : Option HumanDraft :=
  match graph.nodes.get? nodeId with
  | none => none
  | some node =>
      if node.standing = .accepted || experimentLoopActive || (draft.nodes.get? nodeId).isSome ||
          nodeId ∈ draft.removedNodeIds then none
      else some (normalizeHumanDraft
        { draft with removedNodeIds := draft.removedNodeIds ++ [nodeId] } graph)

def stageNodeRemoval (draft : HumanDraft) (graph : GraphState) (nodeId : String)
    (experimentLoopActive : Bool) : HumanDraft :=
  (stageNodeRemoval? draft graph nodeId experimentLoopActive).getD draft

def unstageCustomNode (draft : HumanDraft) (graph : GraphState) (nodeId : String) : HumanDraft :=
  normalizeHumanDraft
    { draft with
      customNodes := draft.customNodes.erase nodeId
      addedEdges := draft.addedEdges.filter fun edge =>
        decide (edge.source ≠ nodeId) && decide (edge.target ≠ nodeId) } graph

/-- One node of `stageNodesRemoval`. -/
def stageNodesRemovalOne? (draft : HumanDraft) (graph : GraphState)
    (activeExperimentIds : List String) (nodeId : String) : Option HumanDraft :=
  if (draft.customNodes.get? nodeId).isSome then some (unstageCustomNode draft graph nodeId)
  else stageNodeRemoval? draft graph nodeId (decide (nodeId ∈ activeExperimentIds))

abbrev LinkKey := String × String × String

def edgeKey (edge : NewEdge) : LinkKey := (edge.source, edge.relation, edge.target)

def NewEdge.touches (edge : NewEdge) (nodeId : String) : Bool :=
  decide (edge.source = nodeId) || decide (edge.target = nodeId)

/-- The link with the kept node in the place of the duplicate. -/
def redirect (duplicateId canonicalId : String) (edge : NewEdge) : NewEdge :=
  { edge with
    source := if edge.source = duplicateId then canonicalId else edge.source
    target := if edge.target = duplicateId then canonicalId else edge.target }

/-- The copies of the duplicate's links; an id is drawn for each of them, copied or not. -/
def copyEdges (duplicateId canonicalId : String) (uuids : Nat → String) :
    List LinkKey → Nat → List NewEdge → List NewEdge
  | _, _, [] => []
  | existing, drawn, edge :: edges =>
      if edge.touches duplicateId then
        let copy := { redirect duplicateId canonicalId edge with id := "edge/" ++ uuids drawn }
        if copy.source = copy.target ∨ edgeKey copy ∈ existing then
          copyEdges duplicateId canonicalId uuids existing (drawn + 1) edges
        else
          copy :: copyEdges duplicateId canonicalId uuids (edgeKey copy :: existing) (drawn + 1)
            edges
      else copyEdges duplicateId canonicalId uuids existing drawn edges

/-- The links between nodes that are kept, canonical ones first. -/
def liveEdges (draft : HumanDraft) (graph : GraphState) : List NewEdge :=
  ((graph.edges.values.filter fun edge => decide (edge.id ∉ draft.removedEdgeIds)) ++
    draft.addedEdges).filter fun edge =>
      decide (edge.source ∉ draft.removedNodeIds) && decide (edge.target ∉ draft.removedNodeIds)

/-- The type a node is merged by. -/
def mergeType (draft : HumanDraft) (graph : GraphState) (nodeId : String) :
    Option (NodeType × Option String) :=
  ((draft.customNodes.get? nodeId).map fun node => (node.type, node.extensionType)).or
    ((graph.nodes.get? nodeId).map fun node => (node.type, node.extensionType))

/-- Whether a duplicate and a node to keep may be merged. -/
def mergeable (draft : HumanDraft) (graph : GraphState) (duplicateId canonicalId : String) :
    Bool :=
  (mergeType draft graph duplicateId).isSome &&
    decide (mergeType draft graph duplicateId = mergeType draft graph canonicalId) &&
    decide (duplicateId ≠ canonicalId) && decide (canonicalId ∉ draft.removedNodeIds)

def stageMerge (draft : HumanDraft) (graph : GraphState) (duplicateId canonicalId : String)
    (activeExperimentIds : List String) (uuids : Nat → String) : HumanDraft :=
  if mergeable draft graph duplicateId canonicalId then
    match stageNodesRemovalOne? draft graph activeExperimentIds duplicateId with
    | none => draft
    | some next =>
        let edges := liveEdges draft graph
        let copies := copyEdges duplicateId canonicalId uuids (edges.map edgeKey) 0 edges
        normalizeHumanDraft
          { next with
            addedEdges := next.addedEdges ++ copies
            merges := some (next.merges.getD [] ++
              [{ duplicate := duplicateId, canonical := canonicalId
                 edgeIds := copies.map NewEdge.id }]) } graph
  else draft

/-- Restoring a merged-away duplicate also withdraws the links copied onto the kept node. -/
def unstageNodeRemoval (draft : HumanDraft) (nodeId : String) : HumanDraft :=
  let next := { draft with removedNodeIds := draft.removedNodeIds.filter (· ≠ nodeId) }
  match (draft.merges.getD []).find? fun entry => entry.duplicate = nodeId with
  | none => next
  | some merge =>
      { next with
        addedEdges := next.addedEdges.filter fun edge => decide (edge.id ∉ merge.edgeIds)
        merges := next.merges.map fun merges => merges.erase merge }

def unstageMerge (draft : HumanDraft) (graph : GraphState) (duplicate : String) : HumanDraft :=
  if (draft.merges.getD []).any fun entry => entry.duplicate = duplicate then
    normalizeHumanDraft (unstageNodeRemoval draft duplicate) graph
  else draft

def stageEdgeAddition (draft : HumanDraft) (graph : GraphState) (edge : NewEdge) : HumanDraft :=
  normalizeHumanDraft { draft with addedEdges := draft.addedEdges ++ [edge] } graph

def stageEdgeRemoval (draft : HumanDraft) (graph : GraphState) (edgeId : String) : HumanDraft :=
  normalizeHumanDraft
    (if draft.addedEdges.any fun edge => edge.id = edgeId then
      { draft with addedEdges := draft.addedEdges.filter fun edge => decide (edge.id ≠ edgeId) }
    else { draft with removedEdgeIds := (draft.removedEdgeIds ++ [edgeId]).eraseDups }) graph

end RcpGraph.Drafts
