import RcpGraph.Core.Materialize
import RcpGraph.Validation.Report

/-!
Authority over graph actions. Each operation needs a closed set of actions,
judged against the graph from before the patch, and every producer may perform a
fixed set of them. Task lookups and membership are decided before a patch gets
here and are not modelled.
-/

namespace RcpGraph

variable {rt : Runtime}

/-- Relations that restructure an existing protected belief. -/
def protectedEpistemicRelations : List String := protectedRelations ++ ["supersedes", "duplicate_of"]

inductive GraphAction where
  | createAmbiguity
  | createEdge
  | createNode
  | createProposal
  | decideDecision
  | mergeNode
  | mergeProtectedEpistemic
  | queueDecision
  | removeEdge
  | removeNode
  | removeProtectedEpistemic
  | resolveAmbiguity
  | resolveProposal
  | restructureProtectedEpistemic
  | setCoverage
  | setOntology
  | setProjectTruthScope
  | setStanding
  | supersedeNode
  | supersedeProtectedEpistemic
  | updateNode
  | updateProtectedEpistemic
  | upsertGlossary
  | withdrawProposal
  deriving DecidableEq, Repr

namespace GraphAction

def name : GraphAction → String
  | createAmbiguity => "create_ambiguity"
  | createEdge => "create_edge"
  | createNode => "create_node"
  | createProposal => "create_proposal"
  | decideDecision => "decide_decision"
  | mergeNode => "merge_node"
  | mergeProtectedEpistemic => "merge_protected_epistemic"
  | queueDecision => "queue_decision"
  | removeEdge => "remove_edge"
  | removeNode => "remove_node"
  | removeProtectedEpistemic => "remove_protected_epistemic"
  | resolveAmbiguity => "resolve_ambiguity"
  | resolveProposal => "resolve_proposal"
  | restructureProtectedEpistemic => "restructure_protected_epistemic"
  | setCoverage => "set_coverage"
  | setOntology => "set_ontology"
  | setProjectTruthScope => "set_project_truth_scope"
  | setStanding => "set_standing"
  | supersedeNode => "supersede_node"
  | supersedeProtectedEpistemic => "supersede_protected_epistemic"
  | updateNode => "update_node"
  | updateProtectedEpistemic => "update_protected_epistemic"
  | upsertGlossary => "upsert_glossary"
  | withdrawProposal => "withdraw_proposal"

/-- Every action, in the order `sorted` gives their names. -/
def all : List GraphAction :=
  [ createAmbiguity, createEdge, createNode, createProposal, decideDecision, mergeNode,
    mergeProtectedEpistemic, queueDecision, removeEdge, removeNode, removeProtectedEpistemic,
    resolveAmbiguity, resolveProposal, restructureProtectedEpistemic, setCoverage, setOntology,
    setProjectTruthScope, setStanding, supersedeNode, supersedeProtectedEpistemic, updateNode,
    updateProtectedEpistemic, upsertGlossary, withdrawProposal ]

def ordinaryAgent : List GraphAction :=
  [ createNode, updateNode, queueDecision, removeNode, supersedeNode, mergeNode, createEdge,
    removeEdge, createProposal, withdrawProposal, upsertGlossary ]

def orchestratorAgent : List GraphAction := ordinaryAgent ++ [decideDecision, setStanding]

def human : List GraphAction :=
  all.filter fun a =>
    a ∉ [createProposal, upsertGlossary, setCoverage, createAmbiguity, resolveAmbiguity]

theorem mem_all (a : GraphAction) : a ∈ all := by cases a <;> decide

end GraphAction

/-- Whether a patch's producer may perform an action. -/
def permits (p : Patch rt) (a : GraphAction) : Bool :=
  match p.author, p.profile with
  | some .human, _ => decide (a ∈ GraphAction.human)
  | some .agent, some .orchestrator => decide (a ∈ GraphAction.orchestratorAgent)
  | some .agent, _ => decide (a ∈ GraphAction.ordinaryAgent)
  | none, _ => false

/-- Whether an id names a protected belief of this graph. -/
def isExistingProtectedNode (s : GraphState rt) (id : String) : Bool :=
  match s.nodes.get? id with
  | some n => n.type.isProtectedBelief
  | none => false

/-- The nodes a patch creates, in written order. -/
def Patch.createdNodes (p : Patch rt) : List (RawNode rt) :=
  p.ops.flatMap fun
    | .createNodes nodes => nodes
    | _ => []

def Patch.createdNodeType (p : Patch rt) (id : String) : Option NodeType :=
  (p.createdNodes.find? fun raw => raw.id = id).map RawNode.type

/-- The ids a patch creates that are new to the graph. -/
def newNodeIds (s : GraphState rt) (p : Patch rt) : List String :=
  (p.createdNodes.map RawNode.id).filter fun id => id ∉ s.nodes

def newEdgeIds (s : GraphState rt) (p : Patch rt) : List String :=
  (p.ops.flatMap fun
    | .createEdges edges => edges.map NewEdge.edgeId
    | _ => []).filter fun id => id ∉ s.edges

def restructuresProtectedRelation (s : GraphState rt) (p : Patch rt)
    (relation source target : String) : Bool :=
  decide (relation ∈ protectedEpistemicRelations) &&
    !(decide (source ∈ newNodeIds s p) || decide (target ∈ newNodeIds s p)) &&
    (isExistingProtectedNode s source || isExistingProtectedNode s target)

/-- `queues_decision`. -/
def queuesDecision (changes : Dict String Json) : Except String Bool :=
  memberOf (changed changes "status") ["open", "ready", "revisit"]

/-- `chooses_decision`. -/
def choosesDecision (changes : Dict String Json) : Bool :=
  decide (changed changes "status" = .str "decided") ||
    decide (changed changes "selected_option" ≠ .null)

def isChooserId (s : GraphState rt) (p : Patch rt) (id : String) : Bool :=
  match s.nodes.get? id with
  | some n => n.type.isChooser || (p.createdNodeType id).any NodeType.isChooser
  | none => (p.createdNodeType id).any NodeType.isChooser

/-- The action one update of a node needs. -/
def updateAction (s : GraphState rt) (p : Patch rt) (u : NodeUpdate) :
    Except String GraphAction :=
  if isExistingProtectedNode s u.id then .ok .updateProtectedEpistemic
  else if isChooserId s p u.id &&
      (decide (p.humanAction = some .decisionChoice) ||
        decide (p.agentAction = some .decisionChoice)) then .ok .decideDecision
  else if (s.nodeType? u.id).any NodeType.isChooser then
    (queuesDecision u.changes).map fun queues =>
      if queues then .queueDecision else .updateNode
  else .ok .updateNode

def updateActions (s : GraphState rt) (p : Patch rt) :
    List NodeUpdate → Except String (List GraphAction)
  | [] => .ok []
  | u :: us => do
      let a ← updateAction s p u
      let as ← updateActions s p us
      pure (a :: as)

/-- A set of actions, with the default one of an empty batch. -/
def orDefault (actions : List GraphAction) (base : GraphAction) : List GraphAction :=
  if actions.isEmpty then [base] else actions

def nodeTargetActions (s : GraphState rt) (ids : List String) (base protect : GraphAction) :
    List GraphAction :=
  orDefault (ids.map fun id => if isExistingProtectedNode s id then protect else base) base

/-- Lifecycle actions and the relation they imply. -/
def nodeLifecycleActions (s : GraphState rt) (p : Patch rt) (ids : List String)
    (endpoints : List (String × String)) (relation : String) (base protect : GraphAction) :
    List GraphAction :=
  nodeTargetActions s ids base protect ++
    endpoints.filterMap fun (a, b) =>
      if restructuresProtectedRelation s p relation a b then
        some .restructureProtectedEpistemic
      else none

def createEdgeAction (s : GraphState rt) (p : Patch rt) (e : NewEdge) : GraphAction :=
  if restructuresProtectedRelation s p e.relation e.source e.target then
    .restructureProtectedEpistemic
  else .createEdge

def removeEdgeAction (s : GraphState rt) (p : Patch rt) (id : String) : GraphAction :=
  match s.edges.get? id with
  | none => .removeEdge
  | some e =>
      if id ∉ newEdgeIds s p ∧ e.relation ∈ protectedEpistemicRelations ∧
          (isExistingProtectedNode s e.source = true ∨ isExistingProtectedNode s e.target = true)
      then .restructureProtectedEpistemic
      else .removeEdge

/-- The closed action set of one operation. -/
def operationActions (s : GraphState rt) (p : Patch rt) :
    GraphOperation rt → Except String (List GraphAction)
  | .createNodes _ => .ok [.createNode]
  | .updateNodes updates => (updateActions s p updates).map fun as => orDefault as .updateNode
  | .createEdges edges => .ok (orDefault (edges.map (createEdgeAction s p)) .createEdge)
  | .removeEdges ids => .ok (orDefault (ids.map (removeEdgeAction s p)) .removeEdge)
  | .removeNodes ids => .ok (nodeTargetActions s ids .removeNode .removeProtectedEpistemic)
  | .supersedeNodes items =>
      .ok (nodeLifecycleActions s p (items.map (·.id))
        (items.filterMap fun i => i.supersededBy.map fun t => (i.id, t)) "supersedes"
        .supersedeNode .supersedeProtectedEpistemic)
  | .mergeNodes merges =>
      .ok (nodeLifecycleActions s p (merges.map (·.duplicate))
        (merges.map fun m => (m.duplicate, m.canonical)) "duplicate_of"
        .mergeNode .mergeProtectedEpistemic)
  | .setStanding id _ =>
      if isExistingProtectedNode s id || (p.createdNodeType id).any NodeType.isProtectedBelief then
        .ok [.updateProtectedEpistemic]
      else .ok [.setStanding]
  | .createAmbiguities _ => .ok [.createAmbiguity]
  | .resolveAmbiguities _ => .ok [.resolveAmbiguity]
  | .createProposals _ => .ok [.createProposal]
  | .resolveProposals _ => .ok [.resolveProposal]
  | .withdrawProposals _ => .ok [.withdrawProposal]
  | .upsertGlossary _ => .ok [.upsertGlossary]
  | .setCoverage _ => .ok [.setCoverage]
  | .setProjectTruthScope _ _ => .ok [.setProjectTruthScope]
  | .setOntology _ => .ok [.setOntology]

/-- Operations only history may carry. -/
def GraphOperation.legacyOnly : GraphOperation rt → Bool
  | .createAmbiguities _ | .resolveAmbiguities _ | .setCoverage _ => true
  | _ => false

/-- `validate_operation_authority` for one operation. -/
def operationAuthorityIssues (s : GraphState rt) (p : Patch rt) (op : GraphOperation rt) :
    List Issue :=
  if op.legacyOnly then []
  else
    match operationActions s p op with
    | .error text => [.raised text]
    | .ok actions =>
        (GraphAction.all.filter fun a => a ∈ actions).flatMap fun a =>
          rejectIf (!permits p a) "graph-action-refused"
            ("Action " ++ Text.quoted a.name ++ " is not permitted for this Patch producer.")
            p.revisionRef

/-- `WriteAuthority.validate_permissions`. -/
def validatePermissions (s : GraphState rt) (p : Patch rt) : List ValidationMessage :=
  settleIssues (p.ops.flatMap (operationAuthorityIssues s p)) "malformed-operation"
    "Patch operations are malformed: " p.revisionRef

/-- An operation the gate lets through needs only permitted actions. -/
theorem permits_of_validatePermissions (s : GraphState rt) (p : Patch rt)
    (h : rejected (validatePermissions s p) = false) (op : GraphOperation rt) (hop : op ∈ p.ops)
    (hlegacy : op.legacyOnly = false) :
    ∃ actions, operationActions s p op = .ok actions ∧ ∀ a ∈ actions, permits p a = true := by
  rw [validatePermissions, rejected_settleIssues, not_refused_flatMap] at h
  have hissue := h op hop
  rw [operationAuthorityIssues, hlegacy] at hissue
  cases hact : operationActions s p op with
  | error text => simp [hact] at hissue
  | ok actions =>
      refine ⟨actions, rfl, fun a ha => ?_⟩
      simp only [hact, Bool.false_eq_true, if_false] at hissue
      rw [not_refused_flatMap] at hissue
      have := hissue a (List.mem_filter.mpr ⟨GraphAction.mem_all a, by simpa using ha⟩)
      simpa using this

/-- `validate_authorship`. -/
def validateAuthorship (p : Patch rt) : List Issue :=
  let revision := p.revisionRef
  if p.kind = .identity then
    rejectIf (p.producer ≠ .system) "wrong-producer"
        "Identity patches must be produced by RCP's system producer." revision ++
      rejectIf (p.author ≠ none) "wrong-author"
        "Identity patches have no human or agent author." revision
  else
    let expected : Author := if p.kind = .approval then .human else .agent
    rejectIf (p.author ≠ some expected) "wrong-author"
        (p.kind.name ++ " patches must be authored by " ++ expected.name ++ ".") revision ++
      if p.producer = .system then
        [reject "system-producer-forbidden"
          "The system producer is reserved for identity patches." revision]
      else
        rejectIf
          (match p.producer, p.author with
            | .agent, some .agent | .human, some .human => false
            | _, _ => true)
          "producer-author-mismatch"
          "Human and agent patches must retain the same producer and legacy author role." revision

/-- The writer's own declarations on one operation. -/
def writerOperationIssues (p : Patch rt) (replay : Bool) (op : GraphOperation rt) : List Issue :=
  let revision := p.revisionRef
  match op with
  | .resolveProposals _ =>
      rejectIf (p.kind ≠ .approval && !replay) "agent-resolved-proposal"
        "Only a human approval patch may resolve or withdraw a Proposal." revision
  | .withdrawProposals _ =>
      rejectIf (p.author ≠ some .agent || p.kind = .approval) "human-only-proposal-withdrawal"
        "Only an agent patch may withdraw a Proposal." revision
  | .setStanding _ _ =>
      rejectIf (!replay && !permits p .setStanding) "agent-set-standing"
        "This Patch producer may not set standing." revision
  | .setProjectTruthScope _ _ =>
      rejectIf (p.kind ≠ .approval) "agent-set-project-scope"
        "Project truth-scope membership requires human approval." revision
  | .setOntology _ =>
      rejectIf (p.kind ≠ .approval) "agent-set-ontology"
        "Only the human Settings and Sync paths may change ontology." revision
  | _ => []

/-- `validate_writer_actions`. -/
def validateWriterActions (p : Patch rt) (replay : Bool) : List Issue :=
  rejectIf (p.humanAction.isSome && (p.kind ≠ .approval || p.author ≠ some .human))
      "invalid-human-action" "Only a human approval Patch may declare a human authority action."
      p.revisionRef ++
    rejectIf (p.agentAction.isSome && (p.author ≠ some .agent || p.profile ≠ some .orchestrator))
      "invalid-agent-action" "Only the orchestrator profile may declare an agent authority action."
      p.revisionRef ++
    p.ops.flatMap (writerOperationIssues p replay)

end RcpGraph
