import RcpGraph.Validation.ExperimentLoop

/-!
Validation of a whole patch: envelope, roles, declared actions and scope, the
staged operations, and the checks on the staged result. A recorded transition is
split into its source patches, which are validated one after another.
-/

namespace RcpGraph

open Schema

variable {rt : Runtime}

/-- `_validate_identity_shape`. -/
def identityShapeIssues (p : Patch rt) : List Issue :=
  let revision := p.revisionRef
  if p.kind ≠ .identity then
    rejectIf p.projectIdentity.isSome "unexpected-project-identity"
        "Project identity is legal only on identity patches." revision ++
      rejectIf p.projectHomeTransfer.isSome "unexpected-project-home-transfer"
        "Project home transfer is legal only on identity patches." revision
  else
    (match p.projectIdentity, p.projectHomeTransfer with
      | none, none =>
          [reject "missing-project-identity"
            "Identity patches require exactly one project identity payload." revision]
      | some _, some _ =>
          [reject "conflicting-identity-payloads"
            "Identity patches cannot combine a project identity and home transfer." revision]
      | _, _ => []) ++
      rejectIf (p.ops ≠ []) "identity-has-operations"
        "Identity patches cannot carry graph operations." revision ++
      rejectIf (p.runTruthScope ≠ [] || p.repositoriesRead ≠ [] || p.runReadScope.isSome)
        "identity-has-run-scope" "Identity patches cannot carry raw repository scope." revision ++
      rejectIf (p.processedCursors.entries ≠ []) "identity-has-cursors"
        "Identity patches cannot carry coverage cursors." revision ++
      rejectIf (p.sourceOperationId.isSome || p.sourceEffectId.isSome ||
          p.sourceEffectSha256.isSome) "identity-has-operation-id"
        "Identity patches cannot carry an operation or effect id." revision ++
      rejectIf p.humanAction.isSome "identity-has-human-action"
        "Identity patches cannot carry a human authority action." revision ++
      rejectIf p.agentAction.isSome "identity-has-agent-action"
        "Identity patches cannot carry an agent authority action." revision ++
      rejectIf (p.experimentControlNodeId.isSome || p.experimentDecisionBundle ≠ [])
        "identity-has-experiment-control"
        "Identity patches cannot carry experiment control metadata." revision ++
      rejectIf (p.authorizedBy.isSome || p.profile.isSome || p.taskId.isSome)
        "identity-has-attribution" "Identity patches cannot carry human or task attribution."
        revision

/-- `_validate_attribution_shape`. -/
def attributionShapeIssues (p : Patch rt) : List Issue :=
  let revision := p.revisionRef
  if p.kind = .identity then []
  else
    rejectIf (p.sourceEffectId.isNone ≠ p.sourceEffectSha256.isNone) "invalid-source-effect"
        "A source effect id and its exact Patch digest must be present together." revision ++
      rejectIf (p.sourceEffectId.isSome &&
          (p.author ≠ some .agent || p.sourceOperationId.getD "" = "")) "invalid-source-effect"
        "A source effect id requires one direct agent task source operation." revision ++
      if p.authorizedBy.isNone && p.profile.isNone && p.taskId.isNone then []
      else if p.kind = .approval then
        rejectIf (p.authorizedBy.isNone || p.profile.isSome || p.taskId.isSome)
          "invalid-human-attribution"
          ("An attributed human approval requires authorized_by and cannot carry an agent " ++
            "profile or task id.") revision
      else
        rejectIf (p.authorizedBy.isNone || p.profile.isNone || p.taskId.getD "" = "")
          "invalid-agent-attribution"
          ("An attributed agent patch requires authorized_by, one known agent profile, and a " ++
            "non-empty direct task id.") revision

/-- `patch_has_decision_outcome`. -/
def patchHasDecisionOutcome (s : GraphState rt) (p : Patch rt) : Bool :=
  let decisions :=
    (s.nodes.values.filter fun n => n.type.isChooser).map (·.id) ++
      (p.createdNodes.filter fun raw => raw.type.isChooser).map (·.id)
  p.ops.any fun
    | .updateNodes updates =>
        updates.any fun u => decide (u.id ∈ decisions) && choosesDecision u.changes
    | _ => false

/-- `_validate_declared_agent_action`. -/
def declaredActionIssues (s : GraphState rt) (p : Patch rt) (w : Writer) : List Issue :=
  let revision := p.revisionRef
  let outcome := patchHasDecisionOutcome s p
  if w.humanAction.isSome && w.agentAction.isSome then
    [reject "conflicting-authority-actions"
      "A Patch cannot declare both a human and an agent authority action." revision]
  else
    rejectIf (w.author = some .agent && w.profile = some .orchestrator && outcome &&
        w.agentAction ≠ some .decisionChoice) "missing-decision-action"
        "An orchestrator Decision outcome requires agent_action='decision_choice'." revision ++
      rejectIf (w.agentAction.isSome && !outcome) "unused-agent-action"
        "agent_action='decision_choice' must name a real Decision outcome in this Patch." revision

/-- `_validate_declared_scope`. -/
def declaredScopeIssues (p : Patch rt) (scope repositories : List String) : List Issue :=
  let revision := p.revisionRef
  if p.kind = .identity then []
  else if p.kind = .approval then
    rejectIf (p.runTruthScope ≠ [] || p.repositoriesRead ≠ [] || p.runReadScope.isSome)
      "approval-has-run-scope" "Human approval patches cannot carry raw repository scope." revision
  else
    let outside := Text.sortedSet (p.runTruthScope.filter fun r => r ∉ scope)
    let readable := p.runReadScope.getD repositories
    let readOutside := Text.sortedSet (p.repositoriesRead.filter fun r => r ∉ readable)
    rejectIf (p.runTruthScope = []) "empty-run-scope"
        "Agent patches require a non-empty run truth scope." revision ++
      rejectIf (outside ≠ []) "run-scope-outside-project"
        ("Run scope contains repositories outside project truth scope: " ++
          Text.quotedList outside ++ ".") revision ++
      rejectIf (readOutside ≠ []) "read-outside-run-scope"
        ("Patch read repositories outside its read scope: " ++ Text.quotedList readOutside ++ ".")
        revision

/-- The nodes whose queued ballot is checked once staging has finished. -/
def ballotCandidates (p : Patch rt) : List String :=
  Text.sortedSet (p.ops.flatMap fun
    | .createNodes nodes => nodes.map (·.id)
    | .updateNodes updates => updates.map (·.id)
    | .supersedeNodes items => items.map (·.id)
    | .mergeNodes merges => merges.map (·.duplicate)
    | .setStanding id _ => [id]
    | _ => [])

/-- `_validate_queued_decision_options`. -/
def queuedDecisionIssues (ctx : OpContext rt) : List Issue :=
  if ctx.admission then
    (ballotCandidates ctx.patch).flatMap fun id =>
      if carriesStagedNode ctx id then []
      else
        match ctx.state.nodes.get? id with
        | none => []
        | some n => incompleteBallotIssues n ctx.revision
  else []

/-- `_created_edges`: ids of the edges an operation writes, with their endpoints. -/
def writtenEdges : GraphOperation rt → List (String × String × String)
  | .createEdges edges => edges.map fun e => (e.edgeId, e.source, e.target)
  | .supersedeNodes items =>
      items.filterMap fun i =>
        i.supersededBy.map fun t => (derivedEdgeId i.id "supersedes" t, i.id, t)
  | .mergeNodes merges =>
      merges.map fun m =>
        (derivedEdgeId m.duplicate "duplicate_of" m.canonical, m.duplicate, m.canonical)
  | _ => []

/-- The nodes and edges present at a point of a patch. -/
structure Presence where
  nodes : List String
  edges : List (String × String × String)

/-- `_update_resource_presence`. -/
def Presence.after (here : Presence) (op : GraphOperation rt) : Presence :=
  let kept : Presence :=
    match op with
    | .createNodes nodes => { here with nodes := here.nodes ++ nodes.map (·.id) }
    | .removeNodes ids =>
        { nodes := here.nodes.filter fun id => id ∉ ids
          edges := here.edges.filter fun e => e.2.1 ∉ ids && e.2.2 ∉ ids }
    | .removeEdges ids => { here with edges := here.edges.filter fun e => e.1 ∉ ids }
    | _ => here
  { kept with edges := Assoc.overwrite kept.edges (writtenEdges op) }

/-- The nodes one operation changes in place or removes. -/
def changedNodeIds : GraphOperation rt → List String
  | .updateNodes updates => updates.map (·.id)
  | .supersedeNodes items => items.map (·.id)
  | .mergeNodes merges => merges.map (·.duplicate)
  | .removeNodes ids => ids
  | .setStanding id _ => [id]
  | _ => []

/-- The dependencies that move after a Proposal was filed in the same patch. -/
structure LaterMoves where
  nodes : List String
  edges : List String
  config : List String

/-- `_later_dependency_mutations`. -/
def laterDependencyMutations (ctx : OpContext rt) (position : Nat)
    (relatedNodes relatedEdges relatedConfig : List String) : LaterMoves :=
  let start : Presence :=
    { nodes := ctx.initialState.nodes.keys
      edges := ctx.initialState.edges.values.map fun e => (e.id, e.source, e.target) }
  let here := (ctx.patch.ops.take position).foldl Presence.after start
  let later := ctx.patch.ops.drop (position + 1)
  let changedNodes := later.flatMap changedNodeIds
  let createdNodes := later.flatMap fun
    | .createNodes nodes => nodes.map (·.id)
    | _ => []
  let createdEdges := later.flatMap fun op => (writtenEdges op).map (·.1)
  let removedEdges := later.flatMap fun
    | .removeEdges ids => ids
    | _ => []
  let setsOntology := later.any fun
    | .setOntology _ => true
    | _ => false
  let setsScope := later.any fun
    | .setProjectTruthScope _ _ => true
    | _ => false
  { nodes := Text.sortedSet (relatedNodes.filter fun id =>
      id ∈ changedNodes || (id ∈ createdNodes && id ∈ here.nodes))
    edges := Text.sortedSet (relatedEdges.filter fun id =>
      id ∈ removedEdges || (id ∈ createdEdges && id ∈ here.edges.map (·.1)))
    config := Text.sortedSet (relatedConfig.filter fun key =>
      (key = "ontology" && setsOntology) || (key = "project_truth_scope" && setsScope)) }

/-- The position of the last operation that files each Proposal of a patch. -/
def filingPositions (p : Patch rt) : Dict String Nat :=
  Dict.ofList (p.ops.zipIdx.flatMap fun (op, i) =>
    match op with
    | .createProposals proposals => proposals.map fun raw => (raw.proposal.id, i)
    | _ => [])

/-- `_validate_created_proposal_liveness` for one Proposal. -/
def proposalLivenessIssues (ctx : OpContext rt) (id : String) (position : Nat) : List Issue :=
  match ctx.state.proposals.get? id with
  | none => []
  | some proposal =>
      let moves :=
        if ctx.admission then
          laterDependencyMutations ctx position
            (proposal.relatedNodeIds ++ (causeEvidenceSources ctx.state proposal).map Prod.snd)
            proposal.relatedEdgeIds proposal.relatedConfigKeys
        else ⟨[], [], []⟩
      let moved := Text.sortedSet (moves.nodes ++ moves.edges ++ moves.config)
      if moved ≠ [] then
        [reject "stale-created-proposal"
          ("Proposal " ++ Text.quoted id ++ " is already stale because a snapshotted dependency " ++
            "moved later in its outer patch: " ++ Text.join ", " moved ++ ".") ctx.revision
          moves.nodes moves.edges]
      else
        rejectIf (proposalIsStale ctx.state proposal) "stale-created-proposal"
          ("Proposal " ++ Text.quoted id ++ " is already stale after applying its outer patch.")
          ctx.revision proposal.relatedNodeIds

/-- `_validate_created_proposal_liveness`. -/
def createdProposalIssues (ctx : OpContext rt) : List Issue :=
  (Text.sortedSet (filingPositions ctx.patch).keys).flatMap fun id =>
    match (filingPositions ctx.patch).get? id with
    | none => []
    | some position => proposalLivenessIssues ctx id position

/-- What the caller of validation supplies beside the patch. -/
structure PatchRequest where
  writer : Option Writer := none
  experimentControlNodeId : Option String := none
  experimentDecisionBundle : Option (List DecisionPin) := none

/-- The context a patch's operations are judged in. -/
def openContext (s : GraphState rt) (p : Patch rt) (vc : ValidationContext rt)
    (request : PatchRequest) : OpContext rt where
  state := s
  initialState := s
  patch := p
  writer := request.writer.getD (Writer.ofPatch p)
  revision := p.revisionRef
  projectTruthScope := vc.projectTruthScope
  repositories :=
    match vc.repositoryAliases with
    | some (first :: rest) => first :: rest
    | _ => vc.projectTruthScope
  machines := vc.machineAliases
  stateRepository := vc.stateRepository
  mode := vc.mode
  experimentControlNodeId :=
    (request.experimentControlNodeId.filter (· ≠ "")).or p.experimentControlNodeId
  mergeSource := vc.mergeSource

/-- The rules that judge a patch before its operations are staged. -/
def envelopeIssues (s : GraphState rt) (p : Patch rt) (ctx : OpContext rt)
    (bundle : List DecisionPin) : List Issue :=
  rejectIf (ctx.admission && p.schemaGeneration ≠ .two) "legacy-schema-write"
      "New graph writes must use the current schema generation." ctx.revision ++
    rejectIf (p.revision ≠ 0 && p.revision ≠ s.revision + 1) "non-monotonic-revision"
      ("Patch revision " ++ toString p.revision ++ " must follow graph revision " ++
        toString s.revision ++ ".") ctx.revision ++
    validateAuthorship p ++
    validateWriterActions p (ctx.mode = .replay) ++
    identityShapeIssues p ++
    attributionShapeIssues p ++
    declaredActionIssues s p ctx.writer ++
    declaredScopeIssues p ctx.projectTruthScope ctx.repositories ++
    (if p.kind = .experimentLoop then
      experimentLoopIssues s p ctx.experimentControlNodeId bundle ctx.mode
    else
      rejectIf ((ctx.experimentControlNodeId.any (· ≠ "")) || bundle ≠ [])
        "unexpected-experiment-control"
        "Experiment control metadata is legal only on experiment-loop patches." ctx.revision) ++
    if p.kind = .approval then approvalShapeIssues s p ctx.writer ctx.mode else []

/-- `_validate_patch`. -/
def patchIssues (s : GraphState rt) (p : Patch rt) (vc : ValidationContext rt)
    (request : PatchRequest) : List Issue :=
  let ctx := openContext s p vc request
  let bundle := request.experimentDecisionBundle.getD p.experimentDecisionBundle
  let staged := stageOps patchRules p.ops ctx
  envelopeIssues s p ctx bundle ++ staged.2 ++ queuedDecisionIssues staged.1 ++
    createdProposalIssues staged.1

/-- `validate_patch` of a patch without a trace. -/
def validateSourcePatch (s : GraphState rt) (p : Patch rt) (vc : ValidationContext rt)
    (request : PatchRequest := {}) : List ValidationMessage :=
  settleIssues (patchIssues s p vc request) "malformed-operation"
    "Patch operations are malformed: " p.revisionRef

def transitionInvalid (p : Patch rt) (text : String) : ValidationMessage where
  level := .reject
  code := "transition-trace-invalid"
  message := "Committed transition provenance is invalid: " ++ text ++ "."
  patchRevision := p.revisionRef

/-- The source patches of a transition, validated one after another. -/
def validateSources (base : Nat) (p : Patch rt) (vc : ValidationContext rt) :
    List (Patch rt) → GraphState rt → List ValidationMessage
  | [], _ => []
  | source :: rest, staged =>
      let here := { staged with revision := base }
      let report := validateSourcePatch here source
        { vc with projectTruthScope := here.projectTruthScope }
      report ++
        if rejected report then []
        else
          match applyValidPatch here source with
          | .error text => [transitionInvalid p text]
          | .ok next => validateSources base p vc rest { next with revision := base }

/-- `_validate_transition_patch`. -/
def validateTransitionPatch (s : GraphState rt) (p : Patch rt) (trace : TransitionTrace)
    (vc : ValidationContext rt) : List ValidationMessage :=
  if vc.mode ≠ .replay then
    [{ level := .reject
       code := "reserved-transition-trace"
       message := "A committed transition trace is backend-owned and cannot be supplied for " ++
         "admission."
       patchRevision := p.revisionRef }]
  else
    match validateTransitionTrace s p trace with
    | .error text => [transitionInvalid p text]
    | .ok sources => validateSources s.revision p vc sources s

/-- `validate_patch`. -/
def validatePatch (s : GraphState rt) (p : Patch rt) (vc : ValidationContext rt)
    (request : PatchRequest := {}) : List ValidationMessage :=
  match p.transition with
  | some trace => validateTransitionPatch s p trace vc
  | none => validateSourcePatch s p vc request

end RcpGraph
