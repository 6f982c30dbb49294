import RcpGraph.Validation.Nodes

/-!
One rule for each operation. Structural rules hold in admission and in replay,
authoring rules only in admission. Endpoints are looked up in the staged graph
and in everything the whole patch creates, so that an operation may refer to a
node that a later operation of its patch creates.
-/

namespace RcpGraph

open Schema

variable {rt : Runtime}

def resolvesProposals (p : Patch rt) : Bool :=
  p.ops.any fun
    | .resolveProposals _ => true
    | _ => false

/-- `validate_create_nodes`. -/
def createNodesIssues (ctx : OpContext rt) (nodes : List (RawNode rt)) : List Issue :=
  nodes.flatMap fun raw =>
    rejectIf (ctx.admission && decide (raw.id ∈ ctx.initialState.nodes))
        "initial-node-id-replacement"
        ("Node " ++ Text.quoted raw.id ++ " existed before this Patch and cannot be recreated; " ++
          "use update_nodes or a protected Proposal.") ctx.revision [raw.id] ++
      newNodeIssues ctx.state ctx.patch ctx.writer raw ++
      sourceRefIssues ((raw.field? "source_refs").getD (.arr [])) ctx.patch ctx.writer
        ctx.repositories

/-- `author_create_nodes`. -/
def authorCreateNodesIssues (ctx : OpContext rt) (nodes : List (RawNode rt)) : List Issue :=
  nodes.flatMap fun raw =>
    (if carriesNewNode ctx raw then [] else liveLegacyNewNodeIssues raw ctx.revision) ++
      newNodeAuthoringIssues ctx.state ctx.patch ctx.writer raw (carriesNewNode ctx raw)

/-- The system fields an update names. -/
def immutableNamed (ctx : OpContext rt) (changes : Dict String Json) (liveStrength : Bool) :
    List String :=
  Text.sortedSet (changes.keys.filter fun f =>
    decide (f ∈ immutableNodeUpdateFields) &&
      (if ctx.mode = .replay ∧ ctx.patch.schemaGeneration = .one then
        decide (f ∉ legacyCompatibilityUpdateFields)
      else !(liveStrength && f = "legacy_strength")))

/-- How strictly an update's candidate is read. -/
def OpContext.coercions (ctx : OpContext rt) : Coercions :=
  if ctx.mode = .replay ∧ ctx.patch.schemaGeneration = .one then rt.lax else strict

/-- Whether the update is the experiment loop's own control write. -/
def isControlUpdate (ctx : OpContext rt) (u : NodeUpdate) : Bool :=
  decide (ctx.patch.kind = .experimentLoop) &&
    decide (ctx.experimentControlNodeId = some u.id) &&
    u.changes.keys.all fun f => f = "attempts" || f = "status"

/-- The authority an update's change of belief or choice needs. -/
def gatedUpdateIssues (ctx : OpContext rt) (n : ProjectNode rt) (u : NodeUpdate) : List Issue :=
  if !isControlUpdate ctx u && requiresProposal n u.changes then
    if n.type.isChooser then
      rejectIf (ctx.admission &&
          !(ctx.writer.author = some .human || ctx.writer.profile = some .orchestrator))
        "decision-action-refused"
        ("Update to " ++ u.id ++ " uses decide_decision; only a human may write " ++
          "selected_option or status decided.") ctx.revision [n.id]
    else
      rejectIf (ctx.writer.author ≠ some .human) "gated-transition"
        ("Update to " ++ u.id ++ " requires a Proposal and human approval.") ctx.revision [u.id]
  else []

/-- The checks on one update of a node that exists, past its system fields. -/
def updateContentIssues (ctx : OpContext rt) (n : ProjectNode rt) (u : NodeUpdate) : List Issue :=
  (match n.reviseContent ctx.coercions u.changes with
    | .error text =>
        [reject "invalid-node-update" ("Update to " ++ u.id ++ " is invalid: " ++ text ++ ".")
          ctx.revision]
    | .ok _ => []) ++
    updatedExtensionIssues ctx.state n u.changes ctx.patch.revisionRef false
      (ctx.writer.author = some .agent) ++
    gatedUpdateIssues ctx n u ++
    (if ctx.admission && n.type.isChooser then
      match decisionTransitionError n u.changes with
      | some text => [reject "incoherent-decision-transition" text ctx.revision [n.id]]
      | none => []
    else []) ++
    sourceRefIssues (u.changes.getD "source_refs" (.arr [])) ctx.patch ctx.writer ctx.repositories

/-- One update of `validate_update_nodes`. -/
def updateNodeIssues (ctx : OpContext rt) (u : NodeUpdate) : List Issue :=
  match ctx.state.nodes.get? u.id with
  | none =>
      [reject "unknown-node" ("Cannot update missing node " ++ Text.quoted u.id ++ ".")
        ctx.revision]
  | some n =>
      let live := ctx.admission && !carriesUpdate ctx u.id u.changes
      let strength := liveLegacyStrength n u.changes live
      let immutable := immutableNamed ctx u.changes strength
      liveLegacyUpdateIssues n u.changes ctx.revision live ++
        if immutable ≠ [] then
          [reject "immutable-node-field"
            ("Update to " ++ u.id ++ " cannot change system fields: " ++
              Text.join ", " immutable ++ ".") ctx.revision]
        else if strength then []
        else
          match liveLegacyPhase n u.changes live with
          | .ok false => updateContentIssues ctx n u
          | _ => []

/-- `validate_update_nodes`. -/
def updateNodesIssues (ctx : OpContext rt) (updates : List NodeUpdate) : List Issue :=
  updates.flatMap (updateNodeIssues ctx)

/-- `_edge_in_context`: source, target and relation of the edge. -/
def edgeInContext (ctx : OpContext rt) (id : String) : Option (String × String × String) :=
  match ctx.state.edges.get? id with
  | some e => some (e.source, e.target, e.relation)
  | none =>
      let created := ctx.patches.flatMap fun p => p.ops.flatMap fun
        | .createEdges edges => edges
        | _ => []
      match created.find? fun e => e.edgeId = id with
      | none => none
      | some e =>
          if (relationSpec? e.relation).isSome then some (e.source, e.target, e.relation) else none

def resolvedProposalIds (p : Patch rt) : List String :=
  p.ops.flatMap fun
    | .resolveProposals resolutions => resolutions.map (·.id)
    | _ => []

/-- `_validate_belief_cause`. -/
def beliefCauseIssues (ctx : OpContext rt) (id : String) (cause : Option BeliefCause) :
    List Issue :=
  match cause with
  | none =>
      [reject "missing-belief-cause"
        ("Changing Hypothesis " ++ Text.quoted id ++ " status requires a cause object.")
        ctx.revision [id]]
  | some .humanEdit =>
      rejectIf (ctx.writer.author ≠ some .human)
        (if ctx.admission && ctx.writer.profile = some .orchestrator &&
            ctx.patch.branchMerge.isSome then "merge-belief-review-required"
          else "invalid-belief-cause")
        ("human_edit cause for " ++ Text.quoted id ++ " is legal only on human approval.")
        ctx.revision [id]
  | some (.decision ref) =>
      rejectIf (!(ctx.nodeType? ref).any NodeType.isChooser) "invalid-belief-cause"
        ("Decision cause " ++ Text.quoted ref ++ " for " ++ Text.quoted id ++
          " does not name a Decision.") ctx.revision [id, ref]
  | some (.proposalResolution ref) =>
      rejectIf (ref ∉ resolvedProposalIds ctx.patch) "invalid-belief-cause"
        ("Proposal-resolution cause " ++ Text.quoted ref ++ " for " ++ Text.quoted id ++
          " is not resolved in this patch.") ctx.revision [id]
  | some (.evidenceEdge ref) =>
      rejectIf
        (match edgeInContext ctx ref with
          | none => true
          | some (source, target, relation) =>
              target ≠ id || relation ∉ beliefOutcomeRelations ||
                !(ctx.nodeType? source).any NodeType.isOutcome)
        "invalid-belief-cause"
        ("Evidence-edge cause " ++ Text.quoted ref ++
          " must be an evidence relation targeting " ++ Text.quoted id ++ ".") ctx.revision [id]
        [ref]

/-- `author_update_nodes`. -/
def authorUpdateNodesIssues (ctx : OpContext rt) (updates : List NodeUpdate) : List Issue :=
  let direct := decide (ctx.writer.author = some .human) && ctx.referencePatch.isNone &&
    !resolvesProposals ctx.patch
  updates.flatMap fun u =>
    match ctx.state.nodes.get? u.id with
    | none => []
    | some n =>
        -- The grounded-scope rule judges the new scope against the node's source_refs.
        (if !direct && !carriesUpdate ctx u.id u.changes ["source_refs"] then
          updatedNodeAuthoringIssues n u.changes ctx.revision
        else []) ++
          updatedExtensionIssues ctx.state n u.changes ctx.patch.revisionRef true
            (ctx.writer.author = some .agent) ++
          if n.type.isBelief && (u.changes.get? "status").any fun v => v ≠ .str (n.text "status")
          then beliefCauseIssues ctx n.id u.cause
          else []

/-- Relations and endpoint types whose edges carry a claim-relative assessment. -/
def assessmentApplies (relation : String) (source target : Option NodeType) : Bool :=
  decide (relation ∈ beliefOutcomeRelations) && source.any NodeType.isOutcome &&
    target.any NodeType.isBelief

/-- Endpoint, expectation and assessment rules of one new edge. -/
def edgeContentIssues (ctx : OpContext rt) (e : NewEdge) : List Issue :=
  let source := ctx.nodeType? e.source
  let target := ctx.nodeType? e.target
  let id := e.edgeId
  let authored := ctx.admission && !carriesEdge ctx e
  let applies := assessmentApplies e.relation source target
  let nodes := [e.source, e.target]
  rejectIf (decide (e.source ∉ ctx.state.nodes) && !ctx.createdNodeId e.source)
      "unknown-edge-source" ("Unknown edge source " ++ Text.quoted e.source ++ ".") ctx.revision ++
    rejectIf (decide (e.target ∉ ctx.state.nodes) && !ctx.createdNodeId e.target)
      "unknown-edge-target" ("Unknown edge target " ++ Text.quoted e.target ++ ".") ctx.revision ++
    (if authored && decide (e.relation ∈ beliefOutcomeRelations) then
      match source, target with
      | some s, some t =>
          match evidenceRelationEndpointError e.relation s t with
          | some text =>
              [reject "invalid-evidence-relation-endpoints" text ctx.revision nodes [id]]
          | none => []
      | _, _ => []
    else []) ++
    rejectIf (e.expectation.join.isSome && !expectationApplies e.relation source target)
      "inapplicable-edge-expectation"
      ("Edge " ++ Text.quoted id ++ " may carry an expectation only on an Experiment " ++
        "`produces` Evidence relation.") ctx.revision nodes [id] ++
    (match e.expectation.join with
      | some .matched | some .diverged =>
          rejectIf (Text.strip (e.explanation.getD "") = "") "unexplained-edge-expectation"
            ("Edge " ++ Text.quoted id ++ " records a " ++
              Text.quoted ((e.expectation.join.map EdgeExpectation.name).getD "") ++
              " expectation; its explanation must name the expected outcome being judged.")
            ctx.revision nodes [id]
      | _ => []) ++
    if e.assessment.join.isSome && !applies then
      [reject "inapplicable-evidence-assessment"
        ("Edge " ++ Text.quoted id ++ " may carry an assessment only when Evidence bears on a " ++
          "Hypothesis through supports, weakens, refutes, inconclusive, or contradicts.")
        ctx.revision nodes [id]]
    else
      rejectIf (authored && applies && e.assessment.join.isNone) "missing-evidence-assessment"
        ("New Evidence-to-Hypothesis edge " ++ Text.quoted id ++
          " requires a claim-relative assessment.") ctx.revision nodes [id]

/-- `repr` of the id an edge was written with. -/
def NewEdge.idRepr (e : NewEdge) : String :=
  match e.id.join with
  | some id => Text.quoted id
  | none => "None"

/-- `validate_create_edges` from an edge on; `seen` are the ids taken so far. -/
def createEdgesIssues (ctx : OpContext rt) : List String → List NewEdge → List Issue
  | _, [] => []
  | seen, e :: es =>
      let nodes := [e.source, e.target]
      edgeContentIssues ctx e ++
        match relationSpec? e.relation, customRelation ctx.state.ontology e.relation with
        | none, none =>
            reject "invalid-edge"
              ("Edge " ++ e.idRepr ++ " uses unknown relation " ++ Text.quoted e.relation ++ ".")
              ctx.revision nodes :: createEdgesIssues ctx seen es
        | spec, custom =>
            (match spec, custom with
              | none, some custom =>
                  rejectIf
                    (!edgeMatchesRelation ctx.state e.source e.target custom ctx.patch.createdNodes)
                    "custom-relation-type-mismatch"
                    ("Relation " ++ Text.quoted custom.name ++
                      " does not allow the semantic endpoint types for " ++ Text.quoted e.source ++
                      " -> " ++ Text.quoted e.target ++ ".") ctx.revision nodes
              | _, _ => []) ++
              match e.writtenId with
              | none =>
                  reject "invalid-edge" "Edge None is invalid: Input should be a valid string."
                    ctx.revision nodes :: createEdgesIssues ctx seen es
              | some id =>
                  if ctx.admission then
                    if id ∈ seen then
                      reject "duplicate-edge-id"
                        ("Edge " ++ Text.quoted id ++
                          " already exists; remove it before creating a replacement.")
                        ctx.revision [] [id] :: createEdgesIssues ctx seen es
                    else createEdgesIssues ctx (id :: seen) es
                  else createEdgesIssues ctx seen es

/-- `edge_shape_refusals`: code, message and whether the refusal names the endpoints. -/
def edgeShapeRefusals (ontology : OntologyState) (id relation : String)
    (source target : Option NodeType) : List (String × String × Bool) :=
  (match customRelation ontology relation with
    | some custom =>
        if custom.deprecated then
          [("deprecated-custom-relation",
            "Custom relation " ++ Text.quoted custom.name ++
              " is deprecated and cannot author new edges.", false)]
        else []
    | none => []) ++
  match relationSpec? relation with
  | none => []
  | some spec =>
      if !spec.authorable then
        [("retired-relation",
          "Edge " ++ Text.quoted id ++ " uses retired relation " ++ Text.quoted relation ++
            "; it cannot author new edges.", true)]
      else
        match source, target with
        | some s, some t =>
            if (s ∈ spec.sourceTypes ∧ t ∈ spec.targetTypes) ∧ ¬(spec.sameType ∧ s ≠ t) then []
            else
              let allowed := fun (ts : List NodeType) =>
                Text.join ", " (Text.sortedSet (ts.map NodeType.name))
              [("relation-type-mismatch",
                "Edge " ++ Text.quoted id ++ " uses " ++ Text.quoted relation ++ " from " ++
                  s.name ++ " to " ++ t.name ++ "; allowed source types are [" ++
                  allowed spec.sourceTypes ++ "] and target types are [" ++
                  allowed spec.targetTypes ++ "]" ++
                  (if spec.sameType then "; source and target must have the same type" else "") ++
                  ".", true)]
        | _, _ => []

/-- `author_create_edges`. A human's deprecation binds carried edges too. -/
def authorCreateEdgesIssues (ctx : OpContext rt) (edges : List NewEdge) : List Issue :=
  edges.flatMap fun e =>
    ((edgeShapeRefusals ctx.state.ontology e.edgeId e.relation (ctx.nodeType? e.source)
        (ctx.nodeType? e.target)).filter fun r =>
          !carriesEdge ctx e || r.1 = "deprecated-custom-relation").map fun r =>
      reject r.1 r.2.1 ctx.revision (if r.2.2 then [e.source, e.target] else [])
        (if r.2.2 then [e.edgeId] else [])

/-- The shape of a batch of ids to remove. -/
def removalShapeIssues (code what thing : String) (ids : List String) (revision : Option Nat) :
    List Issue :=
  if ids = [] ∨ "" ∈ ids then
    [reject code ("A " ++ what ++ " operation requires at least one non-empty " ++ thing ++ " id.")
      revision]
  else
    rejectIf (decide (¬ids.Nodup)) code
      ("A " ++ what ++ " operation cannot name the same " ++ thing ++ " more than once.") revision

/-- `validate_remove_edges`. -/
def removeEdgesIssues (ctx : OpContext rt) (ids : List String) : List Issue :=
  removalShapeIssues "invalid-remove-edges-operation" "remove_edges" "edge" ids ctx.revision

/-- The checks on one node to remove. -/
def removeNodeIssues (ctx : OpContext rt) (id : String) : List Issue :=
  let approval := decide (ctx.writer.author = some .human) &&
    (ctx.referencePatch.isSome || resolvesProposals ctx.patch)
  match ctx.state.nodes.get? id with
  | none =>
      [reject "unknown-node" ("Cannot remove missing node " ++ Text.quoted id ++ ".") ctx.revision
        [id]]
  | some n =>
      let first := ctx.initialState.nodes.getD id n
      rejectIf (first.standing = .accepted && !approval) "accepted-node-removal"
          ("Cannot remove accepted node " ++ Text.quoted id ++
            "; clear or contest it in an earlier human Sync first.") ctx.revision [id] ++
        rejectIf (hasActiveAttempt first || hasActiveAttempt n) "active-experiment-removal"
          ("Cannot remove Experiment " ++ Text.quoted id ++
            " while its bounded loop has an active attempt.") ctx.revision [id]

/-- `validate_remove_nodes`. -/
def removeNodesIssues (ctx : OpContext rt) (ids : List String) : List Issue :=
  match removalShapeIssues "invalid-remove-nodes-operation" "remove_nodes" "node" ids
      ctx.revision with
  | [] => ids.flatMap (removeNodeIssues ctx)
  | issues => issues

/-- `_validate_generated_relation_endpoints`. -/
def generatedRelationIssues (ctx : OpContext rt) (source target relation : String) : List Issue :=
  let id := derivedEdgeId source relation target
  if source = target then
    [reject "invalid-generated-relation"
      ("Relation " ++ Text.quoted relation ++ " requires distinct source and target nodes.")
      ctx.revision [source]]
  else if id ∈ ctx.state.edges then
    [reject "duplicate-edge-id"
      ("Edge " ++ Text.quoted id ++ " already exists; remove it before creating a replacement.")
      ctx.revision [] [id]]
  else
    match ctx.nodeType? source, ctx.nodeType? target with
    | some s, some t =>
        rejectIf (s ≠ t) "generated-relation-type-mismatch"
          ("Relation " ++ Text.quoted relation ++ " requires endpoints of the same type, not " ++
            Text.quoted s.name ++ " and " ++ Text.quoted t.name ++ ".") ctx.revision
          [source, target]
    | _, _ => []

/-- `validate_supersede_nodes`. -/
def supersedeNodesIssues (ctx : OpContext rt) (items : List SupersedeNode) : List Issue :=
  items.flatMap fun item =>
    rejectIf (item.id ∉ ctx.state.nodes) "unknown-node"
        ("Cannot supersede missing node " ++ Text.quoted item.id ++ ".") ctx.revision ++
      match item.supersededBy with
      | none => []
      | some target =>
          rejectIf (target ≠ "" && decide (target ∉ ctx.state.nodes) &&
              !ctx.createdNodeId target && (ctx.nodeType? target).isNone) "unknown-node"
              ("Cannot supersede " ++ Text.quoted item.id ++ " with missing node " ++
                Text.quoted target ++ ".") ctx.revision ++
            if ctx.admission then generatedRelationIssues ctx item.id target "supersedes" else []

/-- `validate_merge_nodes`. -/
def mergeNodesIssues (ctx : OpContext rt) (merges : List NodeMerge) : List Issue :=
  merges.flatMap fun m =>
    rejectIf (m.duplicate ∉ ctx.state.nodes) "unknown-node"
        ("Cannot merge missing duplicate node " ++ Text.quoted m.duplicate ++ ".") ctx.revision ++
      rejectIf (decide (m.canonical ∉ ctx.state.nodes) && (ctx.nodeType? m.canonical).isNone)
        "unknown-node"
        ("Cannot merge into missing canonical node " ++ Text.quoted m.canonical ++ ".")
        ctx.revision ++
      if ctx.admission then generatedRelationIssues ctx m.duplicate m.canonical "duplicate_of"
      else []

/-- `validate_resolve_ambiguities`; the payload type excludes every other status. -/
def resolveAmbiguitiesIssues (ctx : OpContext rt) (resolutions : List AmbiguityResolution) :
    List Issue :=
  resolutions.flatMap fun r =>
    rejectIf (r.id ∉ ctx.state.ambiguities) "unknown-ambiguity"
      ("Cannot resolve missing ambiguity " ++ Text.quoted r.id ++ ".") ctx.revision

/-- A resolution or withdrawal of a Proposal that is not there or not pending. -/
def pendingProposalIssues (ctx : OpContext rt) (verb id : String) : List Issue :=
  match ctx.state.proposals.get? id with
  | none =>
      [reject "unknown-proposal"
        ("Cannot " ++ verb ++ " missing proposal " ++ Text.quoted id ++ ".") ctx.revision]
  | some p =>
      rejectIf (p.status ≠ .pending) "proposal-not-pending"
        ("Proposal " ++ Text.quoted id ++ " is not pending.") ctx.revision

/-- `validate_set_standing`; the payload type excludes every other standing. -/
def setStandingIssues (ctx : OpContext rt) (id : String) : List Issue :=
  rejectIf (id ∉ ctx.state.nodes) "unknown-node"
    ("Cannot review missing node " ++ Text.quoted id ++ ".") ctx.revision

/-- The repositories known after a `set_project_truth_scope`: a complete descriptor
makes its alias available to the operations after it. -/
def repositoriesAfter (repositories : List String) : GraphOperation rt → List String
  | .setProjectTruthScope _ (some d) =>
      if d.repositoryAlias = "" ∨ d.path = "" ∨ d.repositoryAlias ∈ repositories then repositories
      else d.repositoryAlias :: repositories
  | _ => repositories

/-- `validate_set_project_truth_scope`. -/
def truthScopeIssues (ctx : OpContext rt) (scope : List String)
    (repository : Option RepositoryDescriptor) : List Issue :=
  let repositories :=
    repositoriesAfter ctx.repositories (.setProjectTruthScope scope repository : GraphOperation rt)
  let unknown := Text.sortedSet (scope.filter fun a => a ∉ repositories)
  (match repository with
    | none => []
    | some d =>
        if d.repositoryAlias = "" ∨ d.path = "" then
          [reject "incomplete-repository" "A new repository descriptor needs alias and path."
            ctx.revision]
        else
          rejectIf (d.machine ≠ "" && ctx.machines.any fun ms => d.machine ∉ ms)
            "unknown-repository-machine"
            ("Repository " ++ Text.quoted d.repositoryAlias ++ " uses unknown machine " ++
              Text.quoted d.machine ++ ".") ctx.revision) ++
    rejectIf (unknown ≠ []) "unknown-project-repository"
      ("Project truth scope names unknown repositories: " ++ Text.quotedList unknown ++ ".")
      ctx.revision ++
    rejectIf (ctx.stateRepository.any fun r => r ≠ "" && decide (r ∉ scope))
      "remove-state-repository"
      "The canonical state repository must remain in project truth scope in v1." ctx.revision

/-- `validate_set_ontology`. -/
def setOntologyIssues (ctx : OpContext rt) (ontology : OntologyState) : List Issue :=
  validateOntologyStructure ontology ctx.revision (ctx.mode = .replay) ++
    if ctx.admission then validateOntologyChange ctx.state ontology ctx.revision else []

/-- The structural rule of every operation but `create_proposals`. -/
def structuralIssues (ctx : OpContext rt) : GraphOperation rt → List Issue
  | .createNodes nodes => createNodesIssues ctx nodes
  | .updateNodes updates => updateNodesIssues ctx updates
  | .createEdges edges => createEdgesIssues ctx ctx.state.edges.keys edges
  | .removeEdges ids => removeEdgesIssues ctx ids
  | .removeNodes ids => removeNodesIssues ctx ids
  | .supersedeNodes items => supersedeNodesIssues ctx items
  | .mergeNodes merges => mergeNodesIssues ctx merges
  | .resolveAmbiguities resolutions => resolveAmbiguitiesIssues ctx resolutions
  | .resolveProposals resolutions =>
      resolutions.flatMap fun r => pendingProposalIssues ctx "resolve" r.id
  | .withdrawProposals proposals =>
      proposals.flatMap fun w => pendingProposalIssues ctx "withdraw" w.id
  | .setStanding id _ => setStandingIssues ctx id
  | .setProjectTruthScope scope repository => truthScopeIssues ctx scope repository
  | .setOntology ontology => setOntologyIssues ctx ontology
  | .createAmbiguities _ | .createProposals _ | .upsertGlossary _ | .setCoverage _ => []

/-- The authoring rule of every operation but `create_proposals`. -/
def authoringIssues (ctx : OpContext rt) : GraphOperation rt → List Issue
  | .createNodes nodes => authorCreateNodesIssues ctx nodes
  | .updateNodes updates => authorUpdateNodesIssues ctx updates
  | .createEdges edges => authorCreateEdgesIssues ctx edges
  | _ => []

end RcpGraph
