import RcpGraph.Lib.Grouping
import RcpGraph.Validation.Dependencies
import RcpGraph.Validation.Stage

/-!
Rules for filing a Proposal. An agent may only ask for one protected change of a
closed list of shapes, a branch merge also for a bundle whose members cannot be
approved apart. The proposed operations pass the ordinary operation rules on the
graph the Proposal is filed against, as the human who would approve them.
-/

namespace RcpGraph

open Schema

variable {rt : Runtime}

/-- `_is_branch_merge`. -/
def isBranchMerge (p : Patch rt) (w : Writer) : Bool :=
  decide (w.author = some .agent) && decide (w.profile = some .orchestrator) &&
    p.branchMerge.isSome

/-- `proposal_filing_dependency_rule`. -/
def proposalFilingDependencyRule (operationCount : Nat) (branchMerge : Bool) : DependencyRule :=
  if branchMerge && decide (1 < operationCount) then .connectedReview else .causeEvidence

/-- The review a component of operations would be filed as. -/
def componentDraft (base : Proposal rt) (ops : List (ProposalOperation rt)) : Proposal rt :=
  { base with
    ops := ops
    raisedRev := 0
    dependencyRule := proposalFilingDependencyRule ops.length true }

/-- The speculative footprint of a group, filed as one review. -/
def groupFootprint (s : GraphState rt) (proposals : List (Proposal rt)) (group : List Nat) :
    Except String ProposalFootprint :=
  match group.head?.bind fun i => proposals[i]? with
  | none => .error "list index out of range"
  | some base =>
      proposalEffectFootprint s (componentDraft base
        (group.flatMap fun i => ((proposals[i]?).map (·.ops)).getD []))

/-- Whether two groups share a link. -/
def linked (links : Option (Nat → List String)) (a b : List Nat) : Bool :=
  match links with
  | none => false
  | some links => a.any fun i => b.any fun j => (links i).any fun link => decide (link ∈ links j)

def groupsMeet (links : Option (Nat → List String)) (a b : List Nat × ProposalFootprint) : Bool :=
  interferes a.2 b.2 || linked links a.1 b.1

/-- `connected_proposal_groups`. -/
def connectedProposalGroups (s : GraphState rt) (proposals : List (Proposal rt))
    (links : Option (Nat → List String)) : Except String (List (List Nat)) :=
  Grouping.close (groupFootprint s proposals) (groupsMeet links)
    ((List.range proposals.length).map fun i => [i])

/-- `connected_proposal_operation_groups`. -/
def connectedProposalOperationGroups (s : GraphState rt) (proposal : Proposal rt) :
    Except String (List (List (ProposalOperation rt))) :=
  let single := proposal.ops.map fun op => { proposal with ops := [op] }
  (connectedProposalGroups s single none).map fun groups =>
    groups.map fun group => group.filterMap fun i => proposal.ops[i]?

/-- `_is_connected_merge_bundle`. -/
def isConnectedMergeBundle (s : GraphState rt) (p : Patch rt) (proposal : Proposal rt)
    (w : Writer) : Bool :=
  isBranchMerge p w && decide (proposal.dependencyRule = .connectedReview) &&
    match connectedProposalOperationGroups s proposal with
    | .ok groups => decide (groups.length = 1)
    | .error _ => false

/-- The one node a member of a same-node bundle writes. -/
def bundleTarget : ProposalOperation rt → Option String
  | .standingChange id _ => some id
  | .contentChange _ [u] | .statusChange _ [u] => some u.id
  | _ => none

/-- `_is_same_node_merge_bundle`. -/
def isSameNodeMergeBundle (s : GraphState rt) (p : Patch rt) (proposal : Proposal rt)
    (w : Writer) : Bool :=
  isBranchMerge p w && decide (2 ≤ proposal.ops.length) && decide (proposal.ops.length ≤ 3) &&
    decide (proposal.ops.map ProposalOperation.intent).Nodup &&
    proposal.ops.all (fun op => (bundleTarget op).isSome) &&
    match Text.sortedSet (proposal.ops.filterMap bundleTarget) with
    | [target] => isExistingProtectedNode s target
    | _ => false

/-- `PROPOSAL_INTENTS`, in order. -/
def proposalIntents : List String :=
  [ "content_change", "merge", "protected_relation_change", "removal", "standing_change",
    "status_change", "supersede" ]

def protectedNames : String := "ResearchQuestion or Hypothesis"

/-- Fields whose typed value never equals a JSON document but the empty one. -/
def structuredFields : List String := ["source_refs", "attempts", "proxies"]

/-- `getattr(node, field, object()) == value`. -/
def fieldEquals (n : ProjectNode rt) (field : String) (value : Json) : Bool :=
  match Assoc.find field n.dump with
  | none => false
  | some current =>
      if field ∈ structuredFields then current = .arr [] && value = .arr []
      else current.pyEq value

def oneUpdate (op : ProposalOperation rt) : Except String NodeUpdate :=
  match op with
  | .contentChange _ [u] | .statusChange _ [u] => .ok u
  | .contentChange _ _ | .statusChange _ _ =>
      .error "the declared intent must update exactly one node."
  | _ => .error "the declared intent requires exactly one update_nodes operation."

/-- Why an intent's rule refuses an operation; `none` when it does not. -/
abbrev IntentError := Option String

/-- `_validate_content_change_intent`. -/
def contentChangeError (s : GraphState rt) (op : ProposalOperation rt) : IntentError :=
  match oneUpdate op with
  | .error text => some text
  | .ok u =>
      if u.cause.isSome ∨ u.baseUpdatedRev.isSome then
        some "a content change requires exactly id and changes, with no cause."
      else
        match (s.nodes.get? u.id).filter fun n => n.type.isProtectedBelief with
        | none => some ("a content change must target one existing " ++ protectedNames ++ ".")
        | some n =>
            if u.changes.entries = [] then
              some "a content change must contain at least one changed field."
            else if "status" ∈ u.changes ∧ n.type = .hypothesis then
              some "Hypothesis status belongs in a status_change intent."
            else if u.changes.entries.all fun e => fieldEquals n e.1 e.2 then
              some "a content change must actually change the target node."
            else none

/-- `_validate_status_change_intent`. -/
def statusChangeError (s : GraphState rt) (p : Patch rt) (w : Writer)
    (op : ProposalOperation rt) : IntentError :=
  match oneUpdate op with
  | .error text => some text
  | .ok u =>
      match s.nodes.get? u.id with
      | none => some "a status change must target one Hypothesis in the staged graph."
      | some n =>
          if n.type = .decision then
            some ("Decision " ++ Text.quoted n.id ++ " cannot be proposed by an agent; its " ++
              "outcome requires the decide_decision action.")
          else if n.type ≠ .hypothesis then
            some "a status change must target one Hypothesis in the staged graph."
          else if u.cause.isNone ∨ u.baseUpdatedRev.isSome then
            some "a status change requires exactly id, changes, and cause."
          else if u.changes.keys ≠ ["status"] then
            some "a status change may change only Hypothesis status."
          else if changed u.changes "status" = .str (n.text "status") then
            some "a status change must actually change the Hypothesis status."
          else if u.cause = some .humanEdit ∧ isBranchMerge p w then none
          else
            match u.cause with
            | some (.evidenceEdge ref) =>
                if ref = "" then
                  some "a status change requires an evidence_edge cause naming an epistemic edge."
                else none
            | _ => some "a status change requires an evidence_edge cause naming an epistemic edge."

/-- `_validate_standing_change_intent`. -/
def standingChangeError (s : GraphState rt) (p : Patch rt) (w : Writer) (id : String)
    (standing : Standing) : IntentError :=
  if !isBranchMerge p w then
    some "standing changes may be proposed only by a canonical branch merge."
  else if (s.nodes.get? id).all fun n => n.standing = standing then
    some "a standing change must change the standing of one existing node."
  else none

/-- `_validate_removal_intent`. -/
def removalError (s : GraphState rt) (p : Patch rt) (w : Writer) (ids : List String) :
    IntentError :=
  match ids with
  | [id] =>
      if isExistingProtectedNode s id then none
      else if isBranchMerge p w &&
          (s.nodes.get? id).any fun n => decide (n.standing = .accepted) then none
      else some ("removal must target one existing " ++ protectedNames ++ ".")
  | _ => some "removal must name exactly one node."

/-- `_protected_node_type`. -/
def protectedNodeType (s : GraphState rt) (p : Patch rt) (id : String) : Option NodeType :=
  match (s.nodeType? id).filter NodeType.isProtectedBelief with
  | some t => some t
  | none => (p.createdNodeType id).filter NodeType.isProtectedBelief

/-- The words of the two intents that retire a protected belief. -/
structure RetirementWords where
  one : String
  cause : String
  source : String
  distinct : String
  target : String
  sameType : String

/-- The shared shape of `_validate_supersede_intent` and `_validate_merge_intent`. -/
def retirementError (s : GraphState rt) (p : Patch rt) (words : RetirementWords)
    (items : List (String × Option String × Option BeliefCause)) : IntentError :=
  match items with
  | [(id, target, cause)] =>
      if cause.isSome then some words.cause
      else
        match (s.nodeType? id).filter NodeType.isProtectedBelief with
        | none => some words.source
        | some type =>
            match target with
            | none => some words.distinct
            | some target =>
                if target = "" ∨ target = id then some words.distinct
                else
                  match protectedNodeType s p target with
                  | none => some words.target
                  | some other => if other ≠ type then some words.sameType else none
  | _ => some words.one

def supersedeWords : RetirementWords where
  one := "supersede must name exactly one predecessor and successor."
  cause := "supersede accepts only id, superseded_by, and optional explanation."
  source := "supersede must retire one existing " ++ protectedNames ++ "."
  distinct := "supersede must name a distinct successor node."
  target := "supersede must name a " ++ protectedNames ++ " successor."
  sameType := "supersede predecessor and successor must be the same protected belief type."

def mergeWords : RetirementWords where
  one := "merge must name exactly one duplicate and canonical node."
  cause := "merge accepts only duplicate, canonical, and optional explanation."
  source := "merge must fold one existing " ++ protectedNames ++ "."
  distinct := "merge must name a distinct canonical node."
  target := "merge must name a " ++ protectedNames ++ " canonical node."
  sameType := "merge duplicate and canonical must be the same protected belief type."

/-- `_validate_supersede_intent`. -/
def supersedeError (s : GraphState rt) (p : Patch rt) (items : List SupersedeNode) : IntentError :=
  retirementError s p supersedeWords (items.map fun i => (i.id, i.supersededBy, i.cause))

/-- `_validate_merge_intent`. -/
def mergeError (s : GraphState rt) (p : Patch rt) (merges : List NodeMerge) : IntentError :=
  retirementError s p mergeWords (merges.map fun m => (m.duplicate, some m.canonical, m.cause))

/-- Whether a recreated retirement edge only replaces one removed before it. -/
def replacesExisting (s : GraphState rt) (p : Patch rt) (w : Writer) (proposal : Proposal rt)
    (index : Nat) (e : NewEdge) : Bool :=
  match e.id.join with
  | none => false
  | some id =>
      isBranchMerge p w && decide (proposal.dependencyRule = .connectedReview) &&
        ((s.edges.get? id).any fun previous =>
          decide (previous.source = e.source ∧ previous.target = e.target ∧
            previous.relation = e.relation)) &&
        (proposal.ops.take index).any fun
          | .removeRelations _ ids => decide (id ∈ ids)
          | _ => false

/-- `_validate_protected_relation_change_intent` for a created edge. -/
def createRelationError (s : GraphState rt) (p : Patch rt) (w : Writer) (proposal : Proposal rt)
    (index : Nat) (edges : List NewEdge) : IntentError :=
  match edges with
  | [e] =>
      if e.relation ∉ protectedEpistemicRelations then
        some "a protected relation change must use a protected relation."
      else if (e.relation = "supersedes" ∨ e.relation = "duplicate_of") ∧
          replacesExisting s p w proposal index e = false then
        some "supersedes and duplicate_of must use their dedicated supersede or merge intent."
      else if isExistingProtectedNode s e.source || isExistingProtectedNode s e.target then none
      else some "a protected relation change must touch an existing belief node."
  | _ => some "a protected relation change must create exactly one edge."

/-- `_validate_protected_relation_change_intent` for a removed edge. -/
def removeRelationError (s : GraphState rt) (ids : List String) : IntentError :=
  match ids with
  | [id] =>
      match s.edges.get? id with
      | none => some "a protected relation removal must target one existing edge."
      | some e =>
          if e.relation ∉ protectedEpistemicRelations then
            some "a protected relation change must use a protected relation."
          else if isExistingProtectedNode s e.source || isExistingProtectedNode s e.target then none
          else some "a protected relation change must touch an existing belief node."
  | _ => some "a protected relation change must remove exactly one edge."

/-- The rule of one operation's intent. -/
def intentError (s : GraphState rt) (p : Patch rt) (w : Writer) (proposal : Proposal rt)
    (index : Nat) (op : ProposalOperation rt) : IntentError :=
  match op with
  | .contentChange _ _ => contentChangeError s op
  | .statusChange _ _ => statusChangeError s p w op
  | .standingChange id standing => standingChangeError s p w id standing
  | .removal _ ids => removalError s p w ids
  | .supersede _ items => supersedeError s p items
  | .merge _ merges => mergeError s p merges
  | .createRelations _ edges => createRelationError s p w proposal index edges
  | .removeRelations _ ids => removeRelationError s ids
  | _ => none

/-- `_validate_agent_proposal_boundary`. -/
def agentProposalBoundaryIssues (s : GraphState rt) (p : Patch rt) (w : Writer)
    (proposal : Proposal rt) (revision : Option Nat) : List Issue :=
  let refuse := fun text => reject "invalid-agent-proposal-shape" text revision
  if proposal.ops.length ≠ 1 &&
      !(if proposal.dependencyRule = .connectedReview then isConnectedMergeBundle s p proposal w
        else isSameNodeMergeBundle s p proposal w) then
    [refuse ("Proposal " ++ proposal.id ++ " must declare exactly one protected-change intent.")]
  else
    proposal.ops.zipIdx.flatMap fun (op, index) =>
      if op.isLegacy then
        [refuse ("Proposal " ++ proposal.id ++ " must declare one of these intents: " ++
          Text.join ", " proposalIntents ++ ".")]
      else
        match intentError s p w proposal index op with
        | none => []
        | some text =>
            [refuse ("Proposal " ++ proposal.id ++ " declares " ++ Text.quoted op.intent ++
              ", but " ++ text)]

/-- The flags on a Proposal's card. -/
def cardFlags (s : GraphState rt) (proposal : Proposal rt) (revision : Option Nat) : List Issue :=
  let fields :=
    [ ("situation_cold", proposal.card.situationCold), ("why_human_now", proposal.card.whyHumanNow),
      ("consequences", proposal.card.consequences),
      ("decision_needed", proposal.card.decisionNeeded) ]
  let missing := (fields.filter fun f => Text.strip f.2 = "").map Prod.fst
  let unresolved := Text.sortedSet
    ((rt.identifiers (Text.join " " (fields.map Prod.snd))).filter fun t => t ∉ s.glossary)
  (if missing = [] then []
    else
      [flag "incomplete-gated-card"
        ("Proposal " ++ proposal.id ++ " is missing readable card fields: " ++
          Text.join ", " missing ++ ".") revision]) ++
    if unresolved = [] then []
    else
      [flag "missing-glossary-term"
        ("Proposal " ++ proposal.id ++ " uses unexplained identifiers: " ++
          Text.join ", " unresolved ++ ".") revision]

/-- The place of the operation that files a Proposal. -/
def filingIndex (p : Patch rt) (id : String) : Option Nat :=
  p.ops.findIdx? fun
    | .createProposals proposals => proposals.any fun q => decide (q.proposal.id = id)
    | _ => false

/-- A refusal of a proposed operation, as the filing patch reports it. -/
def proposedIssue (p : Patch rt) (id : String) : Issue → Option Issue
  | .raised text => some (.raised text)
  | .message m =>
      if m.level = .reject then
        some (.message
          { m with
            message := "Proposal " ++ id ++ ": " ++ m.message
            ruleId := some "proposal-replay"
            operationIndex := filingIndex p id })
      else none

/-- The patch a Proposal's operations are judged as. -/
def syntheticPatch (s : GraphState rt) (proposal : Proposal rt) (revision : Option Nat) :
    Patch rt where
  revision := revision.getD (s.revision + 1)
  kind := .approval
  author := some .human
  producer := .human
  createdAt := ""
  summary := "Validate replay operations for " ++ proposal.id ++ "."
  ops := proposal.ops.map ProposalOperation.toGraphOperation

/-- `_validate_proposal_ops`. -/
def proposalOpsIssues (ctx : OpContext rt) (mode : Mode) (proposal : Proposal rt) : List Issue :=
  let patch := syntheticPatch ctx.state proposal ctx.revision
  let inner : OpContext rt :=
    { state := ctx.state
      initialState := ctx.state
      patch := patch
      writer := Writer.ofPatch patch
      revision := ctx.revision
      projectTruthScope := ctx.projectTruthScope
      repositories := ctx.repositories
      machines := ctx.machines
      stateRepository := ctx.stateRepository
      mode := mode
      referencePatch := some ctx.patch }
  (if mode = .admission then
    proposal.ops.flatMap fun
      | .contentChange _ nodes =>
          nodes.flatMap fun u =>
            if (changed u.changes "source_refs").truthy then
              sourceRefIssues (changed u.changes "source_refs") ctx.patch ctx.writer
                ctx.repositories
            else []
      | _ => []
  else []) ++
    (stageOps effectRules patch.ops inner).2.filterMap (proposedIssue ctx.patch proposal.id)

/-- `validate_proposal`. -/
def proposalIssues (ctx : OpContext rt) (mode : Mode) (includeCardFlags : Bool)
    (proposal : Proposal rt) : List Issue :=
  if proposal.id ∈ ctx.state.proposals then
    [reject "duplicate-proposal-id" ("Proposal " ++ Text.quoted proposal.id ++ " already exists.")
      ctx.revision]
  else
    rejectIf (mode = .admission && proposal.baseRev ≠ ctx.state.revision) "proposal-base-revision"
        ("Proposal " ++ proposal.id ++ " must use the current graph revision " ++
          toString ctx.state.revision ++ ".") ctx.revision ++
      (if includeCardFlags then cardFlags ctx.state proposal ctx.revision else []) ++
      (if mode = .admission ∧ ctx.writer.author = some .agent then
        agentProposalBoundaryIssues ctx.state ctx.patch ctx.writer proposal ctx.revision
      else []) ++
      proposalOpsIssues ctx mode proposal

/-- `validate_create_proposals` from a Proposal on; `seen` are the ids filed so far. -/
def createProposalsIssues (ctx : OpContext rt) : List String → List (NewProposal rt) → List Issue
  | _, [] => []
  | seen, raw :: rest =>
      rejectIf (ctx.admission && decide (raw.proposal.id ∈ seen)) "duplicate-proposal-id"
          ("Proposal " ++ Text.quoted raw.proposal.id ++
            " appears more than once in one create_proposals operation.") ctx.revision ++
        proposalIssues ctx .replay false raw.proposal ++
        createProposalsIssues ctx (raw.proposal.id :: seen) rest

/-- `author_create_proposals`. -/
def authorCreateProposalsIssues (ctx : OpContext rt) (proposals : List (NewProposal rt)) :
    List Issue :=
  proposals.flatMap fun raw => proposalIssues ctx .admission true raw.proposal

/-- The rules of every operation of a patch. -/
def patchRules : OpRules rt := fun ctx op =>
  match op with
  | .createProposals proposals =>
      createProposalsIssues ctx [] proposals ++
        if ctx.admission then authorCreateProposalsIssues ctx proposals else []
  | op => effectRules ctx op

end RcpGraph
