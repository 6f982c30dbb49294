import RcpGraph.Validation.Approval

/-!
The specialised authority of an experiment-loop patch. It is bound to one
Experiment and a bundle of pinned Decisions: it may queue those Decisions, record
attempts and guidance on its Experiment, attach the Evidence and Blockers it
creates, and propose a change of the belief its own evidence bears on.
-/

namespace RcpGraph

open Schema

variable {rt : Runtime}

/-- `_PINNED_DECISION_FIELDS`. -/
def pinnedDecisionFields : List String :=
  ["title", "question", "options", "rationale", "consequences", "status"]

def attemptCloseFields : List String :=
  ["status", "source_refs", "outcome", "failure_reason", "finished_at"]

def terminalAttemptStatuses : List String := ["failed", "completed", "cancelled", "superseded"]

def terminalAttempt (attempt : Json) : Bool :=
  ((attempt.get? "status").bind Json.str?).any fun s => s ∈ terminalAttemptStatuses

/-- An attempt without the fields a close may write. -/
def fixedAttempt (attempt : Json) : Json :=
  .obj ((attempt.obj?.getD []).filter fun f => f.1 ∉ attemptCloseFields)

def attemptText (attempt : Json) (name : String) : String :=
  ((attempt.get? name).bind Json.str?).getD ""

/-- Read and complete a list of attempts; `none` when one is malformed. -/
def readAttempts (rt : Runtime) (raw : Json) : Option (List Json) :=
  raw.arr?.bind fun items => items.mapM fun item =>
    match (Fields.attempt rt).check rt.lax item with
    | .ok attempt => some ((Fields.attempt rt).complete attempt)
    | .error _ => none

/-- An existing attempt is kept, or closed. -/
def keptAttemptIssues (experimentId : String) (revision : Option Nat) (before after : Json) :
    List Issue :=
  if !(fixedAttempt before).pyEq (fixedAttempt after) then
    [reject "experiment-loop-attempt-mutation"
      ("Experiment loop " ++ experimentId ++ " cannot rewrite attempt " ++
        Text.quoted (attemptText before "id") ++ " or its pinned decision bundle.") revision
      [experimentId]]
  else
    rejectIf (!before.pyEq after && (terminalAttempt before || !terminalAttempt after))
      "experiment-loop-attempt-close"
      ("Experiment loop " ++ experimentId ++ " may only close a nonterminal attempt.") revision
      [experimentId]

/-- The rules for an attempt the patch appends. -/
def appendedAttemptIssues (experimentId : String) (pinned : List DecisionPin)
    (revision : Option Nat) (attempt : Json) : List Issue :=
  let label := Text.quoted (attemptText attempt "id")
  let proposalOnly := decide (attemptText attempt "attempt_kind" = "proposal_only")
  rejectIf (!((attempt.get? "decision_bundle").getD .null).pyEq
        (.arr (pinned.map Encode.decisionPin))) "experiment-loop-pinned-bundle"
      ("New attempt " ++ label ++ " must copy the RCP-pinned governing decisions.") revision
      (experimentId :: pinned.map (·.decisionId)) ++
    rejectIf (proposalOnly && ((attempt.get? "job_refs").getD .null).truthy)
      "experiment-loop-proposal-job"
      ("Proposal-only attempt " ++ label ++ " cannot name an external job.") revision
      [experimentId] ++
    rejectIf (proposalOnly && !terminalAttempt attempt) "experiment-loop-proposal-status"
      ("Proposal-only attempt " ++ label ++ " must be terminal in the turn that creates it.")
      revision [experimentId]

/-- `_validate_attempts`. -/
def attemptsIssues (experiment : ProjectNode rt) (raw : Json) (pinned : List DecisionPin)
    (hasProposals : Bool) (revision : Option Nat) : List Issue :=
  match readAttempts rt raw with
  | none => []
  | some attempts =>
      let previous := ((experiment.field? "attempts").bind Json.arr?).getD []
      let appended := attempts.drop previous.length
      if attempts.length < previous.length then
        [reject "experiment-loop-attempt-removal"
          ("Experiment loop " ++ experiment.id ++ " cannot remove attempt records.") revision
          [experiment.id]]
      else
        (previous.zip attempts).flatMap
            (fun a => keptAttemptIssues experiment.id revision a.1 a.2) ++
          appended.flatMap (appendedAttemptIssues experiment.id pinned revision) ++
          rejectIf
            ((appended.any fun a => attemptText a "attempt_kind" = "proposal_only") &&
              !hasProposals) "experiment-loop-proposal-attempt"
            ("Proposal-only attempt in experiment " ++ experiment.id ++ " requires a proposal.")
            revision [experiment.id] ++
          rejectIf (¬(attempts.map fun a => attemptText a "id").Nodup)
            "experiment-loop-duplicate-attempt"
            ("Experiment " ++ experiment.id ++ " cannot contain duplicate attempt ids.") revision
            [experiment.id]

/-- `_allowed_experiment_fields`. -/
def allowedExperimentFields (p : Patch rt) (mode : Mode) : List String :=
  ["attempts", "status", "current_summary", "next_action"] ++
    if mode = .replay ∧ p.schemaGeneration = .one then legacyCompatibilityUpdateFields else []

/-- An update of a pinned Decision. -/
def pinnedUpdateIssues (s : GraphState rt) (experimentId : String) (u : NodeUpdate)
    (revision : Option Nat) : List Issue :=
  match memberOf (changed u.changes "status") ["open", "ready", "revisit"] with
  | .error text => [.raised text]
  | .ok queued =>
      if outsideFields u.changes pinnedDecisionFields ≠ [] || !queued then
        [reject "experiment-loop-decision-action"
          ("Experiment loop " ++ experimentId ++ " may only queue pinned Decision " ++
            Text.quoted u.id ++ " as open, ready, or revisit, restating its ballot in the same " ++
            "update; it may never decide it.") revision [experimentId, u.id]]
      else
        rejectIf (s.typed? .decision u.id).isNone "experiment-loop-foreign-update"
          ("Experiment loop " ++ experimentId ++ " cannot queue missing or non-Decision node " ++
            Text.quoted u.id ++ ".") revision [experimentId, u.id]

/-- `_validate_updates` for one update. -/
def loopUpdateIssues (s : GraphState rt) (experiment : ProjectNode rt) (pinned : List DecisionPin)
    (hasProposals : Bool) (allowed : List String) (revision : Option Nat) (u : NodeUpdate) :
    List Issue :=
  if u.id ∈ pinned.map (·.decisionId) then pinnedUpdateIssues s experiment.id u revision
  else if u.id ≠ experiment.id then
    [reject "experiment-loop-foreign-update"
      ("Experiment loop " ++ experiment.id ++ " cannot update node " ++ Text.quoted u.id ++ ".")
      revision [experiment.id, u.id]]
  else
    rejectIf (outsideFields u.changes allowed ≠ []) "experiment-loop-experiment-field"
        ("Experiment loop " ++ experiment.id ++ " may update only status, attempts, " ++
          "current_summary, and next_action; refused: " ++
          Text.join ", " (outsideFields u.changes allowed) ++ ".") revision [experiment.id] ++
      match u.changes.get? "attempts" with
      | none => []
      | some raw => attemptsIssues experiment raw pinned hasProposals revision

/-- The type of a node the patch creates, the last one under its id. -/
def createdType? (p : Patch rt) (id : String) : Option NodeType :=
  (p.createdNodes.reverse.find? fun raw => raw.id = id).map RawNode.type

/-- `_SELF_ATTACHMENT_RELATIONS`. -/
def selfAttachment? : String → Option NodeType
  | "produces" => some .evidence
  | "blocked_by" => some .blocker
  | _ => none

/-- `_EVIDENCE_HANDOFF_RELATIONS`. -/
def evidenceHandoff? : String → Option NodeType
  | "informs" => some .decision
  | "addresses" => some .blocker
  | _ => none

/-- `_validate_created_edges` for one edge. -/
def loopEdgeIssues (s : GraphState rt) (p : Patch rt) (experimentId : String)
    (revision : Option Nat) (e : NewEdge) : List Issue :=
  match selfAttachment? e.relation, evidenceHandoff? e.relation with
  | some expected, _ =>
      rejectIf (!(e.source = experimentId && createdType? p e.target = some expected))
        "experiment-loop-self-attachment"
        ("Experiment loop " ++ experimentId ++ " may use " ++ Text.quoted e.relation ++
          " only from its own experiment to a " ++ expected.name ++ " node this patch creates.")
        revision [experimentId, e.target]
  | none, some expected =>
      let target := (s.nodeType? e.target).or (createdType? p e.target)
      rejectIf (!(createdType? p e.source = some .evidence && target = some expected))
        "experiment-loop-evidence-handoff"
        ("Experiment loop " ++ experimentId ++ " may use " ++ Text.quoted e.relation ++
          " only from Evidence this patch creates to a " ++ expected.name ++ " node.") revision
        [experimentId, e.source, e.target]
  | none, none =>
      rejectIf (declaredLayer s.ontology e.relation ≠ some .epistemic) "experiment-loop-edge-layer"
        ("Experiment loop " ++ experimentId ++ " may assert only epistemic edges, attach its " ++
          "own evidence and blockers to its experiment, or hand its new Evidence to a Decision " ++
          "or Blocker.") revision [experimentId]

/-- `_grounding_edge_ids`: the patch's Evidence edges into a node. -/
def groundingEdgeIds (s : GraphState rt) (p : Patch rt) (target : String) : List String :=
  (p.ops.flatMap fun
    | .createEdges edges => edges
    | _ => []).filterMap fun e =>
      if e.target = target ∧ e.relation ∈ beliefOutcomeRelations ∧
          (s.nodeType? e.source).or (createdType? p e.source) = some .evidence then
        some e.edgeId
      else none

/-- `_proposal_update_targets`. -/
def proposalUpdateTargets (ops : List (ProposalOperation rt)) : List String :=
  if ops.all fun op =>
      match op with
      | .contentChange _ (_ :: _) | .statusChange _ (_ :: _) => true
      | _ => false
  then Text.sortedSet (ops.flatMap fun op => op.updates.map (·.id))
  else []

/-- `_validate_belief_proposal` for its one Hypothesis. -/
def beliefProposalIssues (proposal : Proposal rt) (experimentId hypothesisId : String)
    (grounding : List String) (revision : Option Nat) : List Issue :=
  let refuse := fun code text => reject code text revision [experimentId, hypothesisId]
  (if grounding = [] then
    [refuse "experiment-loop-belief-grounding"
      ("A belief proposal from " ++ experimentId ++ " must rest on an evidence edge this patch " ++
        "asserts into " ++ hypothesisId ++ ".")]
  else []) ++
    (proposal.ops.flatMap ProposalOperation.updates).flatMap fun u =>
      if u.changes.keys ≠ ["status"] then
        [refuse "experiment-loop-belief-proposal-operations"
          ("A belief proposal from " ++ experimentId ++ " may change only " ++ hypothesisId ++
            "'s status.")]
      else
        match u.cause with
        | some (.evidenceEdge ref) =>
            if ref ∈ grounding then []
            else
              [refuse "experiment-loop-belief-cause"
                ("A belief proposal from " ++ experimentId ++
                  " must name one of this patch's Evidence edges into " ++ hypothesisId ++
                  " as its cause.")]
        | _ =>
            [refuse "experiment-loop-belief-cause"
              ("A belief proposal from " ++ experimentId ++
                " must name one of this patch's Evidence edges into " ++ hypothesisId ++
                " as its cause.")]

/-- `_validate_proposals` for one Proposal. -/
def loopProposalIssues (s : GraphState rt) (p : Patch rt) (experimentId : String)
    (revision : Option Nat) (proposal : Proposal rt) : List Issue :=
  let targets := proposalUpdateTargets proposal.ops
  if targets ≠ [] ∧ ∀ id ∈ targets, id ∈ relatedTargets s experimentId "tests" then
    match targets with
    | [id] => beliefProposalIssues proposal experimentId id (groundingEdgeIds s p id) revision
    | _ =>
        [reject "experiment-loop-belief-proposal-scope"
          ("Experiment loop " ++ experimentId ++ " may propose one belief change at a time.")
          revision (experimentId :: targets)]
  else
    [reject "experiment-loop-proposal-operations"
      ("Experiment loop " ++ experimentId ++ " proposals may update only one tested Hypothesis.")
      revision (experimentId :: targets)]

/-- The rules of one operation of the loop. -/
def loopOperationIssues (s : GraphState rt) (p : Patch rt) (experiment : ProjectNode rt)
    (pinned : List DecisionPin) (mode : Mode) (op : GraphOperation rt) : List Issue :=
  let revision := p.revisionRef
  let hasProposals := p.ops.any fun
    | .createProposals proposals => !proposals.isEmpty
    | _ => false
  match op with
  | .updateNodes updates =>
      updates.flatMap (loopUpdateIssues s experiment pinned hasProposals
        (allowedExperimentFields p mode) revision)
  | .createNodes nodes =>
      nodes.flatMap fun raw =>
        rejectIf (raw.type ≠ .evidence && raw.type ≠ .blocker) "experiment-loop-created-node"
          ("Experiment loop " ++ experiment.id ++ " may create only Evidence or Blocker nodes.")
          revision [experiment.id]
  | .createEdges edges => edges.flatMap (loopEdgeIssues s p experiment.id revision)
  | .createProposals proposals =>
      proposals.flatMap fun raw => loopProposalIssues s p experiment.id revision raw.proposal
  | .upsertGlossary _ => []
  | op =>
      [reject "experiment-loop-operation"
        ("Experiment loop " ++ experiment.id ++ " cannot use operation " ++ Text.quoted op.op ++
          ".") revision [experiment.id]]

/-- `validate_experiment_loop_authority`. -/
def experimentLoopIssues (s : GraphState rt) (p : Patch rt) (controlNodeId : Option String)
    (pinned : List DecisionPin) (mode : Mode) : List Issue :=
  let revision := p.revisionRef
  match (controlNodeId.filter (· ≠ "")).bind (s.typed? .experiment) with
  | none =>
      [reject "experiment-loop-control-node"
        "An experiment-loop patch requires an RCP-bound Experiment node." revision
        (controlNodeId.filter (· ≠ "")).toList]
  | some experiment =>
      rejectIf (¬(pinned.map (·.decisionId)).Nodup) "experiment-loop-decision-bundle"
          "The RCP-bound governing decision bundle contains duplicate decisions." revision
          (experiment.id :: pinned.map (·.decisionId)) ++
        p.ops.flatMap (loopOperationIssues s p experiment pinned mode)

end RcpGraph
