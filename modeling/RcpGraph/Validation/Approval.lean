import RcpGraph.Validation.Proposals

/-!
The shapes a human approval patch may have: one review or one edit of a node, one
connection edit, one Decision choice with the Proposals it withdraws, or the
resolution of one Proposal with exactly the operations it proposed.
-/

namespace RcpGraph

open Schema

variable {rt : Runtime}

/-- `HUMAN_EDITABLE_NODE_FIELDS`. -/
def humanEditableNodeFields : NodeType → List String
  | .researchQuestion => ["title", "question", "motivation", "scope"]
  | .hypothesis => ["title", "statement", "rationale", "predictions", "scope"]
  | .decision => ["title", "question", "options", "rationale", "consequences", "status"]
  | .experiment =>
      [ "title", "objective", "design", "expected_outcomes", "interpretation_rules",
        "completion_criteria", "attempt_ceiling", "invocation_ceiling", "proxies", "limitations",
        "current_summary", "next_action" ]
  | .evidence => ["title", "observation", "interpretation"]
  | .blocker => ["title", "description", "status", "resolution_condition", "recommended_action"]

/-- The fields of a change outside a list of allowed ones, in order. -/
def outsideFields (changes : Dict String Json) (allowed : List String) : List String :=
  Text.sortedSet (changes.keys.filter fun f => f ∉ allowed)

def NodeUpdate.same (u v : NodeUpdate) : Bool :=
  decide (u.id = v.id) && (Json.obj u.changes.entries).pyEq (.obj v.changes.entries) &&
    decide (u.cause = v.cause) && decide (u.baseUpdatedRev = v.baseUpdatedRev)

def NewEdge.same (e f : NewEdge) : Bool :=
  decide (e.id.join = f.id.join) && decide (e.source = f.source) && decide (e.target = f.target) &&
    decide (e.relation = f.relation) && decide (e.explanation.getD "" = f.explanation.getD "") &&
    decide (e.assessment.join.map Assessment.full = f.assessment.join.map Assessment.full) &&
    decide (e.expectation.join = f.expectation.join)

def RawNode.same (a b : RawNode rt) : Bool :=
  decide (a.create 0 = b.create 0) && decide (a.createdRev.getD 0 = b.createdRev.getD 0) &&
    decide (a.updatedRev.getD 0 = b.updatedRev.getD 0)

/-- Pairwise comparison of two lists. -/
def sameList {α : Type} (same : α → α → Bool) : List α → List α → Bool
  | [], [] => true
  | a :: as, b :: bs => same a b && sameList same as bs
  | _, _ => false

/-- `==` of two operations: a default left out equals one written down. -/
def GraphOperation.same : GraphOperation rt → GraphOperation rt → Bool
  | .updateNodes us, .updateNodes vs => sameList NodeUpdate.same us vs
  | .createEdges es, .createEdges fs => sameList NewEdge.same es fs
  | .createNodes as, .createNodes bs => sameList RawNode.same as bs
  | .setCoverage c, .setCoverage d => c.pyEq d
  | a, b => decide (a = b)

def resolutionBatches (p : Patch rt) : List (List ProposalResolution) :=
  p.ops.filterMap fun
    | .resolveProposals resolutions => some resolutions
    | _ => none

def updateBatches (p : Patch rt) : List (List NodeUpdate) :=
  p.ops.filterMap fun
    | .updateNodes updates => some updates
    | _ => none

def standingTargets (p : Patch rt) : List String :=
  p.ops.filterMap fun
    | .setStanding id _ => some id
    | _ => none

/-- `_validate_approved_decision_result`. -/
def approvedDecisionIssues (s : GraphState rt) (ops : List (GraphOperation rt))
    (revision : Option Nat) : List Issue :=
  ops.flatMap fun
    | .updateNodes updates =>
        updates.flatMap fun u =>
          match s.typed? .decision u.id with
          | none => []
          | some n =>
              match decisionTransitionError n u.changes with
              | some text => [reject "incoherent-decision-approval" text revision [n.id]]
              | none => []
    | _ => []

/-- One attempt of a release: unchanged, cancelled, or refused. -/
def releasedAttempt (nodeId : String) (before after : Json) : Except String Bool :=
  match after.obj? with
  | none => .error ("Releasing an attempt on " ++ nodeId ++ " requires whole attempt records.")
  | some _ =>
      if after.pyEq before then .ok false
      else
        let expected := Json.obj (Assoc.overwrite (before.obj?.getD [])
          [ ("status", .str "cancelled"),
            ("finished_at", (after.get? "finished_at").getD .null),
            ("failure_reason", (after.get? "failure_reason").getD .null) ])
        if !activeAttempt before || !after.pyEq expected ||
            (after.get? "finished_at").getD .null = .null then
          .error ("A human release on " ++ nodeId ++
            " may only move an open attempt to cancelled with its finish time.")
        else .ok true

def releasedCount (nodeId : String) : List Json → List Json → Except String Nat
  | before :: bs, after :: as => do
      let released ← releasedAttempt nodeId before after
      let rest ← releasedCount nodeId bs as
      pure ((if released then 1 else 0) + rest)
  | _, _ => .ok 0

/-- `_validate_attempt_release`. -/
def attemptReleaseIssues (n : ProjectNode rt) (attempts : Json) (revision : Option Nat) :
    List Issue :=
  let refuse := fun text => [reject "invalid-attempt-release" text revision [n.id]]
  match (n.field? "attempts").bind Json.arr? with
  | none => refuse (n.id ++ " has no attempts to release.")
  | some previous =>
      match attempts.arr? with
      | none =>
          refuse ("Releasing an attempt on " ++ n.id ++ " cannot add or remove attempt records.")
      | some current =>
          if current.length ≠ previous.length then
            refuse ("Releasing an attempt on " ++ n.id ++ " cannot add or remove attempt records.")
          else
            match releasedCount n.id previous current with
            | .error text => refuse text
            | .ok 0 => refuse ("No open attempt on " ++ n.id ++ " was released.")
            | .ok _ => []

/-- `_validate_direct_node_edit`. -/
def directNodeEditIssues (s : GraphState rt) (updates : List NodeUpdate) (revision : Option Nat)
    (mode : Mode) : List Issue :=
  match updates with
  | [u] =>
      rejectIf (u.baseUpdatedRev.isNone || u.cause.isSome) "invalid-direct-node-edit"
          "A direct node edit requires exactly id, base_updated_rev, and changes." revision ++
        match s.nodes.get? u.id with
        | none =>
            [reject "unknown-node" ("Cannot update missing node " ++ Text.quoted u.id ++ ".")
              revision]
        | some n =>
            let allowed := "extension_fields" :: humanEditableNodeFields n.type
            rejectIf (u.baseUpdatedRev ≠ some n.updatedRev) "stale-node-edit"
                (n.id ++ " changed after this editor opened; reload it before saving.")
                revision ++
              if u.changes.entries = [] then
                [reject "empty-node-edit"
                  "A direct node edit must change at least one editable field." revision]
              else
                rejectIf
                    (mode = .admission && n.type = .decision && isDecisionChoice u.changes)
                    "unnamed-decision-action"
                    ("An ordinary node edit may queue Decision " ++ n.id ++
                      ", but only a patch naming human_action='decision_choice' may " ++
                      "decide_decision.") revision [n.id] ++
                  if u.changes.keys = ["attempts"] then
                    attemptReleaseIssues n (changed u.changes "attempts") revision
                  else
                    rejectIf (outsideFields u.changes allowed ≠ []) "non-prose-node-edit"
                        ("Direct edits to " ++ n.id ++ " cannot change: " ++
                          Text.join ", " (outsideFields u.changes allowed) ++ ".") revision ++
                      rejectIf (u.changes.entries.all fun e => fieldEquals n e.1 e.2)
                        "empty-node-edit" "The submitted node edit is unchanged." revision
  | _ =>
      [reject "invalid-direct-node-edit" "A direct node edit must update exactly one existing node."
        revision]

/-- The withdrawals of a Decision choice from one on; an empty batch is `none`. -/
def withdrawalIssues (s : GraphState rt) (nodeId : String)
    (refuse : String → Issue) : List String → List (Option ProposalResolution) → List Issue
  | _, [] => []
  | seen, none :: rest =>
      refuse ("Proposal withdrawals for " ++ nodeId ++ " cannot be empty.") ::
        withdrawalIssues s nodeId refuse seen rest
  | seen, some r :: rest =>
      let label := Text.quoted r.id
      (if r.id ∈ seen then
        [refuse ("Proposal " ++ label ++ " is withdrawn more than once for " ++ nodeId ++ ".")]
      else
        match (s.proposals.get? r.id).filter fun p => p.status = .pending with
        | none => [refuse ("Proposal " ++ label ++ " for " ++ nodeId ++ " is not pending.")]
        | some p =>
            if proposalUpdatesNode p nodeId then []
            else
              [refuse ("Proposal " ++ label ++ " does not target Decision " ++ nodeId ++ ".")]) ++
        (if r.status = .withdrawn then []
        else
          [refuse ("Direct choice on " ++ nodeId ++ " may only withdraw superseded Proposals.")]) ++
        (if Text.strip (r.reason.getD "") = "" then
          [refuse ("Withdrawal of Proposal " ++ label ++ " for " ++ nodeId ++
            " requires a reason.")]
        else []) ++
        withdrawalIssues s nodeId refuse (r.id :: seen) rest

/-- What a Decision choice names beyond, or short of, the pending Proposals. -/
def withdrawalGap (expected seen : List String) : List String :=
  let missing := Text.sortedSet (expected.filter fun id => id ∉ seen)
  let unexpected := Text.sortedSet (seen.filter fun id => id ∉ expected)
  (if missing = [] then [] else ["missing " ++ Text.join ", " missing]) ++
    if unexpected = [] then [] else ["unexpected " ++ Text.join ", " unexpected]

/-- The choice itself: fields, status and the selected option. -/
def choiceIssues (n : ProjectNode rt) (changes : Dict String Json) (refuse : String → Issue) :
    List Issue :=
  let allowed := ["extension_fields", "selected_option", "status"] ++ humanEditableNodeFields n.type
  let selected := changes.getD "selected_option" ((n.field? "selected_option").getD .null)
  let options := changes.getD "options" ((n.field? "options").getD .null)
  (if outsideFields changes allowed = [] then []
    else
      [refuse ("Direct choice on " ++ n.id ++ " cannot change: " ++
        Text.join ", " (outsideFields changes allowed) ++ ".")]) ++
    (if changed changes "status" = .str "decided" then []
    else [refuse ("Direct choice on " ++ n.id ++ " must set status exactly to decided.")]) ++
    if (selected.str?.any fun o => Text.strip o ≠ "") && options.arr?.isSome &&
        memberOfList selected options then []
    else
      [refuse ("Direct choice on " ++ n.id ++
        " must select one non-empty option from its current options.")]

/-- `_validate_direct_decision_choice` on the Decision it names. -/
def decisionChoiceIssues (s : GraphState rt) (p : Patch rt) (n : ProjectNode rt) (u : NodeUpdate)
    (revision : Option Nat) : List Issue :=
  let refuse := fun text => reject "invalid-direct-decision-choice" text revision [n.id]
  let items := (resolutionBatches p).flatMap fun batch =>
    if batch = [] then [none] else batch.map some
  let seen := items.filterMap fun item => item.map ProposalResolution.id
  let expected := (s.proposals.values.filter fun q =>
    decide (q.status = .pending) && proposalUpdatesNode q n.id).map Proposal.id
  (if n.text "status" = "superseded" then
    [refuse ("Decision " ++ n.id ++ " is superseded and cannot be decided again.")]
  else []) ++
    (if u.baseUpdatedRev ≠ some n.updatedRev then
      [refuse (n.id ++ " changed after this choice was staged; reload before saving.")]
    else []) ++
    if u.changes.entries = [] then
      [refuse ("A direct choice for " ++ n.id ++ " must include selected_option and status.")]
    else
      choiceIssues n u.changes refuse ++
        (if (standingTargets p).head?.any (· ≠ n.id) then
          [refuse ("A direct Decision choice and its staged judgment must target the same " ++
            "Decision.")]
        else []) ++
        withdrawalIssues s n.id refuse [] items ++
        if withdrawalGap expected seen = [] then []
        else
          [refuse ("Direct choice on " ++ n.id ++
            " must withdraw every pending Proposal targeting it (" ++
            Text.join "; " (withdrawalGap expected seen) ++ ").")]

/-- `_validate_direct_decision_choice`. -/
def directDecisionChoiceIssues (s : GraphState rt) (p : Patch rt) (revision : Option Nat) :
    List Issue :=
  let refuse := fun text => [reject "invalid-direct-decision-choice" text revision]
  if p.ops = [] ∨
      ¬∀ op ∈ p.ops, op.op ∈ ["update_nodes", "resolve_proposals", "set_standing"] then
    refuse ("A direct Decision choice may only update that Decision, withdraw its Proposals, " ++
      "and review it.")
  else
    match updateBatches p with
    | [updates] =>
        if 1 < (standingTargets p).length then
          refuse ("A direct Decision choice must update and optionally review exactly one " ++
            "Decision.")
        else
          match updates with
          | [u] =>
              if u.baseUpdatedRev.isNone ∨ u.cause.isSome then
                refuse ("A direct Decision choice requires exactly id, base_updated_rev, and " ++
                  "changes.")
              else
                match s.typed? .decision u.id with
                | none =>
                    refuse ("Cannot choose an option on non-Decision node " ++ Text.quoted u.id ++
                      ".")
                | some n => decisionChoiceIssues s p n u revision
          | _ => refuse "A direct Decision choice must update exactly one existing Decision."
    | _ =>
        refuse "A direct Decision choice must update and optionally review exactly one Decision."

/-- A human patch that resolves nothing. -/
def standaloneIssues (s : GraphState rt) (p : Patch rt) (revision : Option Nat) (mode : Mode) :
    List Issue :=
  let names := p.ops.map GraphOperation.op
  let otherwise : List Issue :=
    if names ≠ [] ∧ (∀ n ∈ names, n = "create_edges" ∨ n = "remove_edges") ∧ names.Nodup then []
    else if names ≠ [] ∧ ∀ n ∈ names, n = "update_nodes" ∨ n = "set_standing" then
      match updateBatches p with
      | [updates] =>
          if 1 < (standingTargets p).length then
            [reject "invalid-standalone-review"
              "One staged node patch may edit and review exactly one node." revision]
          else
            directNodeEditIssues s updates revision mode ++
              match (standingTargets p).head?, updates.head? with
              | some id, some u =>
                  rejectIf (id ≠ u.id) "invalid-standalone-review"
                    "A staged node edit and review must target the same node." revision
              | _, _ => []
      | _ =>
          [reject "invalid-standalone-review"
            "One staged node patch may edit and review exactly one node." revision]
    else
      [reject "invalid-standalone-review"
        "A standalone human patch must review one node or edit one node directly." revision]
  match p.ops with
  | [.setStanding _ _] | [.removeNodes _] | [.setOntology _] | [.setProjectTruthScope _ _] => []
  | [.resolveAmbiguities _] => if mode = .replay then [] else otherwise
  | [.createNodes [node]] =>
      rejectIf (node.standing.getD .asserted ≠ .asserted ||
          ((node.field? "source_refs").getD .null).truthy) "invalid-direct-node-create"
        "A human-created node starts asserted and cannot claim source records." revision
  | [.createNodes _] =>
      [reject "invalid-direct-node-create"
        "A confirmed staged New node patch must create exactly one node." revision]
  | _ => otherwise

/-- The operations of an approval that its Proposal must account for. -/
def semanticOps (p : Patch rt) (proposedStanding : Bool) : List (GraphOperation rt) :=
  p.ops.filter fun
    | .resolveProposals _ => false
    | .setStanding _ _ => proposedStanding
    | _ => true

/-- The standing operations an approval adds by itself. -/
def implicitStanding (proposal : Proposal rt) : List (GraphOperation rt) :=
  match approvalStandingTargets proposal with
  | .ok targets => targets.map fun id => .setStanding id .accepted
  | .error _ => []

/-- An approval replays its Proposal's operations. -/
def approvedReplayIssues (s : GraphState rt) (proposal : Proposal rt) (w : Writer)
    (semantic : List (GraphOperation rt)) (revision : Option Nat) (mode : Mode) : List Issue :=
  let proposedStanding := decide (explicitStandings proposal ≠ [])
  let implicit := if proposedStanding then implicitStanding proposal else []
  let normalized := normalizedDecisionProposalOps s proposal ++ implicit
  let proposed := proposal.ops.map ProposalOperation.toGraphOperation ++ implicit
  let verbatim := sameList GraphOperation.same semantic proposed
  let normalizes := !sameList GraphOperation.same normalized proposed
  let outcome := writesDecisionOutcome s semantic
  (if !verbatim && !sameList GraphOperation.same semantic normalized then
    [reject "proposal-replay-mismatch"
      ("Approval must replay the proposal's stored operations with its implicit standing " ++
        "effects, allowing only the implied decided status for a legacy Decision selection.")
      revision]
  else if verbatim && normalizes && mode = .admission then
    [reject "unnormalized-decision-approval"
      "A legacy Decision selection approval must add the implied decided status." revision]
  else if verbatim && normalizes then []
  else approvedDecisionIssues s semantic revision) ++
    if mode = .admission && outcome then
      rejectIf (w.humanAction ≠ some .decisionChoice) "unnamed-decision-action"
        ("Approving a legacy Decision Proposal that writes selected_option or status decided " ++
          "must name the decide_decision action.") revision
    else
      rejectIf (w.humanAction = some .decisionChoice && !outcome) "invalid-direct-decision-choice"
        "A decision_choice Proposal approval must replay a legacy Decision outcome." revision

/-- The resolution of one Proposal. -/
def resolutionIssues (s : GraphState rt) (p : Patch rt) (w : Writer) (r : ProposalResolution)
    (revision : Option Nat) (mode : Mode) : List Issue :=
  match (s.proposals.get? r.id).filter fun q => q.status = .pending with
  | none => [reject "proposal-not-pending" "The referenced proposal is not pending." revision]
  | some proposal =>
      let stale := proposalIsStale s proposal
      let semantic := semanticOps p (explicitStandings proposal ≠ [])
      rejectIf (stale && r.status ≠ .withdrawn) "stale-proposal"
          ("A node, project setting, or semantic cause changed after this proposal was written.")
          revision ++
        (if r.status = .approved then approvedReplayIssues s proposal w semantic revision mode
        else
          rejectIf (semantic ≠ []) "rejected-proposal-has-ops"
            "Rejected or withdrawn proposals cannot apply semantic operations." revision) ++
        rejectIf (r.status = .withdrawn && !stale) "invalid-stale-withdrawal"
          "The human UI may withdraw a proposal here only when its base state is stale." revision

/-- `validate_approval_shape`. -/
def approvalShapeIssues (s : GraphState rt) (p : Patch rt) (w : Writer) (mode : Mode) :
    List Issue :=
  let revision := p.revisionRef
  let batches := resolutionBatches p
  let approved := batches.any fun batch => batch.any fun r => decide (r.status = .approved)
  if w.humanAction = some .decisionChoice ∧ approved = false then
    directDecisionChoiceIssues s p revision
  else
    match batches with
    | [] => standaloneIssues s p revision mode
    | [[r]] => resolutionIssues s p w r revision mode
    | _ =>
        [reject "invalid-proposal-resolution" "Resolve one proposal per approval patch." revision]

end RcpGraph
