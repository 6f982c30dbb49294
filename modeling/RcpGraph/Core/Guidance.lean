import Mathlib.Data.List.Sort
import RcpGraph.Core.Materialize

/-!
The Experiment guidance-validity rule. An Experiment's `current_summary` and
`next_action` are guidance written against the graph around it: when that part of
the graph changes, the guidance is marked stale, and an explicit edit refreshes it.
-/

namespace RcpGraph

variable {rt : Runtime}

def guidanceRuleId : String := "experiment.guidance-validity.v2"

/-- `GUIDANCE_RULE_IDS`. -/
def guidanceRuleIds : List String := ["experiment.guidance-validity.v1", guidanceRuleId]

/-- The node under an id when it has the given type. -/
def GraphState.typed? (s : GraphState rt) (type : NodeType) (id : String) :
    Option (ProjectNode rt) :=
  (s.nodes.get? id).filter fun n => n.type = type

/-- The ids of the nodes of one type, in order. -/
def GraphState.idsOf (s : GraphState rt) (type : NodeType) : List String :=
  Text.sortedSet ((s.nodes.entries.filter fun e => e.2.type = type).map Prod.fst)

/-- `_related_targets`. -/
def relatedTargets (s : GraphState rt) (source relation : String) : List String :=
  Text.sortedSet
    ((s.edges.values.filter fun e => e.source = source && e.relation = relation).map (·.target))

/-- `_op_target_ids`. -/
def opTargetIds : ProposalOperation rt → List String
  | .contentChange _ nodes | .statusChange _ nodes => nodes.map (·.id)
  | .supersede _ nodes => nodes.flatMap fun i => i.id :: i.supersededBy.toList
  | .merge _ merges => merges.flatMap fun m => [m.duplicate, m.canonical]
  | _ => []

/-- `_has_pending_proposal`. -/
def hasPendingProposal (s : GraphState rt) (decisionId : String) : Bool :=
  s.proposals.values.any fun p =>
    decide (p.status = .pending) && p.ops.any fun op => decide (decisionId ∈ opTargetIds op)

/-- `GoverningDecisionDependency`. -/
structure GoverningDecisionDependency where
  decisionId : String
  status : Option String
  selectedOption : Option String
  pendingProposal : Bool
  deriving DecidableEq, Repr

/-- `BlockerDependency`. -/
structure BlockerDependency where
  blockerId : String
  status : Option String
  deriving DecidableEq, Repr

/-- `ExperimentControlDependencies`. -/
structure ExperimentControlDependencies where
  gateReasons : List String
  governingDecisions : List GoverningDecisionDependency
  blockers : List BlockerDependency
  deriving DecidableEq, Repr

def decisionReasons (s : GraphState rt) (decisionId : String) : List String :=
  (match s.typed? .decision decisionId with
    | none => ["Governing decision " ++ decisionId ++ " is missing."]
    | some d =>
        if d.text "status" ≠ "decided" ∨ d.text "selected_option" = "" then
          ["Decision " ++ decisionId ++ " is not decided with a selected option."]
        else []) ++
    if hasPendingProposal s decisionId then
      ["Decision " ++ decisionId ++ " has a pending proposal."]
    else []

def blockerReasons (s : GraphState rt) (blockerId : String) : List String :=
  match s.typed? .blocker blockerId with
  | none => ["Blocker " ++ blockerId ++ " is missing."]
  | some b => if b.text "status" = "open" then ["Blocker " ++ blockerId ++ " is open."] else []

/-- `experiment_graph_precondition_reasons` of an Experiment. -/
def experimentGraphPreconditionReasons (s : GraphState rt) (experimentId : String) : List String :=
  (relatedTargets s experimentId "governed_by").flatMap (decisionReasons s) ++
    (relatedTargets s experimentId "blocked_by").flatMap (blockerReasons s)

/-- `experiment_control_dependencies` of an Experiment. -/
def experimentControlDependencies (s : GraphState rt) (experimentId : String) :
    ExperimentControlDependencies where
  gateReasons := experimentGraphPreconditionReasons s experimentId
  governingDecisions := (relatedTargets s experimentId "governed_by").map fun id =>
    let decision := s.typed? .decision id
    { decisionId := id
      status := decision.bind ProjectNode.status?
      selectedOption := decision.bind fun d => (d.field? "selected_option").bind Json.str?
      pendingProposal := hasPendingProposal s id }
  blockers := (relatedTargets s experimentId "blocked_by").map fun id =>
    { blockerId := id, status := (s.typed? .blocker id).bind ProjectNode.status? }

/-- One live judgment of a tested belief. -/
structure AssessedEdge where
  id : String
  source : String
  target : String
  relation : String
  assessment : Option Assessment
  lifecycle : Option Json
  deriving DecidableEq

structure DependencySignature where
  control : ExperimentControlDependencies
  tests : List (String × String)
  assessments : List AssessedEdge
  deriving DecidableEq

/-- Retiring Evidence keeps its edges, so a retired source is dropped here and
its retirement itself changes the signature. -/
def assessedEdge? (s : GraphState rt) (hypothesisIds : List String) (e : Edge) :
    Option AssessedEdge :=
  if e.target ∈ hypothesisIds ∧ e.relation ∈ beliefOutcomeRelations then
    match s.typed? .evidence e.source with
    | none => none
    | some source =>
        let lifecycle := source.field? source.type.lifecycleField
        if lifecycle = some (.str retiredValue) then none
        else some ⟨e.id, e.source, e.target, e.relation, e.assessment, lifecycle⟩
  else none

/-- `experiment_dependency_signature`; `none` on a node that is no Experiment. -/
def experimentDependencySignature (s : GraphState rt) (experimentId : String) :
    Option DependencySignature :=
  match s.typed? .experiment experimentId with
  | none => none
  | some _ =>
      let tests := Text.sortedPairs
        ((s.edges.values.filter fun e => e.source = experimentId && e.relation = "tests").map
          fun e => (e.id, e.target))
      some
        { control := experimentControlDependencies s experimentId
          tests := tests
          assessments := Text.sortedByKey AssessedEdge.id
            (s.edges.values.filterMap (assessedEdge? s (tests.map Prod.snd))) }

/-- One staged action: its index and the graph on both sides. -/
structure TimelineEntry (rt : Runtime) where
  index : Nat
  before : GraphState rt
  after : GraphState rt

/-- Whether one action changed what an Experiment's guidance was written against.
Creating an Experiment establishes its guidance, so absence before is no change. -/
def dependencyChanged (e : TimelineEntry rt) (experimentId : String) : Bool :=
  (e.before.typed? .experiment experimentId).isSome &&
    decide (experimentDependencySignature e.before experimentId ≠
      experimentDependencySignature e.after experimentId)

/-- `dependency_change_causes`: the first action that changed it. -/
def dependencyChangeCause (timeline : List (TimelineEntry rt)) (experimentId : String) :
    Option Nat :=
  (timeline.find? fun e =>
    (e.after.typed? .experiment experimentId).isSome && dependencyChanged e experimentId).map
      (·.index)

/-- The Experiments with a cause, in order. -/
def changedExperiments (timeline : List (TimelineEntry rt)) : List String :=
  Text.sortedSet (timeline.flatMap fun e => (e.after.idsOf .experiment).filter (dependencyChanged e))

/-- `explicit_guidance_updates`: the last action that wrote a guidance field. -/
def explicitGuidanceUpdate (actions : List (GraphOperation rt)) (experimentId field : String) :
    Option Nat :=
  (actions.zipIdx.reverse.find? fun a =>
    match a.1 with
    | .updateNodes nodes =>
        nodes.any fun u => decide (u.id = experimentId) && decide (field ∈ u.changes)
    | _ => false).map Prod.snd

/-- What the rule wants of one guidance field: its cause and the new stale mark. -/
def wantedStale (experiment : ProjectNode rt) (invalidation explicit : Option Nat)
    (field staleField : String) : Option (Nat × String × Bool) :=
  let wanted : Option (Nat × Bool) :=
    match invalidation, explicit with
    | some cause, _ => some (cause, ((experiment.field? field).getD .null).truthy)
    | none, some cause => some (cause, false)
    | none, none => none
  wanted.bind fun (cause, desired) =>
    if experiment.field? staleField = some (.bool desired) then none
    else some (cause, staleField, desired)

/-- The marks of one cause, in the order the fields are looked at. -/
def staleChanges (marks : List (Nat × String × Bool)) (cause : Nat) : Dict String Json :=
  Dict.ofList ((marks.filter fun m => m.1 = cause).map fun m => (m.2.1, .bool m.2.2))

/-- The causes of at most two marks, in order. -/
def sortedCauses (marks : List (Nat × String × Bool)) : List Nat :=
  (marks.map (·.1)).dedup.insertionSort (· ≤ ·)

/-- `guidance_actions` for one Experiment. -/
def experimentGuidanceActions (s : GraphState rt) (timeline : List (TimelineEntry rt))
    (actions : List (GraphOperation rt)) (experimentId : String) :
    List (GraphOperation rt × Nat) :=
  match s.nodes.get? experimentId with
  | none => []
  | some experiment =>
      let mark := fun field staleField =>
        wantedStale experiment (dependencyChangeCause timeline experimentId)
          (explicitGuidanceUpdate actions experimentId field) field staleField
      let marks :=
        (mark "current_summary" "current_summary_stale").toList ++
          (mark "next_action" "next_action_stale").toList
      (sortedCauses marks).map fun cause =>
        (.updateNodes [{ id := experimentId, changes := staleChanges marks cause }], cause)

/-- `guidance_actions`. -/
def guidanceActions (s : GraphState rt) (timeline : List (TimelineEntry rt))
    (actions : List (GraphOperation rt)) : List (GraphOperation rt × Nat) :=
  (s.idsOf .experiment).flatMap (experimentGuidanceActions s timeline actions)

/-- `validate_guidance_operation`. -/
def validateGuidanceOperation : GraphOperation rt → Except String Unit
  | .updateNodes nodes =>
      if nodes = [] then .error "guidance-validity rule may generate only non-empty update_nodes"
      else
        Steps.run (fun (u : NodeUpdate) (_ : Unit) =>
          if u.changes.entries = [] ∨ ¬∀ f ∈ u.changes.keys, f ∈ guidanceStaleFields then
            .error "guidance-validity action changes a non-system field"
          else if u.changes.values.all fun v => v = .bool true || v = .bool false then .ok ()
          else .error "guidance-validity values must be booleans") nodes ()
  | _ => .error "guidance-validity rule may generate only non-empty update_nodes"

end RcpGraph
