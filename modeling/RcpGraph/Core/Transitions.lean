import RcpGraph.Core.Encode
import RcpGraph.Core.Guidance

/-!
Preparation of graph transitions and the check of a recorded one. Source patches
are staged operation by operation, the guidance rule adds its operations, and one
combined patch carries all of them together with a trace that names its parts.
Replay splits the trace again and checks every digest it records.
-/

namespace RcpGraph

open Encode

variable {rt : Runtime}

def transitionRulesetTag : String := "rcp.lifecycle.v4"

/-- Rulesets whose lifecycle events follow each node's lifecycle field. -/
def lifecycleFieldRulesets : List String := ["rcp.lifecycle.v3", transitionRulesetTag]

def defaultMaxRuleFirings : Nat := 128

/-- `TransitionConflictDetail`. -/
structure TransitionConflictDetail where
  operationIndex : Option Nat := none
  ruleId : Option String := none
  causeChain : List TransitionCauseRef := []
  affectedIds : List String := []
  invariant : String
  message : String
  deriving DecidableEq, Repr

/-- Why a transition was not prepared. -/
inductive TransitionError where
  | value (text : String)
  | conflict (detail : TransitionConflictDetail)
  deriving DecidableEq, Repr

def TransitionError.text : TransitionError → String
  | value text => text
  | conflict detail => detail.message

/-- A prepared transition: the patch to record and the graph it leads to. -/
structure PreparedTransition (rt : Runtime) where
  patch : Patch rt
  graph : GraphState rt

namespace Encode

def target : GraphTargetRef → Json
  | .main => .obj [("kind", .str "main"), ("branch_id", .null)]
  | .branch id => .obj [("kind", .str "branch"), ("branch_id", .str id)]

def head (h : GraphHeadRef) : Json :=
  .obj
    [ ("target", target h.target), ("revision", nat h.revision),
      ("transition_id", optText h.transitionId) ]

def declaredAction : Option DeclaredAction → Json
  | some .decisionChoice => .str "decision_choice"
  | none => .null

def group (g : TransitionInitiatingGroup) : Json :=
  .obj
    [ ("group_id", .str g.groupId), ("operation_indexes", .arr (g.operationIndexes.map nat)),
      ("summary", .str g.summary), ("change_summary", texts g.changeSummary),
      ("human_action", declaredAction g.humanAction),
      ("agent_action", declaredAction g.agentAction) ]

def causeRef : TransitionCauseRef → Json
  | .action i => .obj [("kind", .str "action"), ("action_index", nat i), ("event_id", .null)]
  | .event id => .obj [("kind", .str "event"), ("action_index", .null), ("event_id", .str id)]

def generatedAction (a : TransitionGeneratedAction) : Json :=
  .obj
    [ ("operation_index", nat a.operationIndex), ("rule_id", .str a.ruleId),
      ("cause", causeRef a.cause) ]

def decisionPin (d : DecisionPin) : Json :=
  .obj
    [ ("decision_id", .str d.decisionId), ("decision_revision", nat d.decisionRevision),
      ("selected_option", .str d.selectedOption) ]

def authorizedHuman (h : AuthorizedHuman) : Json :=
  .obj
    [ ("space_id", .str h.spaceId), ("user_id", .str h.userId),
      ("display_name", .str h.displayName) ]

def projectIdentity (i : ProjectIdentity) : Json :=
  .obj
    [ ("project_id", .str i.projectId), ("home_space_id", .str i.homeSpaceId),
      ("action", .str (if i.adopted then "adopted" else "created")) ]

def homeTransfer (t : ProjectHomeTransfer) : Json :=
  .obj
    [ ("project_id", .str t.projectId), ("previous_home_space_id", .str t.previousHomeSpaceId),
      ("new_home_space_id", .str t.newHomeSpaceId),
      ("source_released_by", authorizedHuman t.sourceReleasedBy),
      ("target_admitted_by", authorizedHuman t.targetAdmittedBy) ]

def branchMerge (m : BranchMergeProvenance) : Json :=
  .obj
    [ ("schema_generation", .num 1), ("merge_id", .str m.mergeId), ("branch_id", .str m.branchId),
      ("episode_id", optText m.episodeId), ("branch_base_head", head m.branchBaseHead),
      ("branch_head", head m.branchHead), ("rebased_main_head", head m.rebasedMainHead),
      ("merge_task_id", .str m.mergeTaskId) ]

def orNull {α : Type} (enc : α → Json) : Option α → Json
  | some a => enc a
  | none => .null

def generation : SchemaGeneration → Json
  | .one => .num 1
  | .two => .num 2

end Encode

/-- The identity envelope of a source patch. The two fields that predate the
explicit allowlist are left out when absent. -/
def Patch.envelope (p : Patch rt) : Json :=
  .obj
    ([ ("schema_generation", generation p.schemaGeneration), ("kind", .str p.kind.name),
       ("author", orNull (fun a => .str a.name) p.author), ("producer", .str p.producer.name),
       ("run_truth_scope", texts p.runTruthScope),
       ("repositories_read", texts p.repositoriesRead) ] ++
      written "run_read_scope" p.runReadScope texts ++
      [ ("processed_cursors", .obj (p.processedCursors.entries.map fun e => (e.1, .str e.2))),
        ("source_operation_id", optText p.sourceOperationId),
        ("source_effect_id", optText p.sourceEffectId),
        ("source_effect_sha256", optText p.sourceEffectSha256),
        ("experiment_control_node_id", optText p.experimentControlNodeId),
        ("experiment_decision_bundle", .arr (p.experimentDecisionBundle.map decisionPin)),
        ("project_identity", orNull Encode.projectIdentity p.projectIdentity) ] ++
      written "project_home_transfer" p.projectHomeTransfer homeTransfer ++
      [ ("authorized_by", orNull authorizedHuman p.authorizedBy),
        ("profile", orNull (fun q => .str q.name) p.profile), ("task_id", optText p.taskId),
        ("episode_id", optText p.episodeId), ("branch_merge", orNull Encode.branchMerge p.branchMerge) ])

/-- `_TRANSITION_PROVENANCE_FIELDS` in which two patches differ. -/
def provenanceMismatches (first p : Patch rt) : List String :=
  let differ := fun (name : String) (c : Bool) => if c then [] else [name]
  differ "schema_generation" (p.schemaGeneration = first.schemaGeneration) ++
    differ "kind" (p.kind = first.kind) ++
    differ "author" (p.author = first.author) ++
    differ "producer" (p.producer = first.producer) ++
    differ "run_truth_scope" (p.runTruthScope = first.runTruthScope) ++
    differ "repositories_read" (p.repositoriesRead = first.repositoriesRead) ++
    differ "run_read_scope" (p.runReadScope = first.runReadScope) ++
    differ "processed_cursors" (p.processedCursors.same first.processedCursors) ++
    differ "source_operation_id" (p.sourceOperationId = first.sourceOperationId) ++
    differ "source_effect_id" (p.sourceEffectId = first.sourceEffectId) ++
    differ "source_effect_sha256" (p.sourceEffectSha256 = first.sourceEffectSha256) ++
    differ "experiment_control_node_id"
      (p.experimentControlNodeId = first.experimentControlNodeId) ++
    differ "experiment_decision_bundle"
      (p.experimentDecisionBundle = first.experimentDecisionBundle) ++
    differ "project_identity" (p.projectIdentity = first.projectIdentity) ++
    differ "project_home_transfer" (p.projectHomeTransfer = first.projectHomeTransfer) ++
    differ "authorized_by" (p.authorizedBy = first.authorizedBy) ++
    differ "profile" (p.profile = first.profile) ++
    differ "task_id" (p.taskId = first.taskId) ++
    differ "episode_id" (p.episodeId = first.episodeId) ++
    differ "branch_merge" (p.branchMerge = first.branchMerge)

/-- `_require_compatible_envelopes`. -/
def requireCompatibleEnvelopes (first : Patch rt) : List (Patch rt) → Except TransitionError Unit
  | [] => .ok ()
  | p :: ps =>
      if provenanceMismatches first p = [] then requireCompatibleEnvelopes first ps
      else
        .error (.value
          ("initiating patches in one transition must share producer provenance: " ++
            Text.join ", " (provenanceMismatches first p)))

/-- `_operations_sha256`. -/
def operationsSha256 (ops : List (GraphOperation rt)) : String :=
  rt.digest (.arr (ops.map GraphOperation.encode))

/-- `_transition_id`. -/
def transitionId (preHead : GraphHeadRef) (patches : List (Patch rt))
    (groups : List TransitionInitiatingGroup) (operations : List (GraphOperation rt))
    (rulesetTag : String) (generated : List TransitionGeneratedAction) : String :=
  rt.digest
    (.obj
      [ ("pre_head", head preHead), ("ruleset_tag", .str rulesetTag),
        ("groups", .arr (groups.map group)),
        ("producer_envelopes", .arr (patches.map Patch.envelope)),
        ("operations", .arr (operations.map GraphOperation.encode)),
        ("generated_actions", .arr (generated.map generatedAction)) ])

/-- The initiating groups of source patches, from a group number and an index on. -/
def groupsFrom : Nat → Nat → List (Patch rt) → List TransitionInitiatingGroup
  | _, _, [] => []
  | number, start, p :: ps =>
      { groupId := "group-" ++ toString number
        operationIndexes := (List.range p.ops.length).map (start + ·)
        summary := p.summary
        changeSummary := p.changeSummary
        humanAction := p.humanAction
        agentAction := p.agentAction } :: groupsFrom (number + 1) (start + p.ops.length) ps

/-- Every source operation with its own patch. -/
def sourceActions (patches : List (Patch rt)) : List (Patch rt × GraphOperation rt) :=
  patches.flatMap fun p => p.ops.map fun op => (p, op)

/-- `_apply_timeline` before the revision is advanced. -/
def applyTimeline (index : Nat) :
    List (Patch rt × GraphOperation rt) → GraphState rt →
      Except TransitionError (List (TimelineEntry rt) × GraphState rt)
  | [], s => .ok ([], s)
  | (p, op) :: rest, s =>
      match applyValidOperation s p op with
      | .error text =>
          .error (.conflict
            { operationIndex := some index
              invariant := "initiating action is atomically applicable"
              message := "Initiating operation " ++ toString index ++ " could not be applied: " ++
                text })
      | .ok t => do
          let (timeline, final) ← applyTimeline (index + 1) rest t
          pure (⟨index, s, t⟩ :: timeline, final)

/-- The generated operations, staged one after another on the initiating state. -/
def applyGenerated (p : Patch rt) (index : Nat) :
    List (GraphOperation rt × Nat) → GraphState rt →
      Except TransitionError (List (TimelineEntry rt) × GraphState rt)
  | [], s => .ok ([], s)
  | (op, cause) :: rest, s =>
      match applyTransitionGeneratedOperation s p op with
      | .error text =>
          .error (.conflict
            { operationIndex := some index
              ruleId := some guidanceRuleId
              causeChain := [.action cause]
              invariant := "generated guidance-validity action is applicable"
              message := "Generated transition action could not be applied: " ++ text })
      | .ok t => do
          let (timeline, final) ← applyGenerated p (index + 1) rest t
          pure (⟨index, s, t⟩ :: timeline, final)

/-- One change that becomes a lifecycle event. -/
structure PendingEvent where
  cause : Nat
  nodeId : String
  field : String
  before : Json
  after : Json
  eventType : EventType

/-- `getattr(node, field, None)`. -/
def getattr (n : Option (ProjectNode rt)) (field : String) : Json :=
  (n.bind fun n => n.field? field).getD .null

/-- The status changes of one source action. -/
def statusChanges (lifecycleFields : Bool) (e : TimelineEntry rt) : List PendingEvent :=
  (Text.sortedSet (e.before.nodes.keys.filter fun id => id ∈ e.after.nodes)).filterMap fun id =>
    let field :=
      if lifecycleFields then ((e.after.nodeType? id).map NodeType.lifecycleField).getD "status"
      else "status"
    let before := getattr (e.before.nodes.get? id) field
    let after := getattr (e.after.nodes.get? id) field
    if before = after then none
    else some ⟨e.index, id, field, before, after, .nodeStatusChanged⟩

/-- The guidance changes of one generated action. -/
def guidanceChanges (op : GraphOperation rt) (e : TimelineEntry rt) : List PendingEvent :=
  match op with
  | .updateNodes nodes =>
      nodes.flatMap fun u =>
        (Text.sortedSet u.changes.keys).map fun field =>
          let after := getattr (e.after.nodes.get? u.id) field
          ⟨e.index, u.id, field, getattr (e.before.nodes.get? u.id) field, after,
            if after.truthy then .guidanceInvalidated else .guidanceRefreshed⟩
  | _ => []

/-- What the id of an event is the digest of. -/
def eventPayload (transition : String) (ordinal : Nat) (eventType : EventType) (cause : Json)
    (nodeId field : String) (before after : Json) : Json :=
  .obj
    [ ("transition_id", .str transition), ("ordinal", nat ordinal),
      ("event_type", .str eventType.name), ("cause", cause), ("node_id", .str nodeId),
      ("field", .str field), ("before", before), ("after", after) ]

/-- `_lifecycle_events`. -/
def lifecycleEvents (transition : String) (initiating : List (TimelineEntry rt))
    (generated : List (GraphOperation rt × TimelineEntry rt)) (rulesetTag : String) :
    List TransitionEvent :=
  let pending :=
    initiating.flatMap (statusChanges (rulesetTag ∈ lifecycleFieldRulesets)) ++
      generated.flatMap fun g => guidanceChanges g.1 g.2
  pending.zipIdx.map fun (e, ordinal) =>
    { eventId := rt.digest
        (eventPayload transition ordinal e.eventType (nat e.cause) e.nodeId e.field e.before e.after)
      eventType := e.eventType
      cause := .action e.cause
      nodeId := e.nodeId
      field := e.field
      before := e.before
      after := e.after }

/-- The processed cursors of several patches, which may not contradict each other. -/
def mergeCursors : List (Patch rt) → Dict String String → Except TransitionError (Dict String String)
  | [], cursors => .ok cursors
  | p :: ps, cursors =>
      match p.processedCursors.entries.find? fun e => (cursors.get? e.1).any (· ≠ e.2) with
      | some e =>
          .error (.value ("transition has conflicting processed cursor " ++ Text.quoted e.1))
      | none => mergeCursors ps (cursors.update p.processedCursors.entries)

/-- `_combined_patch`. -/
def combinedPatch (first : Patch rt) (rest : List (Patch rt))
    (operations : List (GraphOperation rt)) (trace : TransitionTrace) :
    Except TransitionError (Patch rt) := do
  let patches := first :: rest
  let cursors ← mergeCursors patches .empty
  pure
    { first with
      summary := if rest = [] then first.summary
        else "Human Sync: " ++ Text.join "; " (patches.map (·.summary))
      ops := operations
      runTruthScope := Text.stableUnion (patches.flatMap (·.runTruthScope))
      repositoriesRead := Text.stableUnion (patches.flatMap (·.repositoriesRead))
      processedCursors := cursors
      changeSummary := patches.flatMap (·.changeSummary)
      humanAction := none
      agentAction := none
      admission := .accepted
      admissionMessages := []
      transition := some trace }

/-- `==` of two graph states: mappings are compared without their order. -/
def GraphState.same (s t : GraphState rt) : Bool :=
  decide (s.revision = t.revision) && decide (s.projectTruthScope = t.projectTruthScope) &&
    s.configRevisions.same t.configRevisions && s.nodes.same t.nodes && s.edges.same t.edges &&
    s.proposals.same t.proposals && s.ambiguities.same t.ambiguities &&
    s.glossary.same t.glossary && decide (s.ontology = t.ontology) &&
    decide (s.validationMessages = t.validationMessages) &&
    decide (s.beliefTransitions = t.beliefTransitions) &&
    decide (s.replayFailure = t.replayFailure) && decide (s.lastRefreshAt = t.lastRefreshAt)

/-- The checks on the request before anything is staged. -/
def checkRequest (s : GraphState rt) (first : Patch rt) (rest : List (Patch rt))
    (preHead : GraphHeadRef) : Except TransitionError Unit :=
  if first.revision ≤ s.revision ∨ ¬∀ p ∈ first :: rest, p.revision = first.revision then
    .error (.value "all initiating patches must share the next canonical revision")
  else if ∃ p ∈ first :: rest, p.transition.isSome then
    .error (.value "initiating patches cannot contain a committed transition trace")
  else do
    requireCompatibleEnvelopes first rest
    if preHead.revision ≠ s.revision then
      throw (.value "transition pre-head does not match the supplied graph state")
    if ∃ p ∈ first :: rest, p.ops = [] then
      throw (.value "every initiating patch must contain a semantic operation")

/-- The staged run of a request: source operations, then the generated ones. -/
structure StagedTransition (rt : Runtime) where
  initiating : List (TimelineEntry rt)
  generatedOps : List (GraphOperation rt × Nat)
  generated : List (TimelineEntry rt)
  final : GraphState rt

def stageTransition (s : GraphState rt) (first : Patch rt) (rest : List (Patch rt))
    (maxRuleFirings : Nat) : Except TransitionError (StagedTransition rt) := do
  let actions := sourceActions (first :: rest)
  let (initiating, staged) ← applyTimeline 0 actions s
  let initiatingState := { staged with revision := first.revision }
  let generatedOps := guidanceActions initiatingState initiating (actions.map Prod.snd)
  if maxRuleFirings < generatedOps.length then
    throw (.conflict
      { ruleId := some guidanceRuleId
        affectedIds := changedExperiments initiating
        invariant := "bounded deterministic rule closure"
        message := "Graph transition rule closure exceeded " ++ toString maxRuleFirings ++
          " generated actions." })
  let (generated, final) ← applyGenerated first actions.length generatedOps initiatingState
  pure ⟨initiating, generatedOps, generated, final⟩

/-- The references of the generated operations, which follow all source operations. -/
def generatedRefs (start : Nat) (generatedOps : List (GraphOperation rt × Nat)) :
    List TransitionGeneratedAction :=
  generatedOps.zipIdx.map fun (g, i) => ⟨start + i, guidanceRuleId, .action g.2⟩

/-- The trace of a staged transition. -/
def StagedTransition.trace (staged : StagedTransition rt) (preHead : GraphHeadRef)
    (patches : List (Patch rt)) : TransitionTrace :=
  let operations := (sourceActions patches).map Prod.snd
  let groups := groupsFrom 1 0 patches
  let refs := generatedRefs operations.length staged.generatedOps
  let id := transitionId preHead patches groups operations transitionRulesetTag refs
  { transitionId := id
    preHead := preHead
    rulesetTag := transitionRulesetTag
    initiatingGroups := groups
    generatedActions := refs
    lifecycleEvents := lifecycleEvents id staged.initiating
      ((staged.generatedOps.map Prod.fst).zip staged.generated) transitionRulesetTag
    expandedOpsSha256 := operationsSha256 (operations ++ staged.generatedOps.map Prod.fst) }

/-- `GraphTransitionManager.prepare_validated`. -/
def prepareValidated (s : GraphState rt) (patches : List (Patch rt))
    (preHead : Option GraphHeadRef := none) (maxRuleFirings : Nat := defaultMaxRuleFirings) :
    Except TransitionError (PreparedTransition rt) :=
  match patches with
  | [] => .error (.value "a graph transition requires at least one initiating patch")
  | first :: rest => do
      let preHead := preHead.getD { revision := s.revision }
      checkRequest s first rest preHead
      let staged ← stageTransition s first rest maxRuleFirings
      let operations := (sourceActions (first :: rest)).map Prod.snd ++
        staged.generatedOps.map Prod.fst
      let combined ← combinedPatch first rest operations (staged.trace preHead (first :: rest))
      match applyValidPatch s combined with
      | .error text => throw (.value text)
      | .ok candidate =>
          -- The persisted payload, not only the staged path, must reach the candidate.
          if candidate.same staged.final then pure ⟨combined, candidate⟩
          else
            throw (.conflict
              { invariant := "expanded operation replay equivalence"
                message := "Recorded expanded operations do not reproduce the prepared state." })

/-- `_source_patch_for_group`. -/
def sourcePatchForGroup (p : Patch rt) (g : TransitionInitiatingGroup) : Patch rt :=
  { p with
    summary := g.summary
    changeSummary := g.changeSummary
    ops := g.operationIndexes.filterMap fun i => p.ops[i]?
    humanAction := g.humanAction
    agentAction := g.agentAction
    transition := none }

/-- Every operation is named once, source operations before generated ones. -/
def checkIndexes (count : Nat) (source generated : List Nat) : Except String Unit :=
  if ¬source.Nodup then .error "transition initiating operation indexes overlap"
  else if ¬generated.Nodup then .error "transition generated operation indexes overlap"
  else if ∃ i ∈ source, i ∈ generated then
    .error "transition initiating and generated operation indexes overlap"
  else if (source ++ generated).insertionSort (· ≤ ·) ≠ List.range count then
    .error "transition trace must reference every expanded operation exactly once"
  else if source.insertionSort (· ≤ ·) ≠ source ∨ generated.insertionSort (· ≤ ·) ≠ generated then
    .error "transition action references must retain written order"
  else if ∃ i ∈ source, ∃ j ∈ generated, j ≤ i then
    .error "transition generated operations must follow all initiating operations"
  else .ok ()

/-- The recorded shape of one generated action. -/
def checkGeneratedAction (ops : List (GraphOperation rt)) (a : TransitionGeneratedAction) :
    Except String Unit :=
  if a.ruleId ∉ guidanceRuleIds then
    .error ("unsupported generated transition rule " ++ Text.quoted a.ruleId)
  else
    match a.cause with
    | .event _ => .error "generated actions must cite an earlier action"
    | .action i =>
        if a.operationIndex ≤ i then
          .error "generated action cause must precede the generated action"
        else
          match ops[a.operationIndex]? with
          | none => .error "list index out of range"
          | some op => validateGuidanceOperation op

/-- The generated operations of a trace, staged again. -/
def replayGenerated (p : Patch rt) :
    List TransitionGeneratedAction → GraphState rt →
      Except String (List (GraphOperation rt × TimelineEntry rt) × GraphState rt)
  | [], s => .ok ([], s)
  | a :: rest, s =>
      match p.ops[a.operationIndex]? with
      | none => .error "list index out of range"
      | some op =>
          match applyTransitionGeneratedOperation s p op with
          | .error text => .error text
          | .ok t => do
              let (timeline, final) ← replayGenerated p rest t
              pure ((op, ⟨a.operationIndex, s, t⟩) :: timeline, final)

/-- The recorded events against their own digests; `known` are the earlier ids. -/
def checkEventIds (rt : Runtime) (transition : String) (count : Nat) :
    Nat → List String → List TransitionEvent → Except String Unit
  | _, _, [] => .ok ()
  | ordinal, known, e :: rest =>
      let cause : Except String Json :=
        match e.cause with
        | .action i =>
            if count ≤ i then .error "transition event cites an unknown action" else .ok (nat i)
        | .event id =>
            if id ∈ known then .ok (.str id)
            else .error "transition event cites an event that is not earlier"
      match cause with
      | .error text => .error text
      | .ok cause =>
          if e.eventId = rt.digest
              (eventPayload transition ordinal e.eventType cause e.nodeId e.field e.before e.after)
          then checkEventIds rt transition count (ordinal + 1) (e.eventId :: known) rest
          else .error "transition event id does not match its canonical payload"

/-- Stage the recorded operations again: the timelines of both parts. -/
def replayTimeline (s : GraphState rt) (p : Patch rt) (trace : TransitionTrace)
    (sources : List (Patch rt)) :
    Except String (List (TimelineEntry rt) × List (GraphOperation rt × TimelineEntry rt)) :=
  match applyTimeline 0 (sourceActions sources) s with
  | .error e => .error ("transition operations cannot reproduce their lifecycle trace: " ++ e.text)
  | .ok (initiating, staged) =>
      match replayGenerated p trace.generatedActions { staged with revision := p.revision } with
      | .error text =>
          .error ("transition operations cannot reproduce their lifecycle trace: " ++ text)
      | .ok (generated, _) => .ok (initiating, generated)

/-- `validate_transition_trace`: the source patches of a recorded transition. -/
def validateTransitionTrace (s : GraphState rt) (p : Patch rt) (trace : TransitionTrace) :
    Except String (List (Patch rt)) :=
  if trace.preHead.revision ≠ s.revision then
    .error ("transition pre-head " ++ toString trace.preHead.revision ++
      " does not match replay head " ++ toString s.revision)
  else if operationsSha256 p.ops ≠ trace.expandedOpsSha256 then
    .error "transition expanded operation digest does not match Patch.ops"
  else do
    let source := trace.initiatingGroups.flatMap (·.operationIndexes)
    checkIndexes p.ops.length source (trace.generatedActions.map (·.operationIndex))
    let sources := trace.initiatingGroups.map (sourcePatchForGroup p)
    let actions := sourceActions sources
    if actions = [] then throw "transition trace requires at least one initiating action"
    if transitionId trace.preHead sources trace.initiatingGroups (actions.map Prod.snd)
        trace.rulesetTag trace.generatedActions ≠ trace.transitionId then
      throw "transition id does not match initiating actions and provenance"
    Steps.run (fun a (_ : Unit) => checkGeneratedAction p.ops a) trace.generatedActions ()
    let (initiating, generated) ← replayTimeline s p trace sources
    if trace.lifecycleEvents ≠
        lifecycleEvents trace.transitionId initiating generated trace.rulesetTag then
      throw "transition lifecycle events do not match expanded operation effects"
    checkEventIds rt trace.transitionId p.ops.length 0 [] trace.lifecycleEvents
    pure sources

end RcpGraph
