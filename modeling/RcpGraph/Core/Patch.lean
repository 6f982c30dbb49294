import RcpGraph.Core.Operations

/-!
Graph heads, transition traces, patches and the materialized graph state.
-/

namespace RcpGraph

/-- The graph a head belongs to. -/
inductive GraphTargetRef where
  | main
  | branch (branchId : String)
  deriving DecidableEq, Repr, Inhabited

def GraphTargetRef.key : GraphTargetRef → String
  | main => "main"
  | branch id => "branch:" ++ id

structure GraphHeadRef where
  target : GraphTargetRef := .main
  revision : Nat
  transitionId : Option String := none
  deriving DecidableEq, Repr

inductive TransitionCauseRef where
  | action (index : Nat)
  | event (eventId : String)
  deriving DecidableEq, Repr

/-- The explicit authority action a producer declares. -/
inductive DeclaredAction where
  | decisionChoice
  deriving DecidableEq, Repr

structure TransitionInitiatingGroup where
  groupId : String
  operationIndexes : List Nat
  summary : String
  changeSummary : List String := []
  humanAction : Option DeclaredAction := none
  agentAction : Option DeclaredAction := none
  deriving DecidableEq, Repr

structure TransitionGeneratedAction where
  operationIndex : Nat
  ruleId : String
  cause : TransitionCauseRef
  deriving DecidableEq, Repr

inductive EventType where
  | nodeStatusChanged
  | guidanceInvalidated
  | guidanceRefreshed
  deriving DecidableEq, Repr

def EventType.name : EventType → String
  | nodeStatusChanged => "node_status_changed"
  | guidanceInvalidated => "guidance_invalidated"
  | guidanceRefreshed => "guidance_refreshed"

structure TransitionEvent where
  eventId : String
  eventType : EventType
  cause : TransitionCauseRef
  nodeId : String
  field : String
  before : Json
  after : Json
  deriving DecidableEq, Repr

structure TransitionTrace where
  transitionId : String
  preHead : GraphHeadRef
  rulesetTag : String
  initiatingGroups : List TransitionInitiatingGroup
  generatedActions : List TransitionGeneratedAction := []
  lifecycleEvents : List TransitionEvent := []
  expandedOpsSha256 : String
  deriving DecidableEq, Repr

inductive Level where
  | flag
  | reject
  deriving DecidableEq, Repr

structure ValidationMessage where
  level : Level
  code : String
  message : String
  patchRevision : Option Nat := none
  relatedNodeIds : List String := []
  relatedEdgeIds : List String := []
  operationIndex : Option Nat := none
  ruleId : Option String := none
  causeChain : List TransitionCauseRef := []
  failedInvariant : Option String := none
  deriving DecidableEq, Repr

inductive PatchKind where
  | seed
  | refresh
  | chat
  | work
  | experimentLoop
  | approval
  | identity
  deriving DecidableEq, Repr

def PatchKind.name : PatchKind → String
  | seed => "seed"
  | refresh => "refresh"
  | chat => "chat"
  | work => "work"
  | experimentLoop => "experiment_loop"
  | approval => "approval"
  | identity => "identity"

inductive Producer where
  | agent
  | human
  | system
  deriving DecidableEq, Repr

def Producer.name : Producer → String
  | agent => "agent"
  | human => "human"
  | system => "system"

inductive Profile where
  | ordinary
  | orchestrator
  deriving DecidableEq, Repr

def Profile.name : Profile → String
  | ordinary => "ordinary"
  | orchestrator => "orchestrator"

inductive SchemaGeneration where
  | one
  | two
  deriving DecidableEq, Repr

inductive Admission where
  | accepted
  | rejected
  deriving DecidableEq, Repr

structure DecisionPin where
  decisionId : String
  decisionRevision : Nat
  selectedOption : String
  deriving DecidableEq, Repr

structure AuthorizedHuman where
  spaceId : String
  userId : String
  displayName : String
  deriving DecidableEq, Repr

structure ProjectIdentity where
  projectId : String
  homeSpaceId : String
  adopted : Bool
  deriving DecidableEq, Repr

structure ProjectHomeTransfer where
  projectId : String
  previousHomeSpaceId : String
  newHomeSpaceId : String
  sourceReleasedBy : AuthorizedHuman
  targetAdmittedBy : AuthorizedHuman
  deriving DecidableEq, Repr

structure BranchMergeProvenance where
  mergeId : String
  branchId : String
  episodeId : Option String
  branchBaseHead : GraphHeadRef
  branchHead : GraphHeadRef
  rebasedMainHead : GraphHeadRef
  mergeTaskId : String
  deriving DecidableEq, Repr

/-- One patch: an attributed envelope around a list of operations. -/
structure Patch (rt : Runtime) where
  schemaGeneration : SchemaGeneration := .two
  revision : Nat := 0
  kind : PatchKind
  author : Option Author
  producer : Producer
  createdAt : String
  summary : String
  ops : List (GraphOperation rt)
  runTruthScope : List String := []
  repositoriesRead : List String := []
  runReadScope : Option (List String) := none
  processedCursors : Dict String String := .empty
  changeSummary : List String := []
  sourceOperationId : Option String := none
  sourceEffectId : Option String := none
  sourceEffectSha256 : Option String := none
  humanAction : Option DeclaredAction := none
  agentAction : Option DeclaredAction := none
  admission : Admission := .accepted
  admissionMessages : List ValidationMessage := []
  experimentControlNodeId : Option String := none
  experimentDecisionBundle : List DecisionPin := []
  projectIdentity : Option ProjectIdentity := none
  projectHomeTransfer : Option ProjectHomeTransfer := none
  authorizedBy : Option AuthorizedHuman := none
  profile : Option Profile := none
  taskId : Option String := none
  episodeId : Option String := none
  branchMerge : Option BranchMergeProvenance := none
  transition : Option TransitionTrace := none
  deriving DecidableEq

structure BeliefTransition where
  hypothesisId : String
  fromStatus : String
  toStatus : String
  revision : Nat
  cause : BeliefCause
  deriving DecidableEq, Repr

structure ReplayFailure where
  revision : Nat
  createdAt : String
  code : String
  message : String
  deriving DecidableEq, Repr

/-- The materialized graph. `replayFailure` is present exactly when replay degraded. -/
structure GraphState (rt : Runtime) where
  revision : Nat := 0
  projectTruthScope : List String := []
  configRevisions : Dict String Nat := .empty
  nodes : Dict String (ProjectNode rt) := .empty
  edges : Dict String Edge := .empty
  proposals : Dict String (Proposal rt) := .empty
  ambiguities : Dict String Ambiguity := .empty
  glossary : Dict String GlossaryTerm := .empty
  ontology : OntologyState := .initial
  validationMessages : List ValidationMessage := []
  beliefTransitions : List BeliefTransition := []
  replayFailure : Option ReplayFailure := none
  lastRefreshAt : Option String := none
  deriving DecidableEq

variable {rt : Runtime}

/-- `replay_status == "complete"`. -/
def GraphState.complete (s : GraphState rt) : Bool := s.replayFailure.isNone

/-- The state of a project before its first patch. -/
def GraphState.initial (rt : Runtime) (scope : List String) : GraphState rt :=
  { projectTruthScope := scope }

end RcpGraph
