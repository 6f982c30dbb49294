import RcpGraph.Core.Patch
import RcpGraph.Lib.Crash

/-!
The rows the episode and question transactions read and write, and the store that
holds them. A transaction is a program over the store that is rolled back when it
raises. What a transaction asks of tables that are not modelled is an argument of it.
-/

namespace RcpGraph.Episodes

open Crash

inductive EpisodeMode where
  | autoResearch
  | experimentLoop
  deriving DecidableEq, Repr

inductive EpisodeStatus where
  | queued
  | running
  | stopping
  | wrappingUp
  | needsAction
  | completed
  | stopped
  | failed
  deriving DecidableEq, Repr

/-- `_LIVE_EPISODE_STATUSES`. -/
def EpisodeStatus.live : EpisodeStatus → Bool
  | .queued | .running | .stopping | .wrappingUp => true
  | .needsAction | .completed | .stopped | .failed => false

inductive EpisodeEnding where
  | completed
  | exhausted
  | stopped
  | failed
  | humanPause
  deriving DecidableEq, Repr

/-- `_status_for_ending`. -/
def statusForEnding : EpisodeEnding → EpisodeStatus
  | .completed => .completed
  | .exhausted => .needsAction
  | .humanPause => .needsAction
  | .failed => .failed
  | .stopped => .stopped

inductive WrapupState where
  | notStarted
  | pending
  | running
  | ready
  | failed
  | skipped
  | legacyUnavailable
  deriving DecidableEq, Repr

structure EpisodeRecord where
  episodeId : String
  projectId : String
  mode : EpisodeMode
  controlNodeId : Option String
  graphTarget : GraphTargetRef
  graphBaseHead : Option GraphHeadRef
  rootOperationId : Option String
  status : EpisodeStatus
  invocationCeiling : Nat
  invocationsUsed : Nat
  authorizedBy : Option AuthorizedHuman
  stopRequestedAt : Option String
  stopInitiatedBy : Option String
  stopSettledAt : Option String
  ending : Option EpisodeEnding
  endingDiagnostic : Option String
  wrapupState : WrapupState
  wrapupError : Option String
  createdAt : String
  updatedAt : String
  endedAt : Option String
  continuesEpisodeId : Option String
  deriving DecidableEq, Repr

/-- The restart fence of an episode's report. Its model refuses a wrap-up that is skipped
without a Stop, and one that has no ending. -/
structure EpisodeWrapupRecord where
  episodeId : String
  ending : Option EpisodeEnding
  partialReport : Bool
  concludingOperationId : Option String
  allocationOperationId : Option String
  provider : Option String
  machineId : Option String
  nativeSessionId : Option String
  stageMachineId : Option String
  stageRoot : Option String
  skillId : Option String
  skillVersion : Option String
  outputName : Option String
  outputPath : Option String
  receiptJson : String
  receiptSha256 : String
  state : WrapupState
  diagnostic : Option String
  createdAt : String
  updatedAt : String
  finishedAt : Option String
  skipped_iff : state = .skipped ↔ ending = some .stopped
  ending_isSome : state ≠ .legacyUnavailable → ending.isSome
  deriving DecidableEq

inductive TaskKind where
  | nodeChat
  | projectChat
  | spaceChat
  | episodeReport
  | other (name : String)
  deriving DecidableEq, Repr

inductive TaskStatus where
  | queued
  | running
  | pausing
  | paused
  | succeeded
  | failed
  | interrupted
  deriving DecidableEq, Repr

/-- A task that has not come to rest. -/
def TaskStatus.active : TaskStatus → Bool
  | .queued | .running | .pausing => true
  | .paused | .succeeded | .failed | .interrupted => false

structure TaskRequest where
  provider : Option String
  runOn : Option String
  runTruthScope : List String
  mode : Option String
  chatId : Option String
  nodeId : Option String
  patchKind : Option String
  trigger : Option String
  message : Option String
  watcherIds : Option (List String)
  controlEpisodeId : Option String
  controlNodeId : Option String
  controlInvocation : Option Nat
  controlInvocationCeiling : Option Nat
  deriving DecidableEq, Repr

structure DispatchAuthority where
  profile : String
  taskContract : String
  patchKind : Option String
  deriving DecidableEq, Repr

/-- A row of `graph_runs`. -/
structure AgentTaskRecord where
  operationId : String
  projectId : String
  episodeId : Option String
  kind : TaskKind
  status : TaskStatus
  request : TaskRequest
  visible : Bool
  historyOnly : Bool
  parentOperationId : Option String
  nativeSessionId : Option String
  stageMachineId : Option String
  stageRoot : Option String
  graphTarget : GraphTargetRef
  authorizedBy : Option AuthorizedHuman
  dispatchAuthority : Option DispatchAuthority
  error : Option String
  createdAt : String
  deriving DecidableEq, Repr

structure EpisodeInvocation where
  episodeId : String
  operationId : String
  invocationNumber : Nat
  createdAt : String
  deriving DecidableEq, Repr

structure Watcher where
  /-- Its status is completed or degraded. -/
  ready : Bool
  notified : Bool
  notificationOperationId : Option String
  deriving DecidableEq, Repr

inductive OwnerKind where
  | chat
  | episode
  deriving DecidableEq, Repr

structure QuestionOrigin where
  ownerKind : OwnerKind
  projectId : String
  ownerId : String
  operationId : String
  provider : String
  nativeSessionId : String
  stageRoot : String
  stageMachineId : Option String
  capability : String
  graphTarget : GraphTargetRef
  deriving DecidableEq, Repr

inductive QuestionState where
  | pending
  | answered
  | dismissed
  deriving DecidableEq, Repr

structure Question where
  questionId : String
  origin : QuestionOrigin
  key : String
  argumentHash : String
  question : String
  choices : List String
  multiple : Bool
  state : QuestionState
  answer : Option String
  chosenChoices : List String
  resolvedBy : Option AuthorizedHuman
  resolvedAt : Option String
  answerRevision : Nat
  clientReceiptRevision : Option Nat
  clientReceiptOperationId : Option String
  clientReceiptRequestId : Option String
  clientReceiptAt : Option String
  followupOperationId : Option String
  followupClaimedAt : Option String
  dismissalDeliveredAt : Option String
  withdrawnReadonly : Bool
  createdAt : String
  deriving DecidableEq, Repr

/-- A client's acknowledgement of an answer, kept with the turn that consumed it. -/
structure Acknowledgement where
  operationId : String
  questionId : String
  answerRevision : Nat
  requestId : String
  deriving DecidableEq, Repr

structure Store where
  episodes : Dict String EpisodeRecord
  wrapups : Dict String EpisodeWrapupRecord
  invocations : List EpisodeInvocation
  tasks : Dict String AgentTaskRecord
  watchers : Dict String Watcher
  questions : Dict String Question
  acknowledgements : List Acknowledgement
  /-- The ids in `auto_research_messages`. -/
  messages : List String

def Store.empty : Store where
  episodes := Dict.empty
  wrapups := Dict.empty
  invocations := []
  tasks := Dict.empty
  watchers := Dict.empty
  questions := Dict.empty
  acknowledgements := []
  messages := []

inductive Refusal where
  | keyError (key : String)
  | valueError (message : String)
  | runtimeError (message : String)
  | integrityError
  | episodeNotRunning (message : String)
  | episodeReportConflict (message : String)
  | episodeInvocationCeilingReached (message : String)
  | agentTaskAdmissionConflict (message : String)
  | questionArgumentConflict (message : String)
  | questionStateConflict (message : String)
  deriving DecidableEq, Repr

abbrev Txn (α : Type) := Prog Store Refusal α

def refuse {α : Type} (e : Refusal) : Txn α := Prog.raise e

/-- A check that raises when it does not pass. -/
def pass (check : Option Refusal) : Txn PUnit :=
  match check with
  | none => pure ⟨⟩
  | some e => refuse e

def readEpisode (episodeId : String) : Txn EpisodeRecord := do
  let s ← Prog.get
  match s.episodes.get? episodeId with
  | none => refuse (.keyError episodeId)
  | some episode => pure episode

def writeEpisode (episodeId : String) (episode : EpisodeRecord) : Txn PUnit :=
  Prog.modify fun s => { s with episodes := s.episodes.insert episodeId episode }

def Store.changeQuestions (s : Store) (f : Question → Question) : Store :=
  { s with questions := s.questions.map fun _ q => f q }

/-- `_insert_agent_task`, with what its other checks answer. -/
def insertAgentTask (record : AgentTaskRecord) (check : Option Refusal) : Txn PUnit := do
  pass check
  let s ← Prog.get
  if record.operationId ∈ s.tasks then refuse .integrityError
  else Prog.modify fun s => { s with tasks := s.tasks.insert record.operationId record }

def Store.invocationsOf (s : Store) (episodeId : String) : List EpisodeInvocation :=
  s.invocations.filter fun row => row.episodeId = episodeId

/-- An operation is one row, and an episode has one row for each number. -/
def insertInvocation (row : EpisodeInvocation) : Txn PUnit := do
  let s ← Prog.get
  if s.invocations.any fun old => old.operationId = row.operationId ||
      (old.episodeId = row.episodeId && old.invocationNumber = row.invocationNumber) then
    refuse .integrityError
  else Prog.modify fun s => { s with invocations := s.invocations ++ [row] }

/-- `_has_active_chat_overlap`. -/
def hasActiveChatOverlap (s : Store) (record : AgentTaskRecord) : Bool :=
  match record.kind, record.request.chatId with
  | .nodeChat, some chatId | .projectChat, some chatId | .spaceChat, some chatId =>
      chatId ≠ "" && s.tasks.values.any fun task =>
        task.projectId = record.projectId && task.kind = record.kind &&
          task.request.chatId = some chatId && task.status.active
  | _, _ => false

end RcpGraph.Episodes
