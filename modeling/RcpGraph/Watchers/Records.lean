import RcpGraph.Episodes.Records

/-!
Watchers: the rows that observe a job or a graph condition until its result is handed to
a task. A row is claimed when a task is queued that delivers it. What a transaction asks
of tables that are not modelled is an argument of it.
-/

namespace RcpGraph.Watchers

open Crash
open Episodes (AgentTaskRecord TaskKind)

inductive WatcherStatus where
  | active
  | degraded
  | completed
  | stopped
  deriving DecidableEq, Repr

/-- `status IN ('active', 'degraded', 'completed')`. -/
def WatcherStatus.live : WatcherStatus → Bool
  | .active | .degraded | .completed => true
  | .stopped => false

/-- `status IN ('active', 'degraded')`. -/
def WatcherStatus.observing : WatcherStatus → Bool
  | .active | .degraded => true
  | .completed | .stopped => false

/-- `status IN ('completed', 'degraded')`. -/
def WatcherStatus.ready : WatcherStatus → Bool
  | .completed | .degraded => true
  | .active | .stopped => false

inductive StoppedBy where
  | human
  | loop
  | agent
  deriving DecidableEq, Repr

inductive GraphCondition where
  | nodeStatus (nodeId : String) (statusIn : List String)
  | proposalResolved (nodeId : String)
  deriving DecidableEq, Repr

def GraphCondition.nodeId : GraphCondition → String
  | .nodeStatus nodeId _ | .proposalResolved nodeId => nodeId

inductive GraphPatchKind where
  | work
  | experimentLoop
  deriving DecidableEq, Repr

/-- The fields of a continuation that these transactions read; `rest` is the others. -/
structure WatcherContinuation where
  patchKind : GraphPatchKind
  controlNodeId : Option String
  controlEpisodeId : Option String
  controlInvocation : Option Nat
  controlInvocationCeiling : Option Nat
  rest : String
  deriving DecidableEq, Repr

/-- A row of `watchers`; `graphCondition` tells a graph watcher from an external one. -/
structure Watcher where
  projectId : String
  originOperationId : String
  originTaskKind : TaskKind
  chatId : String
  nodeId : Option String
  episodeId : Option String
  workerId : Option String
  graphTarget : GraphTargetRef
  machineId : String
  checkCommand : String
  logPath : String
  cwd : String
  graphCondition : Option GraphCondition
  armedRevision : Option Nat
  continuation : WatcherContinuation
  status : WatcherStatus
  createdAt : String
  lastCheckedAt : Option String
  lastExitCode : Option Int
  lastError : Option String
  completedAt : Option String
  nextCheckAt : Option String
  consecutiveErrorCount : Nat
  groupId : Option String
  groupLabel : Option String
  notified : Bool
  notificationOperationId : Option String
  stoppedBy : Option StoppedBy
  stopReason : Option String
  stoppedAt : Option String
  stopOperationId : Option String
  cancelCommand : Option String
  cancelRequestedBy : Option String
  cancelRequestedAt : Option String
  cancelError : Option String
  deriving DecidableEq, Repr

/-- `WatcherRecord.can_cancel`. -/
def Watcher.canCancel (w : Watcher) : Bool :=
  w.cancelCommand.any (· ≠ "") && w.completedAt.isNone &&
    (w.cancelRequestedAt.isNone || w.cancelError.isSome)

/-- `_AGENT_TASK_CONTINUATION_CAUSES`. -/
inductive ContinuationCause where
  | fresh
  | resume
  | retry
  | handoff
  | graphRepair
  | watcherWake
  | graphConditionWake
  | messageWake
  | lifecycleWake
  | autoResearchContinuation
  | episodeReport
  deriving DecidableEq, Repr

/-- The causes under which a task takes over its parent, with its parent's request. -/
def ContinuationCause.recovers : ContinuationCause → Bool
  | .resume | .retry | .handoff | .graphRepair => true
  | _ => false

/-- A row of `graph_runs`, with the cause it was admitted for. -/
structure Task where
  record : AgentTaskRecord
  cause : ContinuationCause
  deriving DecidableEq, Repr

/-- The watchers that the request of a task names. -/
def Task.names (t : Task) : List String := t.record.request.watcherIds.getD []

structure Store where
  watchers : Dict String Watcher
  tasks : Dict String Task
  /-- `graph_watcher_reconciliation`: the boundary consumed last for a project's target. -/
  consumed : Dict (String × GraphTargetRef) GraphHeadRef

def Store.empty : Store where
  watchers := Dict.empty
  tasks := Dict.empty
  consumed := Dict.empty

inductive Refusal where
  | keyError (key : String)
  | valueError (message : String)
  | runtimeError (message : String)
  | integrityError
  | watcherClaimConflict (message : String)
  | agentTaskAdmissionConflict (message : String)
  | autoResearchActorBusy
  | episodeNotRunning (message : String)
  | episodeInvocationCeilingReached (message : String)
  deriving DecidableEq, Repr

abbrev Txn (α : Type) := Prog Store Refusal α

def refuse {α : Type} (e : Refusal) : Txn α := Prog.raise e

/-- A check that raises when it does not pass. -/
def pass (check : Option Refusal) : Txn PUnit :=
  match check with
  | none => pure ⟨⟩
  | some e => refuse e

/-- The ids and rows that a `WHERE` clause keeps. -/
abbrev Picks := String → Watcher → Bool

/-- `UPDATE watchers SET … WHERE …`. -/
def Store.updateWatchers (s : Store) (picks : Picks) (change : Watcher → Watcher) : Store :=
  { s with watchers := s.watchers.map fun id w => if picks id w then change w else w }

/-- How many rows a `WHERE` clause keeps. -/
def Store.rowcount (s : Store) (picks : Picks) : Nat :=
  (s.watchers.filter picks).entries.length

/-- `SELECT * FROM watchers WHERE watcher_id IN (…) AND …`, by id. -/
def Store.select (s : Store) (ids : List String) (keeps : Watcher → Bool) :
    List (String × Watcher) :=
  (s.watchers.filter fun id w => id ∈ ids && keeps w).entries

def updateWatchers (picks : Picks) (change : Watcher → Watcher) : Txn PUnit :=
  Prog.modify fun s => s.updateWatchers picks change

def changeWatcher (watcherId : String) (change : Watcher → Watcher) : Txn PUnit :=
  updateWatchers (fun id _ => id = watcherId) change

/-- `_insert_agent_task`, with what its other checks answer. -/
def insertAgentTask (record : AgentTaskRecord) (cause : ContinuationCause)
    (check : Option Refusal) : Txn PUnit := do
  pass check
  let s ← Prog.get
  if record.operationId ∈ s.tasks then refuse .integrityError
  else Prog.modify fun s => { s with tasks := s.tasks.insert record.operationId ⟨record, cause⟩ }

end RcpGraph.Watchers
