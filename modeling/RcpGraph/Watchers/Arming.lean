import RcpGraph.Watchers.Records

/-!
Arming: a handed over watch list becomes rows, in one transaction. A row whose episode or
worker was stopped meanwhile is born stopped.
-/

namespace RcpGraph.Watchers

open Crash

/-- What a new watcher observes, and what its first look at it found. -/
inductive Observation where
  | external (checkCommand logPath cwd : String) (cancelCommand : Option String)
      (checkedAt : String) (exitCode : Option Int) (complete : Bool)
  | graph (condition : GraphCondition) (armedRevision : Nat) (complete : Bool)
  deriving DecidableEq, Repr

/-- The context a watch list is bound to: `WatcherBinding`. -/
structure WatcherBinding where
  projectId : String
  originOperationId : String
  originTaskKind : Episodes.TaskKind
  chatId : String
  nodeId : Option String
  episodeId : Option String
  workerId : Option String
  graphTarget : GraphTargetRef
  machineId : String
  continuation : WatcherContinuation
  deriving DecidableEq, Repr

/-- A watcher as its two makers hand it over; a row's other columns have their defaults. -/
structure NewWatcher where
  watcherId : String
  binding : WatcherBinding
  observation : Observation
  createdAt : String
  group : Option (String × String)
  deriving DecidableEq, Repr

/-- The status a first look leaves. -/
def firstStatus (complete : Bool) : WatcherStatus := if complete then .completed else .active

def NewWatcher.record (new : NewWatcher) : Watcher :=
  let base : Watcher :=
    { projectId := new.binding.projectId
      originOperationId := new.binding.originOperationId
      originTaskKind := new.binding.originTaskKind
      chatId := new.binding.chatId
      nodeId := new.binding.nodeId
      episodeId := new.binding.episodeId
      workerId := new.binding.workerId
      graphTarget := new.binding.graphTarget
      machineId := new.binding.machineId
      checkCommand := ""
      logPath := ""
      cwd := ""
      graphCondition := none
      armedRevision := none
      continuation := new.binding.continuation
      status := .active
      createdAt := new.createdAt
      lastCheckedAt := none
      lastExitCode := none
      lastError := none
      completedAt := none
      nextCheckAt := none
      consecutiveErrorCount := 0
      groupId := none
      groupLabel := none
      notified := false
      notificationOperationId := none
      stoppedBy := none
      stopReason := none
      stoppedAt := none
      stopOperationId := none
      cancelCommand := none
      cancelRequestedBy := none
      cancelRequestedAt := none
      cancelError := none }
  match new.observation with
  | .external checkCommand logPath cwd cancelCommand checkedAt exitCode complete =>
      { base with
        checkCommand := checkCommand, logPath := logPath, cwd := cwd
        cancelCommand := cancelCommand
        status := firstStatus complete
        lastCheckedAt := some checkedAt, lastExitCode := exitCode
        completedAt := if complete then some checkedAt else none
        groupId := new.group.map Prod.fst, groupLabel := new.group.map Prod.snd }
  | .graph condition armedRevision complete =>
      { base with
        graphCondition := some condition, armedRevision := some armedRevision
        status := firstStatus complete
        lastCheckedAt := some new.createdAt
        completedAt := if complete then some new.createdAt else none }

/-- `watcher_next_check_at`, of a watcher id, the last check and the errors in a row. -/
abbrev Backoff := String → String → Nat → String

/-- `_prepare_watcher_for_insert`. -/
def prepareWatcherForInsert (backoff : Backoff) (id : String) (record : Watcher) : Watcher :=
  let bound :=
    if record.continuation.patchKind = .experimentLoop then
      { record with
        episodeId := (record.episodeId.filter (· ≠ "")).or record.continuation.controlEpisodeId }
    else record
  if bound.graphCondition.isSome || !bound.status.observing || bound.nextCheckAt.isSome then bound
  else
    let errors :=
      if bound.status = .degraded && bound.consecutiveErrorCount = 0 then 1
      else bound.consecutiveErrorCount
    { bound with
      consecutiveErrorCount := errors
      nextCheckAt := some (backoff id ((bound.lastCheckedAt.filter (· ≠ "")).getD bound.createdAt) errors) }

/-- The columns a watch list shares. -/
def Watcher.binding (w : Watcher) : WatcherBinding where
  projectId := w.projectId
  originOperationId := w.originOperationId
  originTaskKind := w.originTaskKind
  chatId := w.chatId
  nodeId := w.nodeId
  episodeId := w.episodeId
  workerId := w.workerId
  graphTarget := w.graphTarget
  machineId := w.machineId
  continuation := w.continuation

/-- The groups whose name stands once only in a list of names. -/
def undersized (names : List String) : Bool := names.any fun name => names.count name < 2

/-- The checks of an Experiment loop's list, made on its first record's continuation. -/
def loopListProblem (c : WatcherContinuation) (records : List (String × Watcher)) :
    Option String :=
  if c.patchKind ≠ .experimentLoop then none
  else
    match c.controlNodeId, c.controlEpisodeId, c.controlInvocation, c.controlInvocationCeiling with
    | some nodeId, some episodeId, some invocation, some ceiling =>
        if nodeId = "" || episodeId = "" || invocation = 0 || ceiling = 0 then
          some "an experiment-loop watcher must preserve its control binding"
        else if ceiling < invocation then
          some "an experiment-loop watcher invocation exceeds its pinned ceiling"
        else if records.any fun r => r.2.episodeId ≠ some episodeId then
          some "an Experiment watcher must bind explicitly to its control episode"
        else none
    | _, _, _, _ => some "an experiment-loop watcher must preserve its control binding"

/-- `_validate_watch_list`. -/
def watchListProblem (records : List (String × Watcher)) : Option String :=
  match records with
  | [] => some "a watch list must contain at least one watcher"
  | first :: _ =>
      let grouped := records.filter fun r => r.2.groupId.isSome
      if ¬ (records.map Prod.fst).Nodup then some "a watch list cannot repeat a watcher id"
      else if records.any fun r => r.2.binding ≠ first.2.binding then
        some "one watch list must share one RCP-bound continuation context"
      else if records.any fun r => r.2.graphCondition.isSome && r.2.status = .degraded then
        some "a graph condition cannot have a degraded shell-check state"
      else if records.any fun r => r.2.graphCondition.isSome && r.2.armedRevision.isNone then
        some "a new graph condition requires its canonical arming revision"
      else if grouped.any fun r => r.2.graphCondition.isSome then
        some "graph conditions cannot join an external watcher group"
      else if records.any fun r => r.2.groupId.isNone ≠ r.2.groupLabel.isNone then
        some "watcher group identity and label must be stored together"
      else if !grouped.isEmpty && first.2.continuation.patchKind ≠ .experimentLoop then
        some "only Experiment-loop watchers may join a watcher group"
      else if undersized (grouped.filterMap fun r => r.2.groupId) then
        some "an Experiment watcher group requires at least two observers"
      else loopListProblem first.2.continuation records

/-- The route of a child Work, found through the attempt that armed a watcher. -/
structure ChildRoute where
  workerId : String
  episodeId : String
  stopRequestedAt : Option String
  deriving DecidableEq, Repr

/-- What other tables answer about the task that arms a watcher. -/
structure ArmingAnswers where
  childRoute : Option ChildRoute
  /-- When the task's episode was stopped or ended, if it was. -/
  stoppedEpisode : Option String
  deriving DecidableEq, Repr

/-- A row that a stop found before it was stored. -/
def Watcher.bornStopped (w : Watcher) (stoppedAt : String) : Watcher :=
  { w with
    status := .stopped, notified := true, nextCheckAt := none
    stoppedBy := some .loop, stoppedAt := some stoppedAt }

/-- The checks that `_insert_watcher` makes on the task that arms the watcher. -/
def originProblem (s : Store) (answers : ArmingAnswers) (record : Watcher) : Option String :=
  let route :=
    match answers.childRoute with
    | none => record.workerId.isSome
    | some route =>
        record.workerId ≠ some route.workerId || record.episodeId ≠ some route.episodeId
  let routeProblem :=
    if route then some "a child watcher must preserve its durable worker route" else none
  match s.tasks.get? record.originOperationId with
  | none =>
      if record.graphTarget ≠ .main then some "a branch watcher requires its durable origin task"
      else routeProblem
  | some origin =>
      if origin.record.kind = .spaceChat then
        some "Space threads cannot own watchers; hand off to a project thread"
      else if origin.record.projectId ≠ record.projectId ||
          (origin.record.episodeId.isSome && origin.record.episodeId ≠ record.episodeId) ||
          origin.record.graphTarget ≠ record.graphTarget then
        some "a watcher cannot change its origin task graph binding"
      else routeProblem

/-- The row as it is stored, after the stops that came before it. -/
def Watcher.stoppedAtBirth (w : Watcher) (answers : ArmingAnswers) : Watcher :=
  let routed :=
    match answers.childRoute.bind ChildRoute.stopRequestedAt with
    | none => w
    | some stoppedAt =>
        { w.bornStopped stoppedAt with stopReason := some "Auto-research child Work stopped." }
  match answers.stoppedEpisode with
  | none => routed
  | some stoppedAt => if routed.status = .stopped then routed else routed.bornStopped stoppedAt

/-- A graph condition may not be armed behind what its target has consumed. -/
def behindConsumed (s : Store) (w : Watcher) : Bool :=
  w.graphCondition.isSome && w.status ≠ .stopped &&
    match w.armedRevision, s.consumed.get? (w.projectId, w.graphTarget) with
    | some armed, some head => armed < head.revision
    | _, _ => false

/-- `_insert_watcher`. -/
def insertWatcher (answers : ArmingAnswers) (id : String) (record : Watcher) : Txn PUnit := do
  let s ← Prog.get
  pass ((originProblem s answers record).map .valueError)
  let row := record.stoppedAtBirth answers
  if behindConsumed s row then
    refuse (.valueError "a graph watcher cannot arm behind the consumed target boundary")
  else if id ∈ s.watchers then refuse .integrityError
  else Prog.modify fun s => { s with watchers := s.watchers.insert id row }

def insertWatchers (answers : ArmingAnswers) : List (String × Watcher) → Txn PUnit
  | [] => pure ⟨⟩
  | (id, record) :: rest => do
      insertWatcher answers id record
      insertWatchers answers rest

/-- The rows that a handed over list becomes, before they are checked. -/
def prepared (backoff : Backoff) (list : List NewWatcher) : List (String × Watcher) :=
  list.map fun new => (new.watcherId, prepareWatcherForInsert backoff new.watcherId new.record)

/-- `create_watchers`. -/
def createWatchers (backoff : Backoff) (answers : ArmingAnswers) (list : List NewWatcher) :
    Txn PUnit := do
  let records := prepared backoff list
  pass ((watchListProblem records).map .valueError)
  insertWatchers answers records

/-- A staged retirement: `WatcherStopRequest`. -/
structure WatcherStopRequest where
  stopWatcherId : String
  reason : String
  deriving DecidableEq, Repr

/-- What other tables answer to an Experiment's handoff. -/
structure HandoffAnswers where
  arming : ArmingAnswers
  /-- The maintenance admission, its snapshot and the episode the handoff belongs to. -/
  admission : Option Refusal
  /-- Whether there is no current episode or root task to retire a watcher for. -/
  unbound : Option Refusal
  /-- The episode's Stop was requested. -/
  stopped : Bool
  /-- `_experiment_watcher_matches_current`. -/
  current : Watcher → Bool
  /-- `_reject_duplicate_live_experiment_observers`, of the records that are new. -/
  duplicates : List (String × Watcher) → Option Refusal
  /-- `_reject_unwakeable_maintained_episode`, where it is asked. -/
  unwakeable : Option Refusal

/-- What a staged retirement finds wrong with the row it names. -/
def stopProblem (binding : WatcherBinding) (answers : HandoffAnswers) (stop : WatcherStopRequest) :
    Option Watcher → Option Refusal
  | none => some (.valueError
      ("Watcher stop names an unknown staged watcher: " ++ stop.stopWatcherId))
  | some record =>
      if record.status = .stopped then
        if (record.stoppedBy = some .agent &&
            record.stopOperationId = some binding.originOperationId &&
            record.stopReason = some stop.reason) || answers.stopped then none
        else some (.valueError ("Watcher stop was already resolved: " ++ stop.stopWatcherId))
      else if record.notified || record.notificationOperationId.isSome then
        some (.watcherClaimConflict "A watcher update was already claimed for delivery.")
      else if record.projectId ≠ binding.projectId ||
          record.nodeId ≠ binding.continuation.controlNodeId || !answers.current record then
        some (.valueError
          ("Watcher stop is outside the bound Experiment episode: " ++ stop.stopWatcherId))
      else none

/-- The columns an agent's retirement writes. -/
def Watcher.retire (stop : WatcherStopRequest) (operationId now : String) (w : Watcher) :
    Watcher :=
  { w with
    status := .stopped, notified := true, nextCheckAt := none
    stoppedBy := some .agent, stopReason := some stop.reason, stoppedAt := some now
    stopOperationId := some operationId }

def Watcher.unclaimed (w : Watcher) : Bool := !w.notified && w.notificationOperationId.isNone

/-- The retirements of `_validate_and_apply_agent_watcher_stops`, once all are checked. -/
def retireWatchers (operationId now : String) : List WatcherStopRequest → Txn PUnit
  | [] => pure ⟨⟩
  | stop :: rest => do
      let s ← Prog.get
      if (s.watchers.get? stop.stopWatcherId).any fun w => w.status = .stopped then
        retireWatchers operationId now rest
      else if (s.watchers.get? stop.stopWatcherId).all fun w => !(w.status.live && w.unclaimed) then
        refuse (.watcherClaimConflict "A watcher update changed during its retirement claim.")
      else
        changeWatcher stop.stopWatcherId (Watcher.retire stop operationId now)
        retireWatchers operationId now rest

/-- `_validate_and_apply_agent_watcher_stops`. -/
def applyAgentWatcherStops (binding : WatcherBinding) (answers : HandoffAnswers)
    (stops : List WatcherStopRequest) (now : String) : Txn PUnit := do
  pass answers.unbound
  let s ← Prog.get
  pass (stops.findSome? fun stop =>
    stopProblem binding answers stop (s.watchers.get? stop.stopWatcherId))
  retireWatchers binding.originOperationId now stops

/-- The columns that `_validate_idempotent_watcher` compares. -/
structure WatcherIdentity where
  binding : WatcherBinding
  groupId : Option String
  groupLabel : Option String
  condition : Option GraphCondition
  checkCommand : String
  logPath : String
  cwd : String
  cancelCommand : Option String
  deriving DecidableEq, Repr

def Watcher.identity (w : Watcher) : WatcherIdentity where
  binding := w.binding
  groupId := w.groupId
  groupLabel := w.groupLabel
  condition := w.graphCondition
  checkCommand := w.checkCommand
  logPath := w.logPath
  cwd := w.cwd
  cancelCommand := w.cancelCommand

/-- The columns of a stop for the loop, which keeps who stopped a row first and when. -/
def Watcher.stopForLoop (now : String) (w : Watcher) : Watcher :=
  { w with
    status := .stopped, notified := true, nextCheckAt := none
    stoppedBy := w.stoppedBy.or (some .loop), stoppedAt := w.stoppedAt.or (some now) }

/-- One record of a handoff: armed anew, or known already. -/
def persistWatcher (answers : HandoffAnswers) (now id : String) (desired : Watcher) :
    Txn PUnit := do
  let s ← Prog.get
  match s.watchers.get? id with
  | some existing =>
      if existing.identity ≠ desired.identity then
        refuse (.valueError "Experiment-loop watcher identity conflicts with stored state.")
      else if answers.stopped && (existing.status ≠ .stopped || !existing.notified) then
        changeWatcher id (Watcher.stopForLoop now)
      else pure ⟨⟩
  | none =>
      insertWatcher answers.arming id
        (if answers.stopped then desired.bornStopped now else desired)

def persistWatchers (answers : HandoffAnswers) (now : String) :
    List (String × Watcher) → Txn PUnit
  | [] => pure ⟨⟩
  | (id, desired) :: rest => do
      persistWatcher answers now id desired
      persistWatchers answers now rest

/-- The retirements of a handoff, if it stages any. -/
def stagedStops (binding : WatcherBinding) (answers : HandoffAnswers)
    (stops : List WatcherStopRequest) (now : String) : Txn PUnit :=
  if stops.isEmpty then pure ⟨⟩ else applyAgentWatcherStops binding answers stops now

/-- `_persist_experiment_watchers_idempotently`. -/
def persistExperimentWatchersIdempotently (backoff : Backoff) (answers : HandoffAnswers)
    (binding : WatcherBinding) (list : List NewWatcher) (stops : List WatcherStopRequest)
    (now : String) : Txn PUnit := do
  if list.isEmpty && stops.isEmpty then pure ⟨⟩
  else
    let records := prepared backoff list
    pass (if records.isEmpty then none else (watchListProblem records).map .valueError)
    let continuation := (records.head?.map fun r => r.2.continuation).getD binding.continuation
    if continuation.patchKind ≠ .experimentLoop then
      refuse (.valueError "idempotent Experiment persistence requires loop watchers")
    else if records.any fun r => { r.2.binding with episodeId := none, workerId := none } ≠
        { binding with episodeId := none, workerId := none } then
      refuse (.valueError
        "Experiment watcher handoff changed its bound continuation context.")
    else if ¬ (stops.map WatcherStopRequest.stopWatcherId).Nodup then
      refuse (.valueError "Experiment watcher stop ids must be unique")
    else
      pass answers.admission
      stagedStops binding answers stops now
      let s ← Prog.get
      pass (if answers.stopped then none
        else answers.duplicates (records.filter fun r => r.1 ∉ s.watchers))
      persistWatchers answers now records
      pass (if records.isEmpty then answers.unwakeable else none)

end RcpGraph.Watchers
