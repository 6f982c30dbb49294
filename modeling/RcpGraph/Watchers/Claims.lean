import RcpGraph.Watchers.Stopping

/-!
Claims: a task is queued and the watchers it delivers are marked with it, in one
transaction. Four transactions do so: the wake of a chat, the wake of a child Work, and
the wake and the Run of an Experiment. A recovery takes over its parent's request and
with it the watchers named there; every other task names none.
-/

namespace RcpGraph.Watchers

open Crash
open Episodes (AgentTaskRecord)

/-- The columns of a claim. -/
def Watcher.claim (operationId : String) (w : Watcher) : Watcher :=
  { w with
    notified := true, notificationOperationId := some operationId
    lastError := if w.status = .completed then none else w.lastError }

/-- A result that waits: `status IN ('completed', 'degraded') AND notified = 0`. -/
def Watcher.pending (w : Watcher) : Bool := w.status.ready && !w.notified

/-- The claim of each kind of wake, which must reach every watcher it names. -/
def claimWatchers (keeps : Watcher → Bool) (operationId : String) (ids : List String)
    (changed : Refusal) : Txn PUnit := do
  let s ← Prog.get
  if s.rowcount (fun id w => id ∈ ids && keeps w) ≠ ids.length then refuse changed
  else updateWatchers (fun id w => id ∈ ids && keeps w) (Watcher.claim operationId)

/-- The request names exactly these watchers. -/
def namesExactly (record : AgentTaskRecord) (ids : List String) : Bool :=
  record.request.watcherIds.any fun requested =>
    decide requested.Nodup && requested.all (· ∈ ids) && ids.all (· ∈ requested)

/-- How a claim ends when it is not raised. -/
inductive Admission where
  | queued
  | deferred
  deriving DecidableEq, Repr

/-- What a chat's wake asks of other tables. -/
structure NotificationAnswers where
  /-- The lifecycle and mail that only the root of an Auto-research may claim. -/
  rootInputs : Option Refusal
  /-- `_validate_watcher_notification_members`, the bindings and the scope. -/
  members : List (String × Watcher) → Option Refusal
  /-- The Experiment or the Auto-research of the wake was stopped. -/
  stopped : Bool
  chatOverlap : Bool
  insertion : Option Refusal
  /-- The lifecycle and mail were claimed meanwhile. -/
  inputsGone : Bool

/-- The checks on the selected rows, before a task is queued. -/
def notificationProblem (record : AgentTaskRecord) (ids : List String)
    (rows : List (String × Watcher)) (answers : NotificationAnswers) : Option Refusal :=
  if ids.any fun id => id ∉ rows.map Prod.fst then
    some (.valueError "watchers are missing, unready, or already notified")
  else if rows.any fun r => r.2.workerId.isSome then
    some (.valueError "child Work watchers require their route's paid wake")
  else if rows.any fun r => r.2.projectId ≠ record.projectId then
    some (.valueError "watchers and notification task belong to different projects")
  else answers.members rows

/-- The causes a chat's wake is queued for. -/
inductive WakeCause where
  | fresh
  | watcher
  | graphCondition
  deriving DecidableEq, Repr

def WakeCause.cause : WakeCause → ContinuationCause
  | .fresh => .fresh
  | .watcher => .watcherWake
  | .graphCondition => .graphConditionWake

/-- The transaction of `create_watcher_notification_task`. -/
def createWatcherNotificationTask (record : AgentTaskRecord) (ids : List String)
    (wake : WakeCause) (answers : NotificationAnswers) : Txn Admission := do
  pass answers.rootInputs
  if ids.isEmpty || ¬ ids.Nodup then
    refuse (.valueError "a watcher notification requires unique watcher ids")
  else if record.status ≠ .queued then
    refuse (.valueError "a watcher notification task must be queued")
  else if !namesExactly record ids then
    refuse (.valueError "the watcher notification request must name exactly its watcher ids")
  else
    let s ← Prog.get
    let rows := s.select ids Watcher.pending
    pass (notificationProblem record ids rows answers)
    if answers.stopped then pure .deferred
    else if answers.chatOverlap then
      refuse (.agentTaskAdmissionConflict "a turn in this chat is running")
    else if answers.inputsGone then pure .deferred
    else
      insertAgentTask record wake.cause answers.insertion
      claimWatchers Watcher.pending record.operationId ids
        (.runtimeError "watcher notification changed during its transaction")
      pure .queued

/-- What the wake of a child Work asks of other tables. -/
structure ChildWakeAnswers where
  /-- The route, its episode and its saved session, with the members of the claim. -/
  admission : List (String × Watcher) → Option Refusal
  deferred : Bool
  chatOverlap : Bool
  insertion : Option Refusal
  /-- The route was moved on meanwhile. -/
  routeChanged : Bool

/-- The watcher wake of a child Work, on its route's paid allocation. -/
def createChildWorkWatcherWake (record : AgentTaskRecord) (ids : List String)
    (answers : ChildWakeAnswers) : Txn Admission := do
  let s ← Prog.get
  let rows := s.select ids Watcher.deliverable
  pass (answers.admission rows)
  if answers.deferred then pure .deferred
  else if record.request.watcherIds ≠ some ids then
    refuse (.valueError "child Work wake must preserve its exact saved Work session and scope")
  else if answers.chatOverlap then pure .deferred
  else
    insertAgentTask record .watcherWake answers.insertion
    if answers.routeChanged then
      refuse (.valueError "child Work wake admission changed during its transaction")
    else
      claimWatchers Watcher.deliverable record.operationId ids
        (.valueError "child Work watchers changed during their delivery claim")
      pure .queued

/-- What the Run or the wake of an Experiment asks of other tables. -/
structure ExperimentClaimAnswers where
  /-- The shape of the task. -/
  shape : Option Refusal
  /-- The members, their projects, targets and bindings. -/
  members : List (String × Watcher) → Option Refusal
  /-- The episode, its ceiling and the scope of the claim. -/
  admission : Option Refusal
  deferred : Bool
  insertion : Option Refusal
  /-- The invocation row and the allowance of a routed parent. -/
  invocation : Option Refusal

/-- `_validate_experiment_watcher_ids`. -/
def experimentIdsProblem (record : AgentTaskRecord) (ids : List String) : Option Refusal :=
  if ¬ ids.Nodup then
    some (.valueError "an Experiment watcher claim requires unique watcher ids")
  else if !namesExactly record ids then
    some (.valueError "the Experiment task must name exactly its watcher ids")
  else none

/-- `_ready_experiment_watchers`. -/
def readyExperimentProblem (s : Store) (ids : List String) (answers : ExperimentClaimAnswers) :
    Option Refusal :=
  let rows := s.select ids Watcher.pending
  if ids.isEmpty then none
  else if ids.any fun id => id ∉ rows.map Prod.fst then
    some (.valueError "watchers are missing, unready, or already notified")
  else answers.members rows

/-- `_claim_experiment_watchers`. -/
def claimExperimentWatchers (operationId : String) (ids : List String) : Txn PUnit :=
  if ids.isEmpty then pure ⟨⟩
  else
    claimWatchers Watcher.pending operationId ids
      (.runtimeError "Experiment watcher claim changed during its transaction")

/-- The watchers' part of a task that an Experiment's Run or wake queues. -/
def createExperimentClaim (record : AgentTaskRecord) (ids : List String)
    (wake : WakeCause) (answers : ExperimentClaimAnswers) : Txn Admission := do
  pass answers.shape
  pass (experimentIdsProblem record ids)
  let s ← Prog.get
  pass (readyExperimentProblem s ids answers)
  pass answers.admission
  if answers.deferred then pure .deferred
  else
    insertAgentTask record wake.cause answers.insertion
    pass answers.invocation
    claimExperimentWatchers record.operationId ids
    pure .queued

/-- The watchers' part of `create_experiment_episode_with_invocation`. -/
def createExperimentEpisodeWithInvocation (record : AgentTaskRecord) (ids : List String)
    (answers : ExperimentClaimAnswers) : Txn Admission :=
  createExperimentClaim record ids .fresh answers

/-- The watchers' part of `create_experiment_watcher_invocation`. -/
def createExperimentWatcherInvocation (record : AgentTaskRecord) (ids : List String)
    (answers : ExperimentClaimAnswers) : Txn Admission :=
  createExperimentClaim record ids .watcher answers

/-- A task that delivers no watcher: composed requests, schedules, questions and reports
name none. -/
def startTask (record : AgentTaskRecord) (cause : ContinuationCause) (check : Option Refusal) :
    Txn PUnit :=
  insertAgentTask { record with request := { record.request with watcherIds := some [] } } cause
    check

/-- Resume, Retry, handoff and graph repair: the request is the parent's. -/
def recoverTask (record : AgentTaskRecord) (parentId : String) (cause : ContinuationCause)
    (check : Option Refusal) : Txn PUnit := do
  let s ← Prog.get
  match s.tasks.get? parentId with
  | none => refuse (.keyError parentId)
  | some parent =>
      if !cause.recovers then
        refuse (.valueError "An agent task admission has an invalid continuation cause.")
      else
        insertAgentTask
          { record with
            parentOperationId := some parentId
            request := { record.request with watcherIds := parent.record.request.watcherIds } }
          cause check

end RcpGraph.Watchers
