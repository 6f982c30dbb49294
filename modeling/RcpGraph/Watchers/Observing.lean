import RcpGraph.Watchers.Records

/-!
What is recorded of an observation while a watcher waits: check results, which may come
late, the claims and settlements of Cancel, and the results of graph conditions at the
accepted boundaries of their target.
-/

namespace RcpGraph.Watchers

open Crash

/-- What a check of an observed job finds. -/
inductive CheckState where
  | active
  | complete
  | error
  deriving DecidableEq, Repr

def CheckState.status : CheckState → WatcherStatus
  | .active => .active
  | .complete => .completed
  | .error => .degraded

/-- `record_watcher_check`. With `includeStopped` a stopped row takes a late result and
stays stopped. -/
def recordWatcherCheck (backoff : String → String → Nat → String) (watcherId : String)
    (status : WatcherStatus) (exitCode : Option Int) (error : Option String) (now : String)
    (includeStopped : Bool) : Txn PUnit := do
  if status = .degraded && (error.filter (· ≠ "")).isNone then
    refuse (.valueError "a degraded watcher requires a check error")
  else
    let s ← Prog.get
    match s.watchers.get? watcherId with
    | none => refuse (.keyError watcherId)
    | some current =>
        if current.graphCondition.isSome then
          refuse (.valueError "a graph condition cannot receive a shell check result")
        else
          let stopped := includeStopped && current.status = .stopped
          if !stopped && (!current.status.observing || current.notified) then pure ⟨⟩
          else
            let errors := if status = .degraded then current.consecutiveErrorCount + 1 else 0
            changeWatcher watcherId fun w =>
              { w with
                status := if stopped then .stopped else status
                lastCheckedAt := some now
                lastExitCode := exitCode
                lastError := if status = .degraded then error else none
                nextCheckAt :=
                  if !stopped && status.observing then some (backoff watcherId now errors) else none
                consecutiveErrorCount := errors
                completedAt :=
                  if status = .completed then w.completedAt.or (some now) else w.completedAt }

/-- `claim_watcher_cancel`: whether the action was claimed. -/
def claimWatcherCancel (projectId watcherId requestedBy now : String) : Txn Bool := do
  if Text.strip requestedBy = "" then
    refuse (.valueError "Cancellation requires an attributed human.")
  else
    let s ← Prog.get
    match (s.watchers.get? watcherId).filter fun w => w.projectId = projectId with
    | none => refuse (.keyError watcherId)
    | some current =>
        if current.graphCondition.isSome || !current.cancelCommand.any (· ≠ "") then
          refuse (.valueError "This watcher has no cancel command.")
        else if !current.canCancel then pure false
        else
          changeWatcher watcherId fun w =>
            { w with
              cancelRequestedBy := some requestedBy
              cancelRequestedAt := some now
              cancelError := none }
          pure true

/-- `record_watcher_cancel_result`. -/
def recordWatcherCancelResult (watcherId : String) (requestedAt error : Option String) :
    Txn PUnit :=
  updateWatchers (fun id w => id = watcherId && w.cancelRequestedAt = requestedAt) fun w =>
    { w with cancelError := error }

/-- `complete_watcher_cancel`: the observation is settled, whoever has taken its result. -/
def completeWatcherCancel (watcherId requestedAt : String) (cancelPerformed : Bool)
    (now : String) : Txn PUnit :=
  updateWatchers (fun id w => id = watcherId && w.cancelRequestedAt = some requestedAt) fun w =>
    { w with
      status := if w.status = .stopped then .stopped else .completed
      completedAt := w.completedAt.or (some now)
      lastCheckedAt := some now
      lastExitCode := some 0
      lastError := none
      nextCheckAt := none
      consecutiveErrorCount := 0
      cancelError := none
      cancelRequestedBy := if cancelPerformed then w.cancelRequestedBy else none
      cancelRequestedAt := if cancelPerformed then w.cancelRequestedAt else none }

/-- `record_watcher_wake_error`: why a completed watcher has not woken its chat yet. -/
def recordWatcherWakeError (watcherIds : List String) (reason : String) : Txn PUnit :=
  updateWatchers (fun id w => id ∈ watcherIds && w.status = .completed && !w.notified) fun w =>
    { w with lastError := some reason }

/-- What a graph condition is found to be at a boundary. -/
inductive GraphResult where
  | active
  | completed
  | removed
  deriving DecidableEq, Repr

/-- A graph condition that still waits: the guard of every write of a graph result. -/
def Watcher.awaits (w : Watcher) : Bool :=
  w.graphCondition.isSome && w.status = .active && !w.notified

/-- The columns of `_record_graph_watcher_result_locked`. -/
def Watcher.settleGraph (now : String) (result : GraphResult) (w : Watcher) : Watcher :=
  match result with
  | .active => { w with lastCheckedAt := some now }
  | .completed =>
      { w with
        status := .completed, lastCheckedAt := some now, completedAt := some now
        nextCheckAt := none }
  | .removed =>
      { w with
        status := .stopped, notified := true, lastCheckedAt := some now, nextCheckAt := none
        stoppedBy := some .loop, stopReason := some "Graph condition target was removed."
        stoppedAt := some now }

/-- `record_graph_watcher_result`. -/
def recordGraphWatcherResult (watcherId : String) (result : GraphResult) (now : String) :
    Txn PUnit := do
  let s ← Prog.get
  match s.watchers.get? watcherId with
  | none => refuse (.keyError watcherId)
  | some current =>
      if current.graphCondition.isNone then
        refuse (.valueError "an external watcher cannot receive a graph evaluation")
      else
        updateWatchers (fun id w => id = watcherId && w.awaits) (Watcher.settleGraph now result)

/-- `initialize_graph_watcher_baseline`. -/
def initializeGraphWatcherBaseline (watcherId : String) (armedRevision : Nat) (now : String) :
    Txn PUnit :=
  updateWatchers (fun id w => id = watcherId && w.awaits && w.armedRevision.isNone) fun w =>
    { w with armedRevision := some armedRevision, lastCheckedAt := some now }

/-- `initialize_graph_watcher_target_baselines`. -/
def initializeGraphWatcherTargetBaselines (projectId : String) (target : GraphTargetRef)
    (armedRevision : Nat) (now : String) : Txn PUnit :=
  updateWatchers
    (fun _ w => w.projectId = projectId && w.graphTarget = target && w.awaits &&
      w.armedRevision.isNone)
    fun w => { w with armedRevision := some armedRevision, lastCheckedAt := some now }

/-- A boundary is evaluated for the conditions of its target that were armed before it. -/
def Watcher.observes (projectId : String) (head : GraphHeadRef) (w : Watcher) : Bool :=
  w.projectId = projectId && w.graphTarget = head.target && w.awaits &&
    w.armedRevision.any (· < head.revision)

/-- What the stored head says about a boundary: it is new, known, or contradicts it. -/
def alreadyConsumed (s : Store) (projectId : String) (head : GraphHeadRef) :
    Except Refusal Bool :=
  match s.consumed.get? (projectId, head.target) with
  | none => .ok false
  | some stored =>
      if stored.revision > head.revision then .ok true
      else if stored.revision = head.revision then
        if stored.transitionId ≠ head.transitionId then
          .error (.runtimeError "Accepted graph boundary changed identity at a consumed revision.")
        else .ok true
      else .ok false

/-- `consume_graph_watcher_boundary`: whether the boundary was new. -/
def consumeGraphWatcherBoundary (projectId : String) (head : GraphHeadRef)
    (evaluate : Watcher → GraphResult) (now : String) : Txn Bool := do
  let s ← Prog.get
  match alreadyConsumed s projectId head with
  | .error e => refuse e
  | .ok true => pure false
  | .ok false =>
      updateWatchers (fun _ w => w.observes projectId head) fun w =>
        w.settleGraph now (evaluate w)
      Prog.modify fun s => { s with consumed := s.consumed.insert (projectId, head.target) head }
      pure true

end RcpGraph.Watchers
