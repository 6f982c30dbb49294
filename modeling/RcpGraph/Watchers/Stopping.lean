import RcpGraph.Watchers.Arming

/-!
Stops: by a human, by the agent of a thread, for a loop whose turn is over, for a closed
chat, and for want of an authorizer. Their guards differ; none touches who claimed a row.
-/

namespace RcpGraph.Watchers

open Crash

/-- The columns of a stop that keeps who stopped a row first, when and why. -/
def Watcher.stop (stoppedBy : StoppedBy) (reason : Option String) (now : String) (w : Watcher) :
    Watcher :=
  { w with
    status := .stopped, notified := true, nextCheckAt := none
    stoppedBy := w.stoppedBy.or (some stoppedBy)
    stopReason := w.stopReason.or reason
    stoppedAt := w.stoppedAt.or (some now) }

/-- `_stop_chat_watchers`. -/
def stopChatWatchers (projectId chatId now : String) : Txn PUnit :=
  updateWatchers
    (fun _ w => w.projectId = projectId && w.chatId = chatId && w.status.live &&
      w.notificationOperationId.isNone)
    (Watcher.stop .human none now)

/-- The refusals of a lone Stop watching, in the order they are looked for. -/
def observingProblem (rows : List (String × Watcher)) : Option Refusal :=
  let named (keeps : Watcher → Bool) : List String :=
    Text.sortedSet ((rows.filter fun r => keeps r.2).map Prod.fst)
  let conditions := named fun w =>
    w.graphCondition.isSome && w.continuation.patchKind = .experimentLoop
  let grouped := named fun w => w.groupId.isSome
  let settled := named fun w => w.status = .completed
  if !conditions.isEmpty then some (.valueError
    ("An Experiment graph condition is not an observed job to retire: " ++
      ", ".intercalate conditions ++ "."))
  else if !grouped.isEmpty then some (.valueError
    ("A grouped watcher is retired with its group, not on its own: " ++
      ", ".intercalate grouped ++ "."))
  else if !settled.isEmpty then some (.watcherClaimConflict
    ("A watcher finished before it could be stopped: " ++ ", ".intercalate settled ++ "."))
  else none

/-- What `stop_watchers` checks before it writes. -/
def stopProblems (s : Store) (projectId : String) (ids : List String) (observingOnly : Bool) :
    Option Refusal :=
  let rows := s.select ids fun _ => true
  match ids.find? fun id => id ∉ s.watchers with
  | some missing => some (.keyError missing)
  | none =>
      if rows.any fun r => r.2.projectId ≠ projectId then some (.keyError (ids.headD ""))
      else if rows.any fun r => r.2.notificationOperationId.isSome then
        some (.watcherClaimConflict "A watcher update was already claimed for delivery.")
      else
        let invalid := Text.sortedSet
          ((rows.filter fun r => r.2.notified && r.2.status ≠ .stopped).map Prod.fst)
        if !invalid.isEmpty then some (.valueError
          ("Watchers cannot be stopped: " ++ ", ".intercalate invalid ++ "."))
        else if observingOnly then observingProblem rows
        else none

/-- `stop_watchers`. -/
def stopWatchers (projectId : String) (watcherIds : List String) (observingOnly : Bool)
    (stoppedBy : StoppedBy) (now : String) : Txn PUnit := do
  if watcherIds.isEmpty then
    refuse (.valueError "stopping watchers requires at least one watcher id")
  else
    let s ← Prog.get
    pass (stopProblems s projectId watcherIds observingOnly)
    updateWatchers
      (fun id w => w.projectId = projectId && id ∈ watcherIds &&
        (if observingOnly then w.status.observing else w.status.live) &&
        w.notificationOperationId.isNone)
      (Watcher.stop stoppedBy none now)

/-- `request_auto_research_child_work_stop`. -/
def requestAutoResearchChildWorkStop (workerId : String) (known : Bool) (now : String) :
    Txn PUnit :=
  if !known then refuse (.keyError workerId)
  else
    updateWatchers
      (fun _ w => w.workerId = some workerId && w.status.live && !w.notified)
      (Watcher.stop .loop (some "Auto-research child Work stopped.") now)

/-- What `_settle_auto_research_watchers_in_connection` reads of the episode and its tasks. -/
structure AutoResearchEnding where
  fenced : Bool
  stoppedAt : String
  reason : String
  retainChildObservers : Bool
  /-- The rows of the episode, of its tasks and of its child Experiments. -/
  belongs : Watcher → Bool

/-- `_settle_auto_research_watchers_in_connection`. -/
def settleAutoResearchWatchers (ending : AutoResearchEnding) : Txn PUnit :=
  if !ending.fenced then
    refuse (.episodeNotRunning "the episode ending fence must be durable first")
  else
    updateWatchers
      (fun _ w => w.status.live && !(ending.retainChildObservers && w.workerId.isSome) &&
        ending.belongs w)
      (Watcher.stop .loop (some ending.reason) ending.stoppedAt)

/-- `settle_experiment_episode_wrapup`, once the ending is fenced and no turn is active:
only the rows the episode has consumed are retired. -/
def settleExperimentEpisodeWrapup (episodeId : String) (ready : Bool) (now : String) :
    Txn Bool := do
  if !ready then pure false
  else
    updateWatchers
      (fun _ w => w.episodeId = some episodeId && w.status.live && w.notified)
      (Watcher.stopForLoop now)
    pure true

/-- What `_settle_experiment_loop_stop` reads of the episode it settles. -/
structure LoopStop where
  projectId : String
  controlNodeId : String
  episodeId : String
  /-- Stop was requested and no turn is in flight. -/
  ready : Bool
  rootRequest : Bool
  /-- The episode is still the one a Stop would reach. -/
  stopAdopted : Bool
  /-- `_experiment_watcher_matches_current`. -/
  current : Watcher → Bool

/-- The live rows of the loop that its Stop retires. -/
def LoopStop.retires (stop : LoopStop) (w : Watcher) : Bool :=
  w.projectId = stop.projectId && w.continuation.patchKind = .experimentLoop &&
    w.continuation.controlNodeId = some stop.controlNodeId && w.status.live &&
    (w.episodeId = some stop.episodeId || (stop.stopAdopted && w.unclaimed)) &&
    stop.rootRequest && stop.current w

/-- The rows that a task of the episode has claimed, whatever their status. -/
def LoopStop.consumes (stop : LoopStop) (s : Store) (w : Watcher) : Bool :=
  w.projectId = stop.projectId &&
    match w.notificationOperationId.bind s.tasks.get? with
    | none => false
    | some task =>
        task.record.projectId = stop.projectId &&
          task.record.request.patchKind = some "experiment_loop" &&
          task.record.request.controlNodeId = some stop.controlNodeId &&
          task.record.request.controlEpisodeId = some stop.episodeId

/-- `_settle_experiment_loop_stop`. -/
def settleExperimentLoopStop (stop : LoopStop) (now : String) : Txn Bool := do
  if !stop.ready then pure false
  else
    let s ← Prog.get
    updateWatchers (fun _ w => stop.retires w || stop.consumes s w) (Watcher.stopForLoop now)
    pure true

/-- `detach_watchers_for_restore`, of texts that are trimmed already. -/
def detachWatchersForRestore (detail confirmer now : String) : Txn PUnit := do
  if detail = "" || confirmer = "" then
    refuse (.valueError "restored watcher detachment requires a reason and confirmer")
  else
    updateWatchers (fun _ _ => true) fun w => { w with cancelCommand := none }
    updateWatchers
      (fun _ w => w.status.observing || (w.status = .completed && !w.notified)) fun w =>
      { w with
        status := .stopped, notified := true, nextCheckAt := none
        stoppedBy := some .human
        stopReason := some (detail ++ " Restore confirmed by " ++ confirmer ++ ".")
        stoppedAt := w.stoppedAt.or (some now) }

/-- `_authorized_human_snapshot`: who authorized a task, unless the row is corrupt. -/
abbrev AuthorizerReader := Task → Option (Option AuthorizedHuman)

/-- Why no one can be named as the authorizer of a wake, or who it is. -/
def deliveryAuthorizer (read : AuthorizerReader) (origins : List (Option Task)) :
    Except String AuthorizedHuman :=
  if origins.any Option.isNone then .error
    "Automatic watcher wake stopped: an originating task is unavailable, so RCP cannot prove who authorized the wake. Start a new Work turn or Experiment Run to continue."
  else
    let snapshots := (origins.filterMap id).map read
    if snapshots.any Option.isNone then .error
      "Automatic watcher wake stopped: an originating task has an invalid human authorizer snapshot, so RCP cannot prove who authorized the wake. Start a new Work turn or Experiment Run to continue."
    else
      match snapshots.filterMap id with
      | some first :: rest =>
          if rest.any fun authorizer => authorizer.isNone then .error
            "Automatic watcher wake stopped: an originating task predates durable human attribution, so RCP cannot prove who authorized the wake. Start a new Work turn or Experiment Run to continue."
          else if rest.any fun authorizer => authorizer ≠ some first then .error
            "Automatic watcher wake stopped: the originating tasks have different human authorizers, so RCP cannot choose one. Start a new Work turn or Experiment Run to continue."
          else .ok first
      | _ => .error
          "Automatic watcher wake stopped: an originating task predates durable human attribution, so RCP cannot prove who authorized the wake. Start a new Work turn or Experiment Run to continue."

/-- The rows that can be handed over: settled or long unobservable, and not claimed. -/
def Watcher.deliverable (w : Watcher) : Bool := w.status.ready && w.unclaimed

/-- `resolve_watcher_delivery_authorizer`: who authorizes a wake, or its end. -/
def resolveWatcherDeliveryAuthorizer (read : AuthorizerReader) (watcherIds : List String)
    (members : Option Refusal) (now : String) : Txn (Option AuthorizedHuman × Option String) := do
  if watcherIds.isEmpty || ¬ watcherIds.Nodup then
    refuse (.valueError "watcher delivery authorization requires unique watcher ids")
  else
    let s ← Prog.get
    let rows := s.select watcherIds Watcher.deliverable
    if watcherIds.any fun id => id ∉ rows.map Prod.fst then pure (none, none)
    else
      pass members
      let origins := Text.sortedSet (rows.map fun r => r.2.originOperationId)
      match deliveryAuthorizer read (origins.map s.tasks.get?) with
      | .ok human => pure (some human, none)
      | .error diagnostic =>
          updateWatchers (fun id w => id ∈ watcherIds && w.deliverable) fun w =>
            { w with
              status := .stopped, notified := true, nextCheckAt := none
              stoppedBy := some .loop, stopReason := some diagnostic
              stoppedAt := w.stoppedAt.or (some now) }
          pure (none, some diagnostic)

end RcpGraph.Watchers
