import RcpGraph.Episodes.Questions

/-!
The transactions that end an episode: Stop, the ending fence, the wrap-up and the two
ways to end without a report.
-/

namespace RcpGraph.Episodes

open Crash

/-- An episode that has not come to its wrap-up. -/
def EpisodeStatus.stoppable : EpisodeStatus → Bool
  | .queued | .running | .stopping => true
  | .wrappingUp | .needsAction | .completed | .stopped | .failed => false

/-- An episode that a non-Stop ending can settle. -/
def EpisodeStatus.endable : EpisodeStatus → Bool
  | .queued | .running | .wrappingUp => true
  | .stopping | .needsAction | .completed | .stopped | .failed => false

/-- `request_episode_stop`. -/
def requestEpisodeStop (episodeId : String) (initiatedBy : Option String) (now : String) :
    Txn PUnit := do
  let episode ← readEpisode episodeId
  if episode.ending = some .stopped ∧ episode.wrapupState = .skipped then pure ⟨⟩
  else if episode.status.stoppable = false then
    refuse (.episodeNotRunning "the episode can no longer be stopped before wrap-up")
  else do
    let s ← Prog.get
    if episodeId ∈ s.wrapups then
      refuse (.episodeNotRunning "the episode has already entered wrap-up")
    else if episode.stopRequestedAt.isSome then pure ⟨⟩
    else do
      withdrawEpisodeQuestionChain episodeId
      writeEpisode episodeId { episode with
        status := .stopping
        stopRequestedAt := some now
        stopInitiatedBy := initiatedBy
        updatedAt := now }

/-- `fence_episode_ending`. -/
def fenceEpisodeEnding (episodeId : String) (ending : EpisodeEnding) (diagnostic : Option String)
    (now : String) : Txn PUnit :=
  if ending = .stopped then
    refuse (.valueError "Stop uses its dedicated graceful settlement path.")
  else do
    let episode ← readEpisode episodeId
    if episode.ending.isSome then
      if episode.ending ≠ some ending ∨ episode.endingDiagnostic ≠ diagnostic then
        refuse (.episodeReportConflict "the episode ending fence is immutable")
      else pure ⟨⟩
    else if episode.stopRequestedAt.isSome ∨ episode.status = .stopping then
      refuse (.episodeNotRunning "Stop already fenced this episode")
    else if ¬ (episode.status = .queued ∨ episode.status = .running) then
      refuse (.episodeNotRunning "the episode can no longer accept an ending fence")
    else
      writeEpisode episodeId { episode with
        status := .wrappingUp
        ending := some ending
        endingDiagnostic := diagnostic
        updatedAt := now }

/-- The fields of the restart fence that are empty, by name. -/
def EpisodeWrapupRecord.missing (wrapup : EpisodeWrapupRecord) : List String :=
  ([("allocation_operation_id", wrapup.allocationOperationId), ("machine_id", wrapup.machineId),
    ("native_session_id", wrapup.nativeSessionId), ("output_name", wrapup.outputName),
    ("output_path", wrapup.outputPath), ("provider", wrapup.provider),
    ("skill_id", wrapup.skillId), ("skill_version", wrapup.skillVersion),
    ("stage_root", wrapup.stageRoot)].filter
      fun field => field.2.all fun value => value = "").map Prod.fst

/-- `_validate_new_wrapup`. -/
def validateNewWrapup (episodeId : String) (wrapup : EpisodeWrapupRecord) (task : AgentTaskRecord) :
    Option Refusal :=
  if wrapup.episodeId ≠ episodeId ∨ wrapup.ending = some .stopped then
    some (.valueError "a report wrap-up must name its non-Stop episode ending")
  else if wrapup.state ≠ .pending ∨ wrapup.finishedAt ≠ none then
    some (.valueError "a new report wrap-up must begin pending")
  else if wrapup.missing ≠ [] then
    some (.valueError
      ("episode wrap-up restart fence is incomplete: " ++ Text.join ", " wrapup.missing))
  else if task.kind ≠ .episodeReport ∨ task.visible ∨
      some task.operationId ≠ wrapup.allocationOperationId ∨
      wrapup.concludingOperationId = none ∨
      task.parentOperationId ≠ wrapup.concludingOperationId ∨
      task.nativeSessionId ≠ wrapup.nativeSessionId ∨
      task.stageMachineId.getD "" ≠ wrapup.stageMachineId.getD "" ∨
      task.stageRoot ≠ wrapup.stageRoot ∨ task.episodeId ≠ some episodeId then
    some (.valueError "the hidden report task does not match its wrap-up restart fence")
  else if task.request.provider ≠ wrapup.provider then
    some (.valueError "the hidden report task changed its frozen provider")
  else if task.request.runOn ≠ wrapup.machineId then
    some (.valueError "the hidden report task changed its frozen machine")
  else none

/-- `_wrapup_fence_matches`. -/
def wrapupFenceMatches (stored requested : EpisodeWrapupRecord) : Bool :=
  stored.episodeId = requested.episodeId && stored.ending = requested.ending &&
    stored.partialReport = requested.partialReport &&
    stored.concludingOperationId = requested.concludingOperationId &&
    stored.provider = requested.provider && stored.machineId = requested.machineId &&
    stored.nativeSessionId = requested.nativeSessionId &&
    stored.stageMachineId = requested.stageMachineId &&
    stored.stageRoot = requested.stageRoot && stored.skillId = requested.skillId &&
    stored.skillVersion = requested.skillVersion &&
    stored.outputName = requested.outputName && stored.outputPath = requested.outputPath &&
    stored.receiptJson = requested.receiptJson &&
    stored.receiptSha256 = requested.receiptSha256 && stored.createdAt = requested.createdAt

/-- The wrap-up continues a visible task of the episode. -/
def Store.concludes (s : Store) (episodeId : String) (wrapup : EpisodeWrapupRecord) : Bool :=
  wrapup.concludingOperationId.all fun operationId =>
    (s.tasks.get? operationId).any fun task =>
      task.episodeId = some episodeId && task.visible && task.kind ≠ .episodeReport

/-- `_insert_episode_wrapup`. -/
def insertEpisodeWrapup (wrapup : EpisodeWrapupRecord) : Txn PUnit := do
  let s ← Prog.get
  if wrapup.episodeId ∈ s.wrapups then refuse .integrityError
  else do
    Prog.modify fun s => { s with wrapups := s.wrapups.insert wrapup.episodeId wrapup }
    if wrapup.ending = some .stopped then withdrawEpisodeQuestionChain wrapup.episodeId
    else pure ⟨⟩

/-- `begin_episode_wrapup`. -/
def beginEpisodeWrapup (episodeId : String) (wrapup : EpisodeWrapupRecord)
    (allocation : AgentTaskRecord) (insertion : Option Refusal) (now : String) : Txn PUnit := do
  pass (validateNewWrapup episodeId wrapup allocation)
  let episode ← readEpisode episodeId
  if episode.status.endable = false then
    refuse (.episodeNotRunning "the episode cannot begin report generation")
  else if allocation.projectId ≠ episode.projectId then
    refuse (.valueError "the report allocation belongs to a different project")
  else do
    let s ← Prog.get
    match s.wrapups.get? episodeId with
    | some stored =>
        if wrapupFenceMatches stored wrapup = false then
          refuse (.episodeReportConflict "the episode wrap-up restart fence is immutable")
        else pure ⟨⟩
    | none =>
        if episode.ending.isSome ∧
            (episode.ending ≠ wrapup.ending ∨ episode.endingDiagnostic ≠ wrapup.diagnostic) then
          refuse (.episodeReportConflict "the episode already has a different semantic ending")
        else if s.concludes episodeId wrapup = false then
          refuse (.valueError "the report continuation is not a visible task of this episode")
        else do
          insertAgentTask allocation insertion
          insertEpisodeWrapup wrapup
          writeEpisode episodeId { episode with
            status := .wrappingUp
            ending := wrapup.ending
            endingDiagnostic := wrapup.diagnostic
            wrapupState := .pending
            wrapupError := none
            updatedAt := now }

/-- `end_episode_without_report`. -/
def endEpisodeWithoutReport (episodeId : String) (ending : EpisodeEnding)
    (diagnostic : Option String) (now : String) : Txn PUnit :=
  if ending = .stopped then refuse (.valueError "Stop settles through its own skip path.")
  else do
    let episode ← readEpisode episodeId
    let s ← Prog.get
    if episodeId ∈ s.wrapups then
      refuse (.episodeReportConflict "the episode already has a report wrap-up")
    else if episode.ending.isSome ∧
        (episode.ending ≠ some ending ∨ episode.endingDiagnostic ≠ diagnostic) then
      refuse (.episodeReportConflict "the episode ending fence is immutable")
    else if episode.stopRequestedAt.isSome ∨ episode.status = .stopping then
      refuse (.episodeNotRunning "Stop already fenced this episode")
    else if episode.status = statusForEnding ending then pure ⟨⟩
    else if episode.status.endable = false then
      refuse (.episodeNotRunning "the episode can no longer accept an ending fence")
    else
      writeEpisode episodeId { episode with
        status := statusForEnding ending
        ending := some ending
        endingDiagnostic := diagnostic
        wrapupState := .notStarted
        wrapupError := none
        updatedAt := now
        endedAt := episode.endedAt.orElse fun _ => some now }

/-- `fail_episode_wrapup_unlaunchable`. Its `wrapup` names the ending; the episode's own is not
compared with it. -/
def failEpisodeWrapupUnlaunchable (episodeId : String) (wrapup : EpisodeWrapupRecord)
    (endingDiagnostic : Option String) (now : String) : Txn PUnit :=
  if wrapup.episodeId ≠ episodeId ∨ wrapup.ending = some .stopped ∨ wrapup.state ≠ .failed ∨
      wrapup.allocationOperationId ≠ none ∨ (wrapup.diagnostic.all fun text => text = "") ∨
      wrapup.finishedAt = none then
    refuse (.valueError "an unlaunchable wrap-up requires its ending and final diagnostic")
  else
    match wrapup.ending with
    | none => refuse (.valueError "an unlaunchable wrap-up requires its ending and final diagnostic")
    | some ending => do
        let episode ← readEpisode episodeId
        let s ← Prog.get
        match s.wrapups.get? episodeId with
        | some stored =>
            if stored ≠ wrapup then
              refuse (.episodeReportConflict "the episode wrap-up restart fence is immutable")
            else pure ⟨⟩
        | none =>
            if episode.stopRequestedAt.isSome ∨ episode.ending = some .stopped then
              refuse (.episodeNotRunning "Stop already fenced this episode")
            else if episode.status.endable = false then
              refuse (.episodeNotRunning "the episode has already ended")
            else if s.concludes episodeId wrapup = false then
              refuse (.valueError "the report continuation is not a visible task of this episode")
            else do
              insertEpisodeWrapup wrapup
              writeEpisode episodeId { episode with
                status := statusForEnding ending
                ending := some ending
                endingDiagnostic := endingDiagnostic
                wrapupState := .failed
                wrapupError := wrapup.diagnostic
                updatedAt := now
                endedAt := episode.endedAt.orElse fun _ => some now }

/-- The wrap-up of a Stop. `receipt` is the compact receipt and its digest. -/
def stopWrapup (episodeId : String) (concluding diagnostic : Option String)
    (receipt : String × String) (now : String) : EpisodeWrapupRecord where
  episodeId := episodeId
  ending := some .stopped
  partialReport := true
  concludingOperationId := concluding
  allocationOperationId := none
  provider := none
  machineId := none
  nativeSessionId := none
  stageMachineId := none
  stageRoot := none
  skillId := none
  skillVersion := none
  outputName := none
  outputPath := none
  receiptJson := receipt.1
  receiptSha256 := receipt.2
  state := .skipped
  diagnostic := diagnostic
  createdAt := now
  updatedAt := now
  finishedAt := some now
  skipped_iff := by decide
  ending_isSome := by decide

/-- The row with the greatest number. -/
def latestInvocation : List EpisodeInvocation → Option EpisodeInvocation
  | [] => none
  | row :: rows =>
      match latestInvocation rows with
      | none => some row
      | some latest => if latest.invocationNumber < row.invocationNumber then some row else some latest

def Store.lastInvocation (s : Store) (episodeId : String) : Option String :=
  (latestInvocation (s.invocationsOf episodeId)).map (·.operationId)

/-- `mark_episode_stop_skipped`. -/
def markEpisodeStopSkipped (compactEpisodeReceipt : Option String → String → String × String)
    (episodeId : String) (diagnostic : Option String) (now : String) : Txn PUnit := do
  let episode ← readEpisode episodeId
  if episode.ending = some .stopped ∧ episode.wrapupState = .skipped then pure ⟨⟩
  else do
    let s ← Prog.get
    if episodeId ∈ s.wrapups then
      refuse (.episodeNotRunning "report generation has already begun")
    else if episode.status.stoppable = false then
      refuse (.episodeNotRunning "the episode has already ended")
    else do
      insertEpisodeWrapup (stopWrapup episodeId (s.lastInvocation episodeId) diagnostic
        (compactEpisodeReceipt diagnostic episodeId) now)
      withdrawEpisodeQuestionChain episodeId
      writeEpisode episodeId { episode with
        status := .stopped
        stopRequestedAt := episode.stopRequestedAt.orElse fun _ => some now
        stopSettledAt := episode.stopSettledAt.orElse fun _ => some now
        ending := some .stopped
        endingDiagnostic := diagnostic
        wrapupState := .skipped
        wrapupError := none
        updatedAt := now
        endedAt := episode.endedAt.orElse fun _ => some now }

end RcpGraph.Episodes
