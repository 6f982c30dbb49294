import RcpGraph.Episodes.Endings

/-!
The admissions of Experiment turns and of chat follow-ups: the Run that creates an
episode or continues one, the watcher wake, the question wake, the recovery of a paid
turn, and the follow-up of a chat answer.
-/

namespace RcpGraph.Episodes

open Crash

/-- `_claim_experiment_watchers`. -/
def claimExperimentWatchers (operationId : String) (ids : List String) : Txn PUnit := do
  let s ← Prog.get
  if ids.all fun id => (s.watchers.get? id).any fun w => w.ready && !w.notified then
    Prog.modify fun s => { s with watchers := s.watchers.map fun id w =>
      if id ∈ ids then { w with notified := true, notificationOperationId := some operationId }
      else w }
  else refuse (.runtimeError "Experiment watcher claim changed during its transaction")

/-- `_validate_experiment_watcher_ids`. -/
def validateExperimentWatcherIds (record : AgentTaskRecord) (ids : List String) : Option Refusal :=
  if ¬ ids.Nodup then
    some (.valueError "an Experiment watcher claim requires unique watcher ids")
  else if record.request.watcherIds.all fun requested =>
      requested.length ≠ ids.length || !(requested.all (· ∈ ids)) || !(ids.all (· ∈ requested)) then
    some (.valueError "the Experiment task must name exactly its watcher ids")
  else none

/-- `_ready_experiment_watchers`, with what it asks about their bindings. -/
def readyExperimentWatchers (s : Store) (ids : List String) (bindings : Option Refusal) :
    Option Refusal :=
  if ids = [] then none
  else if ids.all fun id => (s.watchers.get? id).any fun w => w.ready && !w.notified then bindings
  else some (.valueError "watchers are missing, unready, or already notified")

/-- `_experiment_question_binding_matches`. -/
def experimentQuestionBindingMatches (record : AgentTaskRecord) (origin : QuestionOrigin)
    (original : AgentTaskRecord) : Bool :=
  record.projectId = origin.projectId && record.nativeSessionId = some origin.nativeSessionId &&
    record.request.provider = some origin.provider &&
    record.stageRoot = some origin.stageRoot &&
    record.stageMachineId.getD "" = origin.stageMachineId.getD "" &&
    record.graphTarget = origin.graphTarget &&
    (original.dispatchAuthority.any fun authority =>
      authority.taskContract = origin.capability) &&
    original.request.mode = some "work" &&
    record.request.provider = original.request.provider &&
    record.request.runOn = original.request.runOn &&
    record.request.runTruthScope = original.request.runTruthScope &&
    record.request.mode = original.request.mode

/-- The asking turn of a question, when it is over and its binding is the record's. -/
def Store.askedUnder (s : Store) (record : AgentTaskRecord) (q : Question) : Bool :=
  (s.tasks.get? q.origin.operationId).any fun asking =>
    (asking.status = .succeeded || asking.status = .failed) &&
      experimentQuestionBindingMatches record q.origin asking

/-- An answer that no delivery is recorded for. -/
def Question.undelivered (q : Question) : Bool :=
  q.state = .answered && q.clientReceiptRevision = none && q.followupOperationId = none

/-- `QUESTION_SNAPSHOT_MAX_RECORDS`. -/
def questionSnapshotMaxRecords : Nat := 32

/-- The order of the claims of a continuation: by creation, then by id. -/
def claimsBefore (a b : String × Question) : Bool :=
  a.2.createdAt < b.2.createdAt || (a.2.createdAt = b.2.createdAt && a.1 ≤ b.1)

/-- The answers a continuation's first turn carries, with their ids. -/
def Store.claimableBy (s : Store) (record : AgentTaskRecord) (source : String) :
    List (String × Question) :=
  ((s.questions.entries.filter fun row =>
    s.ownedByChain source row.2 && row.2.undelivered && s.askedUnder record row.2).mergeSort
      claimsBefore).take questionSnapshotMaxRecords

def claimQuestionFollowups (operationId now : String) : List (String × Question) → Txn PUnit
  | [] => pure ⟨⟩
  | row :: rows => do
      let _ ← claimQuestionFollowup row.1 row.2.answerRevision operationId now
      claimQuestionFollowups operationId now rows

/-- The cards of the continued chain become answerable again; an answer whose asking turn does
not bind the record is withdrawn, and the others are claimed. -/
def reopenChainQuestions (record : AgentTaskRecord) (source now : String) : Txn PUnit := do
  let s ← Prog.get
  Prog.modify fun t => (t.setWithdrawn (s.ownedByChain source) false).setWithdrawn
    (fun q => s.ownedByChain source q && q.undelivered && !(s.askedUnder record q)) true
  claimQuestionFollowups record.operationId now (s.claimableBy record source)

/-- The arguments of a Run, with what the tables that are not modelled answer. -/
structure ExperimentRun where
  record : AgentTaskRecord
  watcherIds : List String
  /-- An Auto-research orchestrator starts the episode. -/
  routed : Bool
  continuesEpisodeId : Option String
  graphBaseHead : Option GraphHeadRef
  /-- The graph branch, the route and the isolation the Run names. -/
  placement : Option Refusal
  projectAccepts : Option Refusal
  bindings : Option Refusal
  notificationScope : Option Refusal
  merging : Bool
  activation : Option Refusal
  binding : Option Refusal
  insertion : Option Refusal
  allowance : Option Refusal
  now : String

def ExperimentRun.trigger (r : ExperimentRun) : String :=
  if r.routed then "orchestrator" else "experiment_run"

/-- `_new_experiment_episode`. -/
def ExperimentRun.newEpisode (r : ExperimentRun) : Except Refusal EpisodeRecord :=
  let request := r.record.request
  match request.controlEpisodeId, request.controlNodeId, request.controlInvocationCeiling with
  | some episodeId, some controlNodeId, some ceiling =>
      if r.record.status ≠ .queued ∨ r.record.visible = false ∨ r.record.kind ≠ .nodeChat ∨
          r.record.parentOperationId ≠ none ∨ request.patchKind ≠ some "experiment_loop" ∨
          request.trigger ≠ some r.trigger ∨
          request.controlInvocation ≠ some 1 ∨ r.record.episodeId ≠ some episodeId ∨
          controlNodeId = "" ∨ request.nodeId ≠ some controlNodeId ∨ ceiling < 1 then
        .error (.valueError "An Experiment Run must be its episode's queued invocation 1.")
      else if r.record.authorizedBy = none then
        .error (.valueError "A new Experiment episode requires its human authorization snapshot.")
      else
        .ok {
          episodeId
          projectId := r.record.projectId
          mode := .experimentLoop
          controlNodeId := some controlNodeId
          graphTarget := r.record.graphTarget
          graphBaseHead := r.graphBaseHead
          rootOperationId := none
          status := .queued
          invocationCeiling := ceiling
          invocationsUsed := 0
          authorizedBy := r.record.authorizedBy
          stopRequestedAt := none
          stopInitiatedBy := none
          stopSettledAt := none
          ending := none
          endingDiagnostic := none
          wrapupState := .notStarted
          wrapupError := none
          createdAt := r.record.createdAt
          updatedAt := r.record.createdAt
          endedAt := none
          continuesEpisodeId := r.continuesEpisodeId }
  | _, _, _ => .error (.valueError "An Experiment Run must be its episode's queued invocation 1.")

/-- `_live_episode_row`, for an Experiment. -/
def Store.hasLiveEpisode (s : Store) (episode : EpisodeRecord) : Bool :=
  s.episodes.values.any fun e =>
    e.projectId = episode.projectId && e.mode = .experimentLoop &&
      e.controlNodeId = episode.controlNodeId && e.graphTarget = episode.graphTarget &&
      e.status.live

/-- `_require_continuable_source`, with the Experiment's own two checks before it. -/
def Store.continuable (s : Store) (merging : Bool) (sourceId : String) (episode : EpisodeRecord) :
    Option Refusal :=
  match s.episodes.get? sourceId with
  | none => some (.valueError "The continued Experiment episode no longer exists.")
  | some source =>
      if source.mode ≠ .experimentLoop ∨ source.controlNodeId ≠ episode.controlNodeId then
        some (.valueError "a continuation controls the same Experiment as its source")
      else if source.projectId ≠ episode.projectId then
        some (.valueError "a continuation stays in its source's project")
      else if source.status.live then some (.valueError "only an ended episode can be continued")
      else if source.graphTarget ≠ episode.graphTarget ∨
          source.graphBaseHead ≠ episode.graphBaseHead then
        some (.valueError "a continuation keeps its source's graph branch and base head")
      else if s.episodes.values.any fun e => e.continuesEpisodeId = some sourceId then
        some (.valueError "this episode has already been continued")
      else if s.tasks.values.any fun task =>
          task.episodeId = some sourceId && task.status.active then
        some (.valueError "the episode still has a live turn")
      else if merging then some (.valueError "the graph branch is being merged")
      else none

/-- The checks of a Run on the store it meets, in the order of the source. -/
def ExperimentRun.checks (r : ExperimentRun) (s : Store) (episode : EpisodeRecord) :
    List (Option Refusal) :=
  [r.placement, validateExperimentWatcherIds r.record r.watcherIds, r.projectAccepts,
    if episode.episodeId ∈ s.episodes then
      some (.valueError "This Experiment episode id is already in use.") else none,
    if s.hasLiveEpisode episode then
      some (.valueError "This Experiment already has a live episode.") else none,
    r.continuesEpisodeId.bind fun source => s.continuable r.merging source episode,
    readyExperimentWatchers s r.watcherIds r.bindings, r.notificationScope, r.activation, r.binding]

/-- The cards a continuation makes answerable, and the answers it claims. -/
def ExperimentRun.continueQuestions (r : ExperimentRun) (episodeId : String) : Txn PUnit :=
  match r.continuesEpisodeId with
  | none => pure ⟨⟩
  | some source => do
      setEpisodeChainQuestionsWithdrawn episodeId false
      reopenChainQuestions r.record source r.now

/-- `create_experiment_episode_with_invocation`. -/
def createExperimentEpisodeWithInvocation (r : ExperimentRun) : Txn PUnit :=
  match r.newEpisode with
  | .error e => refuse e
  | .ok episode => do
      let s ← Prog.get
      pass ((r.checks s episode).findSome? id)
      writeEpisode episode.episodeId { episode with
        rootOperationId := some r.record.operationId
        status := .running
        invocationsUsed := 1
        updatedAt := r.record.createdAt }
      r.continueQuestions episode.episodeId
      insertAgentTask r.record r.insertion
      pass r.allowance
      insertInvocation ⟨episode.episodeId, r.record.operationId, 1, r.record.createdAt⟩
      claimExperimentWatchers r.record.operationId r.watcherIds

/-- The arguments of a watcher wake. -/
structure WatcherWake where
  record : AgentTaskRecord
  watcherIds : List String
  autoResearchEpisodeId : Option String
  bindings : Option Refusal
  /-- `_experiment_has_ending_receipt`. -/
  endingReceipt : Bool
  wakeScope : Option Refusal
  /-- The Auto-research episode the Experiment runs for. -/
  routedParentId : Option String
  insertion : Option Refusal
  allowance : Option Refusal
  now : String

/-- The row and the count of one more paid invocation. -/
def addInvocation (episodeId : String) (episode : EpisodeRecord) (record : AgentTaskRecord)
    (now : String) : Txn PUnit := do
  insertInvocation ⟨episodeId, record.operationId, episode.invocationsUsed + 1, record.createdAt⟩
  writeEpisode episodeId { episode with
    invocationsUsed := episode.invocationsUsed + 1
    updatedAt := now }

/-- The episode admits no new paid turn. -/
def EpisodeRecord.closed (episode : EpisodeRecord) (endingReceipt : Bool) : Prop :=
  episode.status ≠ .running ∨ episode.ending ≠ none ∨ episode.stopRequestedAt ≠ none ∨
    endingReceipt = true

instance (episode : EpisodeRecord) (endingReceipt : Bool) :
    Decidable (episode.closed endingReceipt) :=
  inferInstanceAs (Decidable (_ ∨ _))

/-- `create_experiment_watcher_invocation`; `none` when the wake is not admitted. -/
def createExperimentWatcherInvocation (w : WatcherWake) : Txn (Option String) :=
  let record := w.record
  match record.episodeId with
  | none => refuse (.valueError "An Experiment watcher wake must be a queued paid root task.")
  | some episodeId =>
      if record.status ≠ .queued ∨ record.visible = false ∨ record.parentOperationId ≠ none ∨
          record.request.patchKind ≠ some "experiment_loop" ∨
          record.request.trigger ≠ some "watcher" ∨
          record.request.controlEpisodeId ≠ some episodeId then
        refuse (.valueError "An Experiment watcher wake must be a queued paid root task.")
      else do
        pass (validateExperimentWatcherIds record w.watcherIds)
        let s ← Prog.get
        pass (readyExperimentWatchers s w.watcherIds w.bindings)
        let episode ← readEpisode episodeId
        if episode.mode ≠ .experimentLoop ∨ episode.projectId ≠ record.projectId ∨
            episode.controlNodeId ≠ record.request.controlNodeId ∨
            episode.graphTarget ≠ record.graphTarget then
          refuse (.valueError "The watcher wake belongs to another episode.")
        else if episode.closed w.endingReceipt then pure none
        else if episode.invocationCeiling ≤ episode.invocationsUsed then
          refuse (.episodeInvocationCeilingReached
            "the episode has spent its operational invocation ceiling")
        else if record.request.controlInvocation ≠ some (episode.invocationsUsed + 1) then
          refuse (.valueError ("Experiment-loop invocation is out of sequence; expected " ++
            toString (episode.invocationsUsed + 1) ++ "."))
        else do
          pass w.wakeScope
          if hasActiveChatOverlap s record then pure none
          else if w.autoResearchEpisodeId ≠ none ∧ w.routedParentId ≠ w.autoResearchEpisodeId then
            refuse (.valueError
              "the Experiment watcher wake does not match its Auto-research route")
          else do
            insertAgentTask record w.insertion
            pass w.allowance
            addInvocation episodeId episode record w.now
            claimExperimentWatchers record.operationId w.watcherIds
            pure (some record.operationId)

/-- `experiment_question_owner_ids`. -/
def experimentQuestionOwnerIds : List EpisodeRecord → Option String → List String
  | _, none => []
  | [], some _ => []
  | e :: older, some id =>
      if e.episodeId = id then
        if e.mode = .experimentLoop then
          id :: experimentQuestionOwnerIds older e.continuesEpisodeId
        else []
      else experimentQuestionOwnerIds older (some id)

/-- The arguments of a question wake. -/
structure QuestionWake where
  record : AgentTaskRecord
  questionId : String
  answerRevision : Nat
  endingReceipt : Bool
  /-- The Experiment was started by an orchestrator. -/
  child : Bool
  /-- A paused turn of the asking chat can be resumed. -/
  paused : Bool
  /-- A provider pass on the asking stage is unresolved. -/
  unresolved : Bool
  projectAccepts : Option Refusal
  wakeBinding : Option Refusal
  insertion : Option Refusal
  now : String

/-- `create_experiment_question_invocation`; `none` when the wake is not admitted. -/
def createExperimentQuestionInvocation (w : QuestionWake) : Txn (Option String) := do
  let record := w.record
  let s ← Prog.get
  match s.questions.get? w.questionId with
  | none => refuse (.valueError "Experiment answer has no episode question")
  | some q =>
      if q.origin.ownerKind ≠ .episode then
        refuse (.valueError "Experiment answer has no episode question")
      else if record.status ≠ .queued ∨ record.parentOperationId ≠ none ∨
          record.request.patchKind ≠ some "experiment_loop" ∨
          record.request.trigger ≠ some "watcher" ∨
          q.origin.ownerId ∉ experimentQuestionOwnerIds s.newestEpisodes record.episodeId then
        refuse (.valueError "Experiment answer changed its origin binding")
      else if ¬ q.claimable w.answerRevision then pure none
      else
        let episodeId := record.episodeId.getD ""
        match s.episodes.get? episodeId with
        | none => refuse (.valueError "Experiment answer lost its episode")
        | some episode =>
            if episode.closed w.endingReceipt then pure none
            else if episode.invocationCeiling ≤ episode.invocationsUsed then
              refuse (.episodeInvocationCeilingReached
                "the episode requires human reauthorization")
            else if record.request.controlInvocation ≠ some (episode.invocationsUsed + 1) then
              refuse (.valueError "Experiment answer invocation is out of sequence")
            else if w.child then
              refuse (.valueError "An orchestrator child cannot receive human questions")
            else
              match s.tasks.get? q.origin.operationId with
              | none => pure none
              | some original =>
                  if ¬ (original.status = .succeeded ∨ original.status = .failed) then pure none
                  else if experimentQuestionBindingMatches record q.origin original = false then
                    refuse (.valueError "Experiment question origin authority is unavailable")
                  else if w.paused ∨ w.unresolved then pure none
                  else do
                    pass w.projectAccepts
                    if hasActiveChatOverlap s record then pure none
                    else do
                      pass w.wakeBinding
                      let claimed ← claimQuestionFollowup w.questionId w.answerRevision
                        record.operationId w.now
                      if claimed = false then pure none
                      else do
                        insertAgentTask record w.insertion
                        addInvocation episodeId episode record record.createdAt
                        pure (some record.operationId)

/-- `_experiment_recovery_has_paid_root`, over the tasks with the newest first: a task is stored
after its parent. -/
def hasPaidRoot (invocations : List EpisodeInvocation) :
    List AgentTaskRecord → Option String → Bool
  | _, none => false
  | [], some id => invocations.any fun row => row.operationId = id
  | task :: older, some id =>
      (invocations.any fun row => row.operationId = id) ||
        if task.operationId = id then hasPaidRoot invocations older task.parentOperationId
        else hasPaidRoot invocations older (some id)

/-- The last of the tasks by creation, and by row among those created at once. -/
def latestTask : List AgentTaskRecord → Option AgentTaskRecord
  | [] => none
  | task :: tasks =>
      match latestTask tasks with
      | none => some task
      | some latest => if latest.createdAt < task.createdAt then some task else some latest

/-- The arguments of a recovery. -/
structure Recovery where
  record : AgentTaskRecord
  /-- The Auto-research route of the episode still takes recovery work. -/
  route : Option Refusal
  endingReceipt : Bool
  insertion : Option Refusal

/-- `create_experiment_recovery_task`. -/
def createExperimentRecoveryTask (r : Recovery) : Txn PUnit :=
  let record := r.record
  match record.episodeId with
  | none =>
      refuse (.valueError "An Experiment recovery requires its parent and episode lineage.")
  | some episodeId =>
      if record.status ≠ .queued ∨ record.visible = false ∨ record.parentOperationId = none then
        refuse (.valueError "An Experiment recovery requires its parent and episode lineage.")
      else do
        let episode ← readEpisode episodeId
        let s ← Prog.get
        if episode.mode ≠ .experimentLoop ∨ episode.projectId ≠ record.projectId ∨
            episode.graphTarget ≠ record.graphTarget ∨
            episode.controlNodeId ≠ record.request.controlNodeId then
          refuse (.valueError "The recovery task belongs to another episode.")
        else do
          pass r.route
          if ¬ (episode.status = .running ∨ episode.status = .stopping) ∨ episode.ending ≠ none ∨
              r.endingReceipt then
            refuse (.episodeNotRunning "the episode is not admitting recovery work")
          else if hasPaidRoot (s.invocationsOf episodeId) s.tasks.values.reverse
              record.parentOperationId = false then
            refuse (.valueError "The Experiment recovery has no paid invocation ancestor.")
          else if s.tasks.values.any fun task =>
              task.episodeId = some episodeId && task.status.active then
            refuse (.agentTaskAdmissionConflict "Another task is already active in this episode.")
          else if (latestTask (s.tasks.values.filter fun task =>
              task.episodeId = some episodeId && task.visible &&
                task.request.patchKind = some "experiment_loop")).all fun latest =>
              some latest.operationId ≠ record.parentOperationId ||
                latest.request.controlInvocation ≠ record.request.controlInvocation then
            refuse (.agentTaskAdmissionConflict
              "Only the latest Experiment task can be recovered. Refresh and use its recovery.")
          else if hasActiveChatOverlap s record then
            refuse (.agentTaskAdmissionConflict
              "Another task is already active in this conversation.")
          else insertAgentTask record r.insertion

/-- The arguments of a chat follow-up. -/
structure ChatFollowup where
  questionId : String
  /-- The asking turn ended with a stale session. -/
  staleSession : Bool
  paused : Bool
  unresolved : Bool
  /-- A receipt of the asking turn says its session is gone. -/
  sessionUnavailable : Bool
  projectAccepts : Option Refusal
  insertion : Option Refusal
  now : String

/-- The asking turn still has the binding the question was asked under. -/
def chatOriginBinds (origin : QuestionOrigin) (task : AgentTaskRecord) (staleSession : Bool) :
    Bool :=
  !task.historyOnly && task.authorizedBy.isSome &&
    (task.kind = .nodeChat || task.kind = .projectChat) && task.episodeId = none &&
    task.projectId = origin.projectId && task.request.chatId = some origin.ownerId &&
    task.request.provider = some origin.provider &&
    task.nativeSessionId = some origin.nativeSessionId &&
    task.stageRoot = some origin.stageRoot &&
    task.stageMachineId.getD "" = origin.stageMachineId.getD "" &&
    task.graphTarget = origin.graphTarget &&
    (task.dispatchAuthority.any fun authority =>
      authority.taskContract = origin.capability &&
        if origin.capability = "discuss" then authority.patchKind = none
        else task.request.patchKind.getD "work" = "work") &&
    task.request.mode = some (if origin.capability = "discuss" then "discuss" else "work") &&
    !staleSession

/-- The text an answer is sent as. -/
def Question.message (q : Question) : String :=
  match q.answer with
  | some answer => if answer = "" then Text.join "\n" q.chosenChoices else answer
  | none => Text.join "\n" q.chosenChoices

/-- The turn that carries an answer back to its chat. -/
def chatFollowupTask (q : Question) (task : AgentTaskRecord) (operationId now : String) :
    AgentTaskRecord :=
  { task with
    operationId
    projectId := q.origin.projectId
    episodeId := none
    status := .queued
    request := { task.request with
      message := some q.message
      trigger := some "human"
      watcherIds := some [] }
    visible := true
    historyOnly := false
    parentOperationId := none
    nativeSessionId := some q.origin.nativeSessionId
    stageMachineId := q.origin.stageMachineId
    stageRoot := some q.origin.stageRoot
    graphTarget := q.origin.graphTarget
    error := none
    createdAt := now }

/-- `admit_chat_question_followup`; `none` when there is nothing to deliver. -/
def admitChatQuestionFollowup (questionFollowupOperationId : String → Nat → String)
    (c : ChatFollowup) : Txn (Option String) := do
  let s ← Prog.get
  match s.questions.get? c.questionId with
  | none => refuse (.keyError c.questionId)
  | some q =>
      if ¬ q.claimable q.answerRevision then pure none
      else if q.origin.ownerKind ≠ .chat then refuse (.valueError "question_owner_not_chat")
      else
        match s.tasks.get? q.origin.operationId with
        | none => refuse (.valueError "question_origin_missing")
        | some task =>
            if ¬ (task.status = .succeeded ∨ task.status = .failed) then
              refuse (.agentTaskAdmissionConflict "question_origin_unsettled")
            else if chatOriginBinds q.origin task c.staleSession = false then
              refuse (.valueError "question_origin_binding_unavailable")
            else if c.paused then
              refuse (.agentTaskAdmissionConflict "question_session_paused")
            else if c.unresolved then
              refuse (.agentTaskAdmissionConflict "question_provider_liveness_unresolved")
            else if c.sessionUnavailable then
              refuse (.valueError "question_origin_session_unavailable")
            else do
              pass c.projectAccepts
              let operationId := questionFollowupOperationId c.questionId q.answerRevision
              let followup := chatFollowupTask q task operationId c.now
              if hasActiveChatOverlap s followup then
                refuse (.agentTaskAdmissionConflict "question_session_occupied")
              else do
                let claimed ← claimQuestionFollowup c.questionId q.answerRevision operationId c.now
                if claimed = false then pure none
                else do
                  insertAgentTask followup c.insertion
                  pure (some operationId)

end RcpGraph.Episodes
