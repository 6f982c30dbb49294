import RcpGraph.Episodes.Records

/-!
The report ledger of one episode: its attempts, its wrap-up, the published report and the
hidden tasks that make it. An operation that raises changes nothing.
-/

namespace RcpGraph.Episodes

inductive ReportAttemptStatus where
  | queued
  | running
  | succeeded
  | failed
  deriving DecidableEq, Repr

structure EpisodeReportAttempt where
  attemptId : String
  attemptNumber : Nat
  allocationOperationId : String
  status : ReportAttemptStatus
  error : Option String
  deriving DecidableEq, Repr

def EpisodeReportAttempt.isOpen (a : EpisodeReportAttempt) : Bool :=
  decide (a.status = .queued ∨ a.status = .running)

/-- The attempt has failed. -/
def EpisodeReportAttempt.fail (error : String) (a : EpisodeReportAttempt) : EpisodeReportAttempt :=
  { a with status := .failed, error := some error }

structure EpisodeReport where
  reportId : String
  episodeId : String
  attemptId : String
  allocationOperationId : String
  ending : EpisodeEnding
  sha256 : String
  artifactId : String
  artifactVersionId : String
  createdAt : String
  deletedAt : Option String
  deriving DecidableEq, Repr

/-- The part of the wrap-up row that the report operations change, but for its times. -/
structure ReportWrapup where
  allocationOperationId : Option String
  state : WrapupState
  diagnostic : Option String
  deriving DecidableEq, Repr

/-- A task of `graph_runs`; `hidden` says that it is a hidden report task of the episode. -/
structure ReportTask where
  status : TaskStatus
  failureKind : Option String
  hidden : Bool
  deriving DecidableEq, Repr

/-- The rows of one episode. The attempts stand in the order of their numbers. -/
structure ReportLedger where
  episodeId : String
  status : EpisodeStatus
  ending : Option EpisodeEnding
  wrapupState : WrapupState
  wrapupError : Option String
  reportAttemptsUsed : Nat
  wrapup : Option ReportWrapup
  attempts : List EpisodeReportAttempt
  report : Option EpisodeReport
  tasks : Dict String ReportTask

inductive ReportRefusal where
  | keyError (key : String)
  | valueError (message : String)
  | runtimeError (message : String)
  | integrityError
  | episodeNotRunning (message : String)
  | episodeReportConflict (message : String)
  | episodeReportAttemptLimitReached (message : String)
  /-- A write to another table raises. -/
  | elsewhere
  deriving DecidableEq, Repr

/-- `_REPORT_ATTEMPT_LIMIT`. -/
def reportAttemptLimit : Nat := 3

/-- The wrap-up awaits a report. -/
def WrapupState.awaiting : WrapupState → Bool
  | .pending | .running => true
  | _ => false

namespace ReportLedger

def attempt? (s : ReportLedger) (attemptId : String) : Option EpisodeReportAttempt :=
  s.attempts.find? fun a => a.attemptId = attemptId

/-- `current_episode_report_attempt`. -/
def current (s : ReportLedger) : Option EpisodeReportAttempt := s.attempts.reverse.find? (·.isOpen)

def writeAttempt (s : ReportLedger) (attemptId : String)
    (f : EpisodeReportAttempt → EpisodeReportAttempt) : ReportLedger :=
  { s with attempts := s.attempts.map fun a => if a.attemptId = attemptId then f a else a }

def writeTask (s : ReportLedger) (operationId : String) (f : ReportTask → ReportTask) :
    ReportLedger :=
  match s.tasks.get? operationId with
  | some task => { s with tasks := s.tasks.insert operationId (f task) }
  | none => s

/-- The update that fails a task. -/
def failTask (s : ReportLedger) (operationId : String) : ReportLedger :=
  s.writeTask operationId fun task => { task with status := .failed }

/-- The episode ends and its wrap-up has failed. -/
def failWrapup (s : ReportLedger) (ending : EpisodeEnding) (diagnostic : String) : ReportLedger :=
  { s with
    status := statusForEnding ending
    wrapupState := .failed
    wrapupError := some diagnostic
    wrapup := s.wrapup.map fun w => { w with state := .failed, diagnostic := some diagnostic } }

/-- `allocate_episode_report_attempt`; `attemptId` is the new id. -/
def allocate (s : ReportLedger) (attemptId : String) : Except ReportRefusal ReportLedger :=
  match s.wrapup with
  | none => .error (.episodeNotRunning "the episode has no report allocation")
  | some wrapup =>
      match wrapup.allocationOperationId with
      | none => .error (.episodeNotRunning "the episode is not awaiting report generation")
      | some allocation =>
          if s.status ≠ .wrappingUp ∨ s.wrapupState.awaiting = false ∨
              wrapup.state.awaiting = false then
            .error (.episodeNotRunning "the episode is not awaiting report generation")
          else if s.current.isSome then .ok s
          else if reportAttemptLimit ≤ s.reportAttemptsUsed then
            .error (.episodeReportAttemptLimitReached
              "the episode has spent all three report attempts")
          else if (s.attempts.any fun a =>
              a.attemptId = attemptId ∨ a.attemptNumber = s.reportAttemptsUsed + 1) then
            .error .integrityError
          else
            .ok
              { s with
                attempts := s.attempts ++
                  [⟨attemptId, s.reportAttemptsUsed + 1, allocation, .queued, none⟩]
                wrapupState := .running
                reportAttemptsUsed := s.reportAttemptsUsed + 1
                wrapup := some { wrapup with state := .running } }

/-- `mark_episode_report_attempt_running`. -/
def markRunning (s : ReportLedger) (attemptId : String) : Except ReportRefusal ReportLedger :=
  match s.attempt? attemptId with
  | none => .error (.keyError attemptId)
  | some row =>
      if row.isOpen = false then
        .error (.episodeNotRunning "the report attempt has already ended")
      else
        .ok ((s.writeAttempt attemptId fun a => { a with status := .running }).writeTask
          row.allocationOperationId fun task => { task with status := .running })

/-- Whether an error of an attempt is its episode's last. -/
def isFinal (row : EpisodeReportAttempt) (forceFinal providerAuth : Bool) : Bool :=
  !providerAuth && (forceFinal || decide (reportAttemptLimit ≤ row.attemptNumber))

/-- `_finish_episode_report_attempt_error`. -/
def finishAttemptError (s : ReportLedger) (attemptId error : String)
    (forceFinal providerAuth elsewhere : Bool) : Except ReportRefusal ReportLedger :=
  if Text.strip error = "" then
    .error (.valueError "a report attempt error must explain the failure")
  else
    match s.attempt? attemptId with
    | none => .error (.keyError attemptId)
    | some row =>
        if row.status = .succeeded then
          .error (.episodeReportConflict "a successful report attempt cannot fail")
        else
          let s := if row.status = .failed then s
            else s.writeAttempt attemptId (EpisodeReportAttempt.fail error)
          let s := if providerAuth then
              s.writeTask row.allocationOperationId fun task =>
                { task with status := .failed, failureKind := some "provider_auth" }
            else s
          if isFinal row forceFinal providerAuth then
            match s.ending with
            | none => .error (.valueError "the episode has no valid semantic ending")
            | some ending =>
                if elsewhere then .error .elsewhere
                else .ok ((s.failWrapup ending error).failTask row.allocationOperationId)
          else
            .ok
              { s with
                wrapupState := .pending
                wrapupError := none
                wrapup := s.wrapup.map fun w => { w with state := .pending } }

/-- `record_episode_report_attempt_error`. -/
def recordAttemptError (s : ReportLedger) (attemptId error : String)
    (providerAuth elsewhere : Bool) : Except ReportRefusal ReportLedger :=
  s.finishAttemptError attemptId error false providerAuth elsewhere

/-- `finish_episode_report_error`. -/
def finishError (s : ReportLedger) (attemptId error : String) (elsewhere : Bool) :
    Except ReportRefusal ReportLedger :=
  s.finishAttemptError attemptId error true false elsewhere

/-- `finish_episode_report_ready`; `bound` says that the report binds its permanent original
artifact version. -/
def finishReady (s : ReportLedger) (attemptId : String) (report : EpisodeReport)
    (bound elsewhere : Bool) : Except ReportRefusal ReportLedger :=
  if bound = false then
    .error (.episodeReportConflict "the report must bind its permanent original artifact version")
  else
    match s.attempt? attemptId with
    | none => .error (.keyError attemptId)
    | some row =>
        match s.wrapup with
        | none => .error (.runtimeError "the report attempt lost its episode wrap-up")
        | some wrapup =>
            if report.attemptId ≠ attemptId ∨ report.episodeId ≠ s.episodeId ∨
                report.allocationOperationId ≠ row.allocationOperationId ∨
                wrapup.allocationOperationId ≠ some report.allocationOperationId ∨
                s.ending ≠ some report.ending then
              .error (.episodeReportConflict "the report does not match its episode attempt")
            else if report.ending = .stopped then
              .error (.episodeReportConflict "a stopped episode cannot publish a report")
            else
              match s.report with
              | some stored =>
                  if stored = report then .ok s
                  else .error (.episodeReportConflict "the episode report is immutable")
              | none =>
                  if row.isOpen = false then
                    .error (.episodeReportConflict "the report attempt has already ended")
                  else if elsewhere then .error .elsewhere
                  else
                    let s := s.writeAttempt attemptId fun a =>
                      { a with status := .succeeded, error := none }
                    let s := s.writeTask report.allocationOperationId fun task =>
                      { task with status := .succeeded }
                    .ok
                      { s with
                        report := some report
                        wrapup := some { wrapup with state := .ready, diagnostic := none }
                        status := statusForEnding report.ending
                        wrapupState := .ready
                        wrapupError := none }

/-- What a retry says of the attempt that it gives up. -/
def retryDiagnostic (loginFailure : Bool) (status : TaskStatus) : String :=
  if loginFailure then "The report spent all three attempts before sign-in was verified."
  else if status = .interrupted then
    "The report provider call was interrupted by an RCP restart."
  else "The report provider call was paused during RCP shutdown."

/-- The attempt that was running has failed. -/
def failRunning (s : ReportLedger) (diagnostic : String) : ReportLedger :=
  match s.current with
  | some a =>
      if a.status = .running then
        s.writeAttempt a.attemptId (EpisodeReportAttempt.fail diagnostic)
      else s
  | none => s

/-- `retry_episode_report_allocation`; `operationId` is the id of the next task. -/
def retryAllocation (s : ReportLedger) (operationId : String) (elsewhere : Bool) :
    Except ReportRefusal ReportLedger :=
  match s.wrapup.bind (·.allocationOperationId) with
  | none => .error (.episodeNotRunning "the episode has no report allocation to restart")
  | some allocation =>
      if s.status ≠ .wrappingUp ∨ s.wrapupState.awaiting = false then
        .error (.episodeNotRunning "the episode report allocation cannot restart")
      else
        match s.tasks.get? allocation with
        | none =>
            .error (.episodeReportConflict "the hidden report allocation lost its restart fence")
        | some task =>
            if task.hidden = false then
              .error (.episodeReportConflict "the hidden report allocation lost its restart fence")
            else if task.status = .queued then .ok s
            else
              let loginFailure : Bool :=
                decide (task.status = .failed ∧ task.failureKind = some "provider_auth")
              if task.status ≠ .interrupted ∧ task.status ≠ .paused ∧ loginFailure = false then
                .error (.episodeNotRunning
                  "only an interrupted, shutdown-paused, or login-blocked report may be requeued")
              else
                let diagnostic := retryDiagnostic loginFailure task.status
                let current := s.current.map (·.status)
                if reportAttemptLimit ≤ s.reportAttemptsUsed ∧ current ≠ some .queued then
                  if loginFailure = false ∧ current ≠ some .running then
                    .error (.episodeNotRunning "the episode has spent all report attempts")
                  else
                    match s.ending with
                    | none => .error (.valueError "the episode has no valid semantic ending")
                    | some ending =>
                        if elsewhere then .error .elsewhere
                        else
                          .ok (((s.failRunning diagnostic).failWrapup ending diagnostic).failTask
                            allocation)
                else if operationId ∈ s.tasks then .error .integrityError
                else if elsewhere then .error .elsewhere
                else
                  let s := s.failRunning diagnostic
                  .ok
                    { s with
                      tasks := s.tasks.insert operationId ⟨.queued, none, true⟩
                      attempts := s.attempts.map fun a =>
                        if a.status = .queued then { a with allocationOperationId := operationId }
                        else a
                      wrapupState := .pending
                      wrapupError := none
                      wrapup := s.wrapup.map fun _ => ⟨some operationId, .pending, none⟩ }

/-- `fail_episode_report_allocation_unlaunchable`. -/
def failAllocationUnlaunchable (s : ReportLedger) (diagnostic : String) (elsewhere : Bool) :
    Except ReportRefusal ReportLedger :=
  let diagnostic := Text.strip diagnostic
  if diagnostic = "" then
    .error (.valueError "an unlaunchable report allocation requires a diagnostic")
  else
    match s.wrapup with
    | none => .error (.episodeNotRunning "the episode has no report allocation to fail")
    | some wrapup =>
        match wrapup.allocationOperationId with
        | none => .error (.episodeNotRunning "the episode has no report allocation to fail")
        | some allocation =>
            match s.tasks.get? allocation with
            | none =>
                .error (.episodeReportConflict
                  "the hidden report allocation lost its restart fence")
            | some task =>
                if task.hidden = false then
                  .error (.episodeReportConflict
                    "the hidden report allocation lost its restart fence")
                else if s.attempts.length ≠ s.reportAttemptsUsed ∨
                    1 < (s.attempts.filter fun a => a.status = .queued).length ∨
                    (s.attempts.any fun a => a.status = .running ∨ a.status = .succeeded) then
                  .error (.episodeNotRunning
                    "an allocated report can be unlaunchable only between provider calls")
                else if s.wrapupState = .failed ∧ wrapup.state = .failed ∧
                    task.status = .failed then
                  if s.wrapupError ≠ some diagnostic ∨ wrapup.diagnostic ≠ some diagnostic then
                    .error (.episodeReportConflict
                      "the failed report allocation already has a different diagnostic")
                  else .ok s
                else if s.status ≠ .wrappingUp ∨ s.wrapupState.awaiting = false ∨
                    wrapup.state.awaiting = false ∨ task.status = .succeeded ∨
                    task.status = .failed then
                  .error (.episodeNotRunning
                    "the report allocation cannot be failed before launch")
                else
                  match s.ending with
                  | none => .error (.valueError "the episode has no valid semantic ending")
                  | some ending =>
                      if elsewhere then .error .elsewhere
                      else
                        .ok ((({ s with
                          attempts := s.attempts.map fun a =>
                            if a.status = .queued then a.fail diagnostic else a } :
                              ReportLedger).failWrapup ending diagnostic).failTask allocation)

end ReportLedger

/-- The operations of a report ledger, and a change of a task by something else. -/
inductive ReportOperation where
  | allocate (attemptId : String)
  | markRunning (attemptId : String)
  | recordError (attemptId error : String) (providerAuth elsewhere : Bool)
  | finishError (attemptId error : String) (elsewhere : Bool)
  | finishReady (attemptId : String) (report : EpisodeReport) (bound elsewhere : Bool)
  | retryAllocation (operationId : String) (elsewhere : Bool)
  | failUnlaunchable (diagnostic : String) (elsewhere : Bool)
  | taskChanges (operationId : String) (task : ReportTask)
  deriving DecidableEq, Repr

namespace ReportLedger

def perform (s : ReportLedger) : ReportOperation → Except ReportRefusal ReportLedger
  | .allocate attemptId => s.allocate attemptId
  | .markRunning attemptId => s.markRunning attemptId
  | .recordError attemptId error providerAuth elsewhere =>
      s.recordAttemptError attemptId error providerAuth elsewhere
  | .finishError attemptId error elsewhere => s.finishError attemptId error elsewhere
  | .finishReady attemptId report bound elsewhere => s.finishReady attemptId report bound elsewhere
  | .retryAllocation operationId elsewhere => s.retryAllocation operationId elsewhere
  | .failUnlaunchable diagnostic elsewhere => s.failAllocationUnlaunchable diagnostic elsewhere
  | .taskChanges operationId task => .ok (s.writeTask operationId fun _ => task)

/-- One call: what raises is rolled back. -/
def step (s : ReportLedger) (op : ReportOperation) : ReportLedger :=
  match s.perform op with
  | .ok t => t
  | .error _ => s

def run (s : ReportLedger) (ops : List ReportOperation) : ReportLedger := ops.foldl step s

end ReportLedger

end RcpGraph.Episodes
