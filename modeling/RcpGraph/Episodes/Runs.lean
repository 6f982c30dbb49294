import RcpGraph.Episodes.Admissions

/-!
Runs of the transactions, in any order. The four last ones stand for the code around
them: tasks come to rest, clients acknowledge answers, messages and watchers are stored.
-/

namespace RcpGraph.Episodes

open Crash

/-- The digests the transactions compute. -/
structure Digests where
  compactEpisodeReceipt : Option String → String → String × String
  questionFollowupOperationId : String → Nat → String

inductive Transaction where
  | requestStop (episodeId : String) (initiatedBy : Option String) (now : String)
  | fenceEnding (episodeId : String) (ending : EpisodeEnding) (diagnostic : Option String)
      (now : String)
  | beginWrapup (episodeId : String) (wrapup : EpisodeWrapupRecord) (allocation : AgentTaskRecord)
      (insertion : Option Refusal) (now : String)
  | endWithoutReport (episodeId : String) (ending : EpisodeEnding) (diagnostic : Option String)
      (now : String)
  | failUnlaunchable (episodeId : String) (wrapup : EpisodeWrapupRecord)
      (endingDiagnostic : Option String) (now : String)
  | markStopSkipped (episodeId : String) (diagnostic : Option String) (now : String)
  | experimentRun (run : ExperimentRun)
  | watcherWake (wake : WatcherWake)
  | questionWake (wake : QuestionWake)
  | recovery (recovery : Recovery)
  | createQuestion (new : NewQuestion)
  | answer (questionId answer : String) (choices : List String) (resolvedBy : AuthorizedHuman)
      (now : String)
  | dismiss (questionId : String) (resolvedBy : AuthorizedHuman) (now : String)
  | settleCard (questionId answer : String) (human : Option AuthorizedHuman) (now : String)
  | reopen (questionId : String) (answerRevision : Nat)
  | receipt (questionId : String) (answerRevision : Nat) (operationId requestId now : String)
  | continuationReceipt (questionId : String) (answerRevision : Nat)
      (operationId requestId now : String)
  | chatFollowup (followup : ChatFollowup)
  | dismissalDelivered (questionId now : String)
  | setWithdrawn (projectId episodeId : String) (withdrawn : Bool)
  | withdrawIfStopped (questionId : String)
  | settleTask (operationId : String) (status : TaskStatus)
  | acknowledge (acknowledgement : Acknowledgement)
  | sendMessage (messageId : String)
  | storeWatcher (watcherId : String) (watcher : Watcher)

/-- Whether the transaction was admitted. One that raises is not. -/
def accepted (m : Txn PUnit) : Txn Bool := do
  m
  pure true

def admitted (m : Txn (Option String)) : Txn Bool := do
  let operationId ← m
  pure operationId.isSome

def resolved (m : Txn Question) : Txn Bool := do
  let _ ← m
  pure true

def Transaction.body (d : Digests) : Transaction → Txn Bool
  | requestStop episodeId initiatedBy now => accepted (requestEpisodeStop episodeId initiatedBy now)
  | fenceEnding episodeId ending diagnostic now =>
      accepted (fenceEpisodeEnding episodeId ending diagnostic now)
  | beginWrapup episodeId wrapup allocation insertion now =>
      accepted (beginEpisodeWrapup episodeId wrapup allocation insertion now)
  | endWithoutReport episodeId ending diagnostic now =>
      accepted (endEpisodeWithoutReport episodeId ending diagnostic now)
  | failUnlaunchable episodeId wrapup endingDiagnostic now =>
      accepted (failEpisodeWrapupUnlaunchable episodeId wrapup endingDiagnostic now)
  | markStopSkipped episodeId diagnostic now =>
      accepted (markEpisodeStopSkipped d.compactEpisodeReceipt episodeId diagnostic now)
  | experimentRun run => accepted (createExperimentEpisodeWithInvocation run)
  | watcherWake wake => admitted (createExperimentWatcherInvocation wake)
  | questionWake wake => admitted (createExperimentQuestionInvocation wake)
  | recovery r => accepted (createExperimentRecoveryTask r)
  | createQuestion new => resolved (createOrGetQuestion new)
  | answer questionId text choices resolvedBy now =>
      resolved (answerQuestion questionId text choices resolvedBy now)
  | dismiss questionId resolvedBy now => resolved (dismissQuestion questionId resolvedBy now)
  | settleCard questionId text human now => Episodes.settleCard questionId text human now
  | reopen questionId answerRevision => reopenUnclaimedAnswer questionId answerRevision
  | receipt questionId answerRevision operationId requestId now =>
      recordQuestionReceipt questionId answerRevision operationId requestId now
  | continuationReceipt questionId answerRevision operationId requestId now =>
      recordQuestionContinuationReceipt questionId answerRevision operationId requestId now
  | chatFollowup followup =>
      admitted (admitChatQuestionFollowup d.questionFollowupOperationId followup)
  | dismissalDelivered questionId now => markQuestionDismissalDelivered questionId now
  | setWithdrawn projectId episodeId withdrawn =>
      accepted (setEpisodeQuestionsWithdrawn projectId episodeId withdrawn)
  | withdrawIfStopped questionId => accepted (withdrawEpisodeQuestionIfStopped questionId)
  | settleTask operationId status => accepted (Prog.modify fun s =>
      { s with tasks := s.tasks.map fun id task =>
          if id = operationId then { task with status } else task })
  | acknowledge acknowledgement => accepted (Prog.modify fun s =>
      { s with acknowledgements := acknowledgement :: s.acknowledgements })
  | sendMessage messageId => accepted (Prog.modify fun s =>
      { s with messages := messageId :: s.messages })
  | storeWatcher watcherId watcher => accepted (Prog.modify fun s =>
      { s with watchers := s.watchers.insert watcherId watcher })

/-- A transaction that raises, and an admission that answers with nothing. -/
def refused : Outcome Refusal Bool → Prop
  | .ok admitted => admitted = false
  | .raised _ => True
  | .crashed => True

variable (d : Digests)

def Store.answers (s : Store) (t : Transaction) : Outcome Refusal Bool :=
  ((t.body d).atomic s).1

def Store.step (s : Store) (t : Transaction) : Store := ((t.body d).atomic s).2

def Store.run (s : Store) (ts : List Transaction) : Store := ts.foldl (Store.step d) s

end RcpGraph.Episodes
