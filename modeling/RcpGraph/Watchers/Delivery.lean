import RcpGraph.Watchers.Effects

/-!
Runs of watcher transactions, in any order. A result is handed over at most once, and a
completed watcher is never dropped without a record.
-/

namespace RcpGraph.Watchers

open Crash
open Episodes (AgentTaskRecord)

/-- What the transactions take from code that is not modelled. -/
structure Config where
  backoff : Backoff
  authorizer : AuthorizerReader

/-- The transactions that write watchers or tasks. -/
inductive Transaction where
  | arm (answers : ArmingAnswers) (list : List NewWatcher)
  | handOver (answers : HandoffAnswers) (binding : WatcherBinding) (list : List NewWatcher)
      (stops : List WatcherStopRequest) (now : String)
  | observe (watcherId : String) (state : CheckState) (exitCode : Option Int)
      (error : Option String) (now : String) (includeStopped : Bool)
  | claimCancel (projectId watcherId requestedBy now : String)
  | cancelResult (watcherId : String) (requestedAt error : Option String)
  | completeCancel (watcherId requestedAt : String) (performed : Bool) (now : String)
  | wakeError (watcherIds : List String) (reason : String)
  | graphResult (watcherId : String) (result : GraphResult) (now : String)
  | baseline (watcherId : String) (armedRevision : Nat) (now : String)
  | targetBaselines (projectId : String) (target : GraphTargetRef) (armedRevision : Nat)
      (now : String)
  | boundary (projectId : String) (head : GraphHeadRef) (evaluate : Watcher → GraphResult)
      (now : String)
  | closeChat (projectId chatId now : String)
  | stop (projectId : String) (watcherIds : List String) (observingOnly : Bool)
      (stoppedBy : StoppedBy) (now : String)
  | stopChildWork (workerId : String) (known : Bool) (now : String)
  | settleAutoResearch (ending : AutoResearchEnding)
  | settleWrapup (episodeId : String) (ready : Bool) (now : String)
  | settleLoopStop (loop : LoopStop) (now : String)
  | detach (detail confirmer now : String)
  | resolveAuthorizer (watcherIds : List String) (members : Option Refusal) (now : String)
  | notifyChat (record : AgentTaskRecord) (ids : List String) (wake : WakeCause)
      (answers : NotificationAnswers)
  | wakeChildWork (record : AgentTaskRecord) (ids : List String) (answers : ChildWakeAnswers)
  | experimentRun (record : AgentTaskRecord) (ids : List String)
      (answers : ExperimentClaimAnswers)
  | experimentWake (record : AgentTaskRecord) (ids : List String)
      (answers : ExperimentClaimAnswers)
  | startTask (record : AgentTaskRecord) (cause : ContinuationCause) (check : Option Refusal)
  | recoverTask (record : AgentTaskRecord) (parentId : String) (cause : ContinuationCause)
      (check : Option Refusal)

/-- A transaction without its answer. -/
def silently {α : Type} (m : Txn α) : Txn PUnit := m >>= fun _ => pure ⟨⟩

def Transaction.body (cfg : Config) : Transaction → Txn PUnit
  | arm answers list => createWatchers cfg.backoff answers list
  | handOver answers binding list stops now =>
      persistExperimentWatchersIdempotently cfg.backoff answers binding list stops now
  | observe id state exitCode error now includeStopped =>
      recordWatcherCheck cfg.backoff id state.status exitCode error now includeStopped
  | claimCancel projectId id requestedBy now =>
      silently (claimWatcherCancel projectId id requestedBy now)
  | cancelResult id requestedAt error => recordWatcherCancelResult id requestedAt error
  | completeCancel id requestedAt performed now =>
      completeWatcherCancel id requestedAt performed now
  | wakeError ids reason => recordWatcherWakeError ids reason
  | graphResult id result now => recordGraphWatcherResult id result now
  | baseline id armedRevision now => initializeGraphWatcherBaseline id armedRevision now
  | targetBaselines projectId target armedRevision now =>
      initializeGraphWatcherTargetBaselines projectId target armedRevision now
  | boundary projectId head evaluate now =>
      silently (consumeGraphWatcherBoundary projectId head evaluate now)
  | closeChat projectId chatId now => stopChatWatchers projectId chatId now
  | stop projectId ids observingOnly stoppedBy now =>
      stopWatchers projectId ids observingOnly stoppedBy now
  | stopChildWork workerId known now => requestAutoResearchChildWorkStop workerId known now
  | settleAutoResearch ending => settleAutoResearchWatchers ending
  | settleWrapup episodeId ready now =>
      silently (settleExperimentEpisodeWrapup episodeId ready now)
  | settleLoopStop loop now => silently (settleExperimentLoopStop loop now)
  | detach detail confirmer now => detachWatchersForRestore detail confirmer now
  | resolveAuthorizer ids members now =>
      silently (resolveWatcherDeliveryAuthorizer cfg.authorizer ids members now)
  | notifyChat record ids wake answers =>
      silently (createWatcherNotificationTask record ids wake answers)
  | wakeChildWork record ids answers => silently (createChildWorkWatcherWake record ids answers)
  | experimentRun record ids answers =>
      silently (createExperimentEpisodeWithInvocation record ids answers)
  | experimentWake record ids answers =>
      silently (createExperimentWatcherInvocation record ids answers)
  | startTask record cause check => Watchers.startTask record cause check
  | recoverTask record parentId cause check => Watchers.recoverTask record parentId cause check

/-- The transactions of a reconciliation with the accepted graph. -/
def Transaction.reconciles : Transaction → Bool
  | graphResult .. | baseline .. | targetBaselines .. | boundary .. => true
  | _ => false

/-- The store after a transaction, which a failure leaves as it was. -/
def Store.step (cfg : Config) (s : Store) (t : Transaction) : Store := ((t.body cfg).atomic s).2

def Store.run (cfg : Config) (s : Store) (ts : List Transaction) : Store :=
  ts.foldl (Store.step cfg) s

variable (cfg : Config) {s : Store}

theorem silently_moves {α : Type} {reconciles : Prop} {m : Txn α} (hm : Moves reconciles s m) :
    Moves reconciles s (silently m) :=
  Moves.bind hm fun _ _ ht => moves_pure ht _

theorem Transaction.body_moves (hs : s.Sound) (t : Transaction) :
    Moves (t.reconciles = true) s (t.body cfg) := by
  cases t with
  | arm answers list => exact createWatchers_moves hs _ answers list
  | handOver answers binding list stops now =>
      exact persistExperimentWatchersIdempotently_moves hs _ answers binding list stops now
  | observe id state exitCode error now includeStopped =>
      exact recordWatcherCheck_moves hs _ id state exitCode error now includeStopped
  | claimCancel projectId id requestedBy now =>
      exact silently_moves (claimWatcherCancel_moves hs projectId id requestedBy now)
  | cancelResult id requestedAt error => exact recordWatcherCancelResult_moves hs id requestedAt error
  | completeCancel id requestedAt performed now =>
      exact completeWatcherCancel_moves hs id requestedAt performed now
  | wakeError ids reason => exact recordWatcherWakeError_moves hs ids reason
  | graphResult id result now => exact recordGraphWatcherResult_moves hs rfl id result now
  | baseline id armedRevision now =>
      exact initializeGraphWatcherBaseline_moves hs rfl id armedRevision now
  | targetBaselines projectId target armedRevision now =>
      exact initializeGraphWatcherTargetBaselines_moves hs rfl projectId target armedRevision now
  | boundary projectId head evaluate now =>
      exact silently_moves (consumeGraphWatcherBoundary_moves hs rfl projectId head evaluate now)
  | closeChat projectId chatId now => exact stopChatWatchers_moves hs projectId chatId now
  | stop projectId ids observingOnly stoppedBy now =>
      exact stopWatchers_moves hs projectId ids observingOnly stoppedBy now
  | stopChildWork workerId known now =>
      exact requestAutoResearchChildWorkStop_moves hs workerId known now
  | settleAutoResearch ending => exact settleAutoResearchWatchers_moves hs ending
  | settleWrapup episodeId ready now =>
      exact silently_moves (settleExperimentEpisodeWrapup_moves hs episodeId ready now)
  | settleLoopStop loop now => exact silently_moves (settleExperimentLoopStop_moves hs loop now)
  | detach detail confirmer now => exact detachWatchersForRestore_moves hs detail confirmer now
  | resolveAuthorizer ids members now =>
      exact silently_moves (resolveWatcherDeliveryAuthorizer_moves hs _ ids members now)
  | notifyChat record ids wake answers =>
      exact silently_moves (createWatcherNotificationTask_moves hs record ids wake answers)
  | wakeChildWork record ids answers =>
      exact silently_moves (createChildWorkWatcherWake_moves hs record ids answers)
  | experimentRun record ids answers =>
      exact silently_moves (createExperimentClaim_moves hs record ids .fresh answers)
  | experimentWake record ids answers =>
      exact silently_moves (createExperimentClaim_moves hs record ids .watcher answers)
  | startTask record cause check => exact startTask_moves hs record cause check
  | recoverTask record parentId cause check => exact recoverTask_moves hs record parentId cause check

/-- One transaction of a run. -/
theorem step_moved (hs : s.Sound) (t : Transaction) :
    Moved (t.reconciles = true) s (s.step cfg t) := by
  have h := (t.body_moves cfg hs).atomic
  unfold Store.step
  cases hout : (t.body cfg).atomic s with
  | mk out u =>
      rw [hout] at h
      cases out with
      | ok a => exact h
      | raised e =>
          cases h
          exact Moved.refl hs
      | crashed =>
          cases h
          exact Moved.refl hs

theorem run_moved (hs : s.Sound) (ts : List Transaction) : Moved True s (s.run cfg ts) := by
  induction ts generalizing s with
  | nil => exact Moved.refl hs
  | cons t ts ih =>
      have hstep := step_moved cfg hs t
      exact (hstep.mono fun _ => trivial).trans (ih hstep.sound)

theorem Store.empty_sound : Store.empty.Sound := by
  intro id w hw
  cases hw

/-- A transaction of the run that queued the task of a claim and claimed with it. -/
def ClaimedIn (cfg : Config) (ts : List Transaction) (id op : String) : Prop :=
  ∃ before t after, ts = before ++ t :: after ∧
    op ∉ (Store.empty.run cfg before).tasks ∧
    (Store.empty.run cfg before).claimOf id = none ∧
    op ∈ (Store.empty.run cfg (before ++ [t])).tasks ∧
    (Store.empty.run cfg (before ++ [t])).claimOf id = some op

theorem claimedIn_of_claimOf (ts : List Transaction) {id op : String}
    (h : (Store.empty.run cfg ts).claimOf id = some op) : ClaimedIn cfg ts id op := by
  induction ts using List.reverseRecOn with
  | nil => cases h
  | append_singleton ts t ih =>
      have hrun : Store.empty.run cfg (ts ++ [t]) = (Store.empty.run cfg ts).step cfg t := by
        simp [Store.run]
      have hstep := step_moved cfg (run_moved cfg Store.empty_sound ts).sound t
      cases hc : (Store.empty.run cfg ts).claimOf id with
      | none =>
          have hclaim := h
          rw [hrun] at hclaim
          obtain ⟨hnew, task, htask, -⟩ := hstep.claims id op hc hclaim
          refine ⟨ts, t, [], rfl, hnew, hc, ?_, h⟩
          rw [hrun]
          exact Dict.mem_of_get? htask
      | some op' =>
          have hkept := hstep.claim hc
          rw [← hrun, h] at hkept
          cases hkept
          obtain ⟨before, t', after, hts, hrest⟩ := ih hc
          exact ⟨before, t', after ++ [t], by rw [hts]; simp, hrest⟩

/-- The task of a claim names the watcher, and no other task does on its own account. -/
structure Store.NamedOnce (s : Store) (id op : String) : Prop where
  names : ∃ task, s.tasks.get? op = some task ∧ task.cause.recovers = false ∧ id ∈ task.names
  once : ∀ op' task, s.tasks.get? op' = some task → task.cause.recovers = false →
    id ∈ task.names → op' = op

theorem namedOnce_of_claimOf (ts : List Transaction) {id op : String}
    (h : (Store.empty.run cfg ts).claimOf id = some op) :
    (Store.empty.run cfg ts).NamedOnce id op := by
  have hmoved := run_moved cfg Store.empty_sound ts
  constructor
  · obtain ⟨-, hnamed⟩ := hmoved.claims id op rfl h
    exact hnamed
  · intro op' task htask hcause hid
    obtain ⟨-, hclaim⟩ := hmoved.named op' task (Dict.not_mem_empty op') htask hcause id hid
    rw [h] at hclaim
    exact (Option.some_inj.mp hclaim).symm

/-- Along every run from an empty store: what a watcher has come to is kept, an unnotified
watcher has no task, a claimed one is named by the task its claim queued and by no other
but that task's recoveries, and a completed one stays accounted for. -/
theorem watcherResults_delivered (cfg : Config) (before after : List Transaction) :
    (∀ id w, (Store.empty.run cfg before).watchers.get? id = some w →
      ∃ w', (Store.empty.run cfg (before ++ after)).watchers.get? id = some w' ∧
        (w.notified = true → w'.notified = true) ∧
        (∀ op, w.notificationOperationId = some op → w'.notificationOperationId = some op) ∧
        (w.status = .stopped → w'.status = .stopped) ∧
        (w.status = .completed → w'.Accounted)) ∧
    (∀ id w, (Store.empty.run cfg before).watchers.get? id = some w →
      (w.notified = false → w.notificationOperationId = none) ∧
      ∀ op, w.notificationOperationId = some op →
        (Store.empty.run cfg before).NamedOnce id op ∧ ClaimedIn cfg before id op) := by
  have hbefore := run_moved cfg Store.empty_sound before
  have hafter := run_moved cfg hbefore.sound after
  have hrun : Store.empty.run cfg (before ++ after) = (Store.empty.run cfg before).run cfg after :=
    List.foldl_append
  constructor
  · intro id w hw
    obtain ⟨w', hw', hsince⟩ := hafter.rows id w hw
    refine ⟨w', by rw [hrun]; exact hw', hsince.notified, hsince.claim, hsince.stopped, ?_⟩
    intro hcompleted
    exact hsince.accounted ((hbefore.sound id w hw).accounted hcompleted)
  · intro id w hw
    refine ⟨(hbefore.sound id w hw).unclaimed, ?_⟩
    intro op hop
    have hclaim : (Store.empty.run cfg before).claimOf id = some op := by
      rw [Store.claimOf, hw]
      exact hop
    exact ⟨namedOnce_of_claimOf cfg before hclaim, claimedIn_of_claimOf cfg before hclaim⟩

end RcpGraph.Watchers
