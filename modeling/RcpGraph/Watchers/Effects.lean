import Mathlib.Data.List.Perm.Subperm
import RcpGraph.Watchers.Life

/-!
What each transaction does to a store. The writes that claim nothing are compared row by
row; a claim and the task it is for are one step.
-/

namespace RcpGraph.Watchers

open Crash
open Episodes (AgentTaskRecord)

variable {s t : Store} {reconciles : Prop}

theorem get?_updateWatchers (s : Store) (picks : Picks) (change : Watcher → Watcher)
    (id : String) : (s.updateWatchers picks change).watchers.get? id =
      (s.watchers.get? id).map fun w => if picks id w then change w else w := by
  rw [Store.updateWatchers, Dict.get?_map]

/-- A store whose tasks are as before and whose old rows were written without a claim. -/
theorem Moved.of_rows (hs : s.Sound) (htasks : t.tasks = s.tasks)
    (hconsumed : ¬ reconciles → t.consumed = s.consumed)
    (hborn : ∀ id w', s.watchers.get? id = none → t.watchers.get? id = some w' →
      w'.Sound ∧ w'.notificationOperationId = none ∧ (w'.awaits = true → s.ArmedAhead w'))
    (hrows : ∀ id w, s.watchers.get? id = some w →
      ∃ w', t.watchers.get? id = some w' ∧ w.Step reconciles (fun _ => False) w') :
    Moved reconciles s t where
  sound id w' hw' := by
    cases hw : s.watchers.get? id with
    | none => exact (hborn id w' hw hw').1
    | some w =>
        obtain ⟨w'', hw'', hwrite⟩ := hrows id w hw
        rw [hw'] at hw''
        cases hw''
        exact hwrite.sound (hs id w hw)
  rows id w hw := by
    obtain ⟨w', hw', hwrite⟩ := hrows id w hw
    exact ⟨w', hw', hwrite.since (hs id w hw)⟩
  born _ id w' hnone hsome := (hborn id w' hnone hsome).2.2
  consumed := hconsumed
  tasks op task htask := by
    rw [htasks]
    exact htask
  claims id op hnone hsome := by
    obtain ⟨w', hw', hop⟩ := Option.bind_eq_some_iff.mp hsome
    cases hw : s.watchers.get? id with
    | none =>
        rw [(hborn id w' hw hw').2.1] at hop
        cases hop
    | some w =>
        rw [Store.claimOf, hw] at hnone
        obtain ⟨w'', hw'', hwrite⟩ := hrows id w hw
        rw [hw'] at hw''
        cases hw''
        -- no write but a claim changes who has the result
        cases hwrite.write with
        | kept _ _ hc _ _ | observed _ _ _ _ _ hc | satisfied _ _ _ _ hc
        | finished _ _ _ _ hc | stopped _ _ hc _ _ =>
            rw [hop] at hc
            rw [Option.bind_some, ← hc] at hnone
            cases hnone
        | claimed _ h => exact h.elim
  named op task hop htask := by
    rw [htasks] at htask
    exact absurd (Dict.mem_of_get? htask) hop

theorem updateWatchers_moved (hs : s.Sound) {picks : Picks} {change : Watcher → Watcher}
    (h : ∀ id w, s.watchers.get? id = some w → picks id w = true →
      w.Step reconciles (fun _ => False) (change w)) :
    Moved reconciles s (s.updateWatchers picks change) := by
  refine Moved.of_rows hs rfl (fun _ => rfl) ?_ ?_
  · intro id w' hw hw'
    rw [get?_updateWatchers, hw] at hw'
    cases hw'
  · intro id w hw
    refine ⟨if picks id w then change w else w, by rw [get?_updateWatchers, hw]; rfl, ?_⟩
    by_cases hp : picks id w = true
    · rw [if_pos hp]
      exact h id w hw hp
    · rw [if_neg hp]
      exact ⟨⟨rfl, rfl, rfl, .inl rfl, fun _ h => h⟩, .kept rfl rfl rfl rfl rfl⟩

theorem isSome_or_some {α : Type} (o : Option α) (a : α) : (o.or (some a)).isSome := by
  cases o <;> rfl

/-- A stop, whoever asked for it, keeps the claim and is recorded. -/
theorem stop_write {claims : String → Prop} (by' : StoppedBy) (reason : Option String)
    (now : String) (w : Watcher) : w.Step reconciles claims (w.stop by' reason now) :=
  ⟨⟨rfl, rfl, rfl, .inl rfl, fun _ h => h⟩, .stopped rfl rfl rfl (isSome_or_some _ _) (isSome_or_some _ _)⟩

theorem stopForLoop_write {claims : String → Prop} (now : String) (w : Watcher) :
    w.Step reconciles claims (w.stopForLoop now) :=
  ⟨⟨rfl, rfl, rfl, .inl rfl, fun _ h => h⟩, .stopped rfl rfl rfl (isSome_or_some _ _) (isSome_or_some _ _)⟩

section Transactions

variable (hs : s.Sound)

/-- The transaction ends in a store that it moved to. -/
abbrev Moves {α : Type} (reconciles : Prop) (s : Store) (m : Txn α) : Prop :=
  Ends (fun _ t => Moved reconciles s t) (fun _ => True) (m s)

theorem pass_ends (check : Option Refusal) (s : Store) :
    Ends (fun _ t => t = s) (fun _ => True) (pass check s) := by
  cases check with
  | none => exact Ends.pure rfl
  | some e => exact Ends.raise trivial

include hs

theorem updates_move {picks : Picks} {change : Watcher → Watcher}
    (h : ∀ id w, s.watchers.get? id = some w → picks id w = true →
      w.Step reconciles (fun _ => False) (change w)) : Moves reconciles s (updateWatchers picks change) :=
  Ends.modify (updateWatchers_moved hs h)

theorem changes_move {id : String} {change : Watcher → Watcher}
    (h : ∀ w, s.watchers.get? id = some w → w.Step reconciles (fun _ => False) (change w)) :
    Moves reconciles s (changeWatcher id change) := by
  refine updates_move hs ?_
  intro id' w hw hid
  rw [of_decide_eq_true hid] at hw
  exact h w hw

omit hs in
/-- Two parts of one transaction. -/
theorem Moves.bind {α β : Type} {m : Txn α} {f : α → Txn β} (hm : Moves reconciles s m)
    (hf : ∀ a t, t.Sound → Moves reconciles t (f a)) : Moves reconciles s (m >>= f) := by
  refine Ends.bind hm ?_
  intro a t ht
  exact (hf a t ht.sound).weaken (fun _ _ hu => ht.trans hu) fun _ h => h

theorem moves_pure {α : Type} (a : α) : Moves reconciles s (pure a : Txn α) := Ends.pure (Moved.refl hs)

omit hs in
theorem moves_refuse {α : Type} (e : Refusal) : Moves reconciles s (refuse e : Txn α) := Ends.raise trivial

omit hs in
/-- A check that passes changes nothing. -/
theorem moves_pass {β : Type} {check : Option Refusal} {f : PUnit → Txn β}
    (hf : Moves reconciles s (f ⟨⟩)) : Moves reconciles s (pass check >>= f) := by
  refine (pass_ends check s).bind ?_
  rintro ⟨⟩ _ rfl
  exact hf

end Transactions

section Observing

variable (hs : s.Sound)

include hs

theorem recordWatcherCheck_moves (backoff : String → String → Nat → String) (id : String)
    (state : CheckState) (exitCode : Option Int) (error : Option String) (now : String)
    (includeStopped : Bool) :
    Moves reconciles s (recordWatcherCheck backoff id state.status exitCode error now includeStopped) := by
  unfold recordWatcherCheck
  refine Ends.ite (fun _ => moves_refuse _) fun _ => ?_
  refine Ends.read ?_
  cases hw : s.watchers.get? id with
  | none => exact moves_refuse _
  | some current =>
      refine Ends.ite (fun _ => moves_refuse _) fun hexternal => ?_
      refine Ends.ite (fun _ => moves_pure hs _) fun hopen => ?_
      refine changes_move hs ?_
      intro w hw'
      rw [hw] at hw'
      cases hw'
      cases hstopped : includeStopped && decide (current.status = .stopped) with
      | true =>
          -- a late result of a stopped row
          have hst : current.status = .stopped := by simpa using (Bool.and_eq_true_iff.mp hstopped).2
          exact ⟨⟨rfl, rfl, rfl, .inl rfl, fun _ h => h⟩, .kept (by simp [hst]) rfl rfl rfl rfl⟩
      | false =>
          simp only [hstopped, Bool.not_false, Bool.true_and, Bool.or_eq_true, Bool.not_eq_true',
            not_or, Bool.not_eq_false, Bool.not_eq_true] at hopen
          refine ⟨⟨rfl, rfl, rfl, .inl rfl, fun _ h => h⟩, .observed ?_ hopen.1 hopen.2 ?_ hopen.2 rfl⟩
          · simpa using hexternal
          simp only [Bool.false_eq_true, if_false]
          cases state <;> exact WatcherStatus.noConfusion

theorem claimWatcherCancel_moves (projectId id requestedBy now : String) :
    Moves reconciles s (claimWatcherCancel projectId id requestedBy now) := by
  unfold claimWatcherCancel
  refine Ends.ite (fun _ => moves_refuse _) fun _ => ?_
  refine Ends.read ?_
  cases hw : (s.watchers.get? id).filter fun w => w.projectId = projectId with
  | none => exact moves_refuse _
  | some current =>
      refine Ends.ite (fun _ => moves_refuse _) fun hexternal => ?_
      refine Ends.ite (fun _ => moves_pure hs _) fun _ => ?_
      refine Moves.bind (changes_move hs ?_) fun _ t ht => moves_pure ht _
      intro w hw'
      rw [Option.filter_eq_some_iff, hw'] at hw
      cases hw.1
      refine ⟨⟨rfl, rfl, rfl, .inl rfl, ?_⟩, .kept rfl rfl rfl rfl rfl⟩
      intro hg
      rw [hg, Bool.true_or] at hexternal
      exact absurd rfl hexternal

theorem recordWatcherCancelResult_moves (id : String) (requestedAt error : Option String) :
    Moves reconciles s (recordWatcherCancelResult id requestedAt error) :=
  updates_move hs fun _ _ _ _ => ⟨⟨rfl, rfl, rfl, .inl rfl, fun _ h => h⟩, .kept rfl rfl rfl rfl rfl⟩

theorem completeWatcherCancel_moves (id requestedAt : String) (cancelPerformed : Bool)
    (now : String) : Moves reconciles s (completeWatcherCancel id requestedAt cancelPerformed now) := by
  refine updates_move hs ?_
  intro _ w _ hpick
  have hframe : w.Frame reconciles
      { w with cancelRequestedAt := if cancelPerformed then w.cancelRequestedAt else none } := by
    refine ⟨rfl, rfl, rfl, .inl rfl, ?_⟩
    intro _ hnone
    simp [hnone]
  obtain ⟨hp, ht, hg, ha, hc⟩ := hframe
  by_cases hst : w.status = .stopped
  · exact ⟨⟨hp, ht, hg, ha, hc⟩, .kept (by simp [hst]) rfl rfl rfl rfl⟩
  · refine ⟨⟨hp, ht, hg, ha, hc⟩, .finished ?_ hst (by simp [hst]) rfl rfl⟩
    have hcancel : w.cancelRequestedAt = some requestedAt := by
      simpa using (Bool.and_eq_true_iff.mp hpick).2
    rw [hcancel]
    rfl

theorem recordWatcherWakeError_moves (ids : List String) (reason : String) :
    Moves reconciles s (recordWatcherWakeError ids reason) :=
  updates_move hs fun _ _ _ _ => ⟨⟨rfl, rfl, rfl, .inl rfl, fun _ h => h⟩, .kept rfl rfl rfl rfl rfl⟩

omit hs in
theorem settleGraph_write {w : Watcher} (hr : reconciles) (h : w.awaits = true) (now : String)
    (result : GraphResult) : w.Step reconciles (fun _ => False) (w.settleGraph now result) := by
  obtain ⟨-, -, hfree⟩ := w.awaits_iff.mp h
  cases result with
  | active => exact ⟨⟨rfl, rfl, rfl, .inl rfl, fun _ h => h⟩, .kept rfl rfl rfl rfl rfl⟩
  | completed =>
      exact ⟨⟨rfl, rfl, rfl, .inl rfl, fun _ h => h⟩, .satisfied hr h rfl hfree rfl⟩
  | removed => exact ⟨⟨rfl, rfl, rfl, .inl rfl, fun _ h => h⟩, .stopped rfl rfl rfl rfl rfl⟩

theorem recordGraphWatcherResult_moves (hr : reconciles) (id : String) (result : GraphResult) (now : String) :
    Moves reconciles s (recordGraphWatcherResult id result now) := by
  unfold recordGraphWatcherResult
  refine Ends.read ?_
  cases s.watchers.get? id with
  | none => exact moves_refuse _
  | some current =>
      refine Ends.ite (fun _ => moves_refuse _) fun _ => ?_
      refine updates_move hs ?_
      intro _ w _ hpick
      exact settleGraph_write hr (Bool.and_eq_true_iff.mp hpick).2 now result

omit hs in
/-- A baseline is given once. -/
theorem baseline_write {w : Watcher} (hr : reconciles) (h : w.armedRevision.isNone = true)
    (armedRevision : Nat) (now : String) : w.Step reconciles (fun _ => False)
      { w with armedRevision := some armedRevision, lastCheckedAt := some now } :=
  ⟨⟨rfl, rfl, rfl, .inr ⟨hr, Option.isNone_iff_eq_none.mp h⟩, fun _ h => h⟩,
    .kept rfl rfl rfl rfl rfl⟩

theorem initializeGraphWatcherBaseline_moves (hr : reconciles) (id : String)
    (armedRevision : Nat) (now : String) :
    Moves reconciles s (initializeGraphWatcherBaseline id armedRevision now) :=
  updates_move hs fun _ _ _ hpick =>
    baseline_write hr (Bool.and_eq_true_iff.mp hpick).2 armedRevision now

theorem initializeGraphWatcherTargetBaselines_moves (hr : reconciles) (projectId : String)
    (target : GraphTargetRef) (armedRevision : Nat) (now : String) :
    Moves reconciles s
      (initializeGraphWatcherTargetBaselines projectId target armedRevision now) :=
  updates_move hs fun _ _ _ hpick =>
    baseline_write hr (Bool.and_eq_true_iff.mp hpick).2 armedRevision now

omit hs in
theorem Watcher.observes_iff (projectId : String) (head : GraphHeadRef) (w : Watcher) :
    w.observes projectId head = true ↔ w.projectId = projectId ∧ w.graphTarget = head.target ∧
      w.awaits = true ∧ ∃ armed, w.armedRevision = some armed ∧ armed < head.revision := by
  cases h : w.armedRevision with
  | none => simp [Watcher.observes, h]
  | some armed => simp [Watcher.observes, h, and_assoc]

theorem consumeGraphWatcherBoundary_moves (hr : reconciles) (projectId : String) (head : GraphHeadRef)
    (evaluate : Watcher → GraphResult) (now : String) :
    Moves reconciles s (consumeGraphWatcherBoundary projectId head evaluate now) := by
  unfold consumeGraphWatcherBoundary
  refine Ends.read ?_
  cases alreadyConsumed s projectId head with
  | error e => exact moves_refuse _
  | ok known =>
      cases known with
      | true => exact moves_pure hs _
      | false =>
          refine Moves.bind (updates_move hs ?_) fun _ t ht => ?_
          · intro _ w _ hpick
            obtain ⟨-, -, hawaits, -⟩ := (w.observes_iff projectId head).mp hpick
            exact settleGraph_write hr hawaits now _
          · refine Ends.write (Ends.pure ?_)
            exact Moved.of_rows ht rfl (fun hnot => absurd hr hnot)
              (fun id w' hnone hsome => by rw [hnone] at hsome; cases hsome)
              fun id w hw => ⟨w, hw, ⟨⟨rfl, rfl, rfl, .inl rfl, fun _ h => h⟩, .kept rfl rfl rfl rfl rfl⟩⟩

end Observing

section Stopping

variable (hs : s.Sound)

include hs

theorem stopChatWatchers_moves (projectId chatId now : String) :
    Moves reconciles s (stopChatWatchers projectId chatId now) :=
  updates_move hs fun _ w _ _ => stop_write .human none now w

theorem stopWatchers_moves (projectId : String) (ids : List String) (observingOnly : Bool)
    (stoppedBy : StoppedBy) (now : String) :
    Moves reconciles s (stopWatchers projectId ids observingOnly stoppedBy now) := by
  unfold stopWatchers
  refine Ends.ite (fun _ => moves_refuse _) fun _ => ?_
  refine Ends.read (moves_pass ?_)
  exact updates_move hs fun _ w _ _ => stop_write stoppedBy none now w

theorem requestAutoResearchChildWorkStop_moves (workerId : String) (known : Bool)
    (now : String) : Moves reconciles s (requestAutoResearchChildWorkStop workerId known now) := by
  unfold requestAutoResearchChildWorkStop
  refine Ends.ite (fun _ => moves_refuse _) fun _ => ?_
  exact updates_move hs fun _ w _ _ => stop_write .loop _ now w

theorem settleAutoResearchWatchers_moves (ending : AutoResearchEnding) :
    Moves reconciles s (settleAutoResearchWatchers ending) := by
  unfold settleAutoResearchWatchers
  refine Ends.ite (fun _ => moves_refuse _) fun _ => ?_
  exact updates_move hs fun _ w _ _ => stop_write .loop _ ending.stoppedAt w

theorem settleExperimentEpisodeWrapup_moves (episodeId : String) (ready : Bool) (now : String) :
    Moves reconciles s (settleExperimentEpisodeWrapup episodeId ready now) := by
  unfold settleExperimentEpisodeWrapup
  refine Ends.ite (fun _ => moves_pure hs _) fun _ => ?_
  exact Moves.bind (updates_move hs fun _ w _ _ => stopForLoop_write now w)
    fun _ t ht => moves_pure ht _

theorem settleExperimentLoopStop_moves (stop : LoopStop) (now : String) :
    Moves reconciles s (settleExperimentLoopStop stop now) := by
  unfold settleExperimentLoopStop
  refine Ends.ite (fun _ => moves_pure hs _) fun _ => ?_
  refine Ends.read ?_
  exact Moves.bind (updates_move hs fun _ w _ _ => stopForLoop_write now w)
    fun _ t ht => moves_pure ht _

theorem detachWatchersForRestore_moves (detail confirmer now : String) :
    Moves reconciles s (detachWatchersForRestore detail confirmer now) := by
  unfold detachWatchersForRestore
  refine Ends.ite (fun _ => moves_refuse _) fun _ => ?_
  refine Moves.bind (updates_move hs fun _ _ _ _ => ⟨⟨rfl, rfl, rfl, .inl rfl, fun _ h => h⟩, .kept rfl rfl rfl rfl rfl⟩) fun _ t ht => ?_
  exact updates_move ht fun _ _ _ _ => ⟨⟨rfl, rfl, rfl, .inl rfl, fun _ h => h⟩, .stopped rfl rfl rfl rfl (isSome_or_some _ _)⟩

theorem resolveWatcherDeliveryAuthorizer_moves (read : AuthorizerReader) (ids : List String)
    (members : Option Refusal) (now : String) :
    Moves reconciles s (resolveWatcherDeliveryAuthorizer read ids members now) := by
  unfold resolveWatcherDeliveryAuthorizer
  refine Ends.ite (fun _ => moves_refuse _) fun _ => ?_
  refine Ends.read ?_
  refine Ends.ite (fun _ => moves_pure hs _) fun _ => ?_
  refine moves_pass ?_
  dsimp only
  cases deliveryAuthorizer read
      ((Text.sortedSet ((s.select ids Watcher.deliverable).map
        fun r => r.2.originOperationId)).map s.tasks.get?) with
  | ok human => exact moves_pure hs _
  | error diagnostic =>
      refine Moves.bind (updates_move hs ?_) fun _ t ht => moves_pure ht _
      exact fun _ _ _ _ => ⟨⟨rfl, rfl, rfl, .inl rfl, fun _ h => h⟩, .stopped rfl rfl rfl rfl (isSome_or_some _ _)⟩

end Stopping

section Arming

/-- A row as a handover makes it: it waits, or is settled already. -/
structure Watcher.New (w : Watcher) : Prop where
  status : w.status ≠ .stopped
  notified : w.notified = false
  unclaimed : w.notificationOperationId = none
  uncancelled : w.cancelRequestedAt = none
  armed : w.graphCondition.isSome → w.armedRevision.isSome

/-- A row that may be stored: new, or stopped before it was. -/
structure Watcher.Storable (w : Watcher) : Prop where
  sound : w.Sound
  unclaimed : w.notificationOperationId = none
  armed : w.awaits = true → w.armedRevision.isSome

theorem Watcher.New.storable {w : Watcher} (h : w.New) : w.Storable where
  sound := by
    refine ⟨?_, ?_, fun hst => absurd hst h.status, fun _ => h.uncancelled⟩
    · rw [h.unclaimed]
      intro hc
      cases hc
    · rw [h.notified]
      intro hn
      cases hn
  unclaimed := h.unclaimed
  armed hw := h.armed (w.awaits_iff.mp hw).1

theorem new_record (new : NewWatcher) : new.record.New := by
  have hfirst : ∀ complete, firstStatus complete ≠ .stopped := by
    intro complete
    cases complete <;> exact WatcherStatus.noConfusion
  unfold NewWatcher.record
  cases new.observation with
  | external => exact ⟨hfirst _, rfl, rfl, rfl, fun h => by cases h⟩
  | graph => exact ⟨hfirst _, rfl, rfl, rfl, fun _ => rfl⟩

theorem new_prepare (backoff : Backoff) (id : String) {w : Watcher} (h : w.New) :
    (prepareWatcherForInsert backoff id w).New := by
  obtain ⟨hst, hn, hc, hu, ha⟩ := h
  unfold prepareWatcherForInsert
  dsimp only
  split <;> split <;> exact ⟨hst, hn, hc, hu, ha⟩

/-- A row stopped before it is stored, whatever the reason given. -/
theorem storable_of_stopped {w : Watcher} (hs : w.status = .stopped) (hn : w.notified = true)
    (hb : w.stoppedBy.isSome) (ha : w.stoppedAt.isSome) (hc : w.notificationOperationId = none)
    (hg : w.graphCondition.isSome → w.cancelRequestedAt = none) : w.Storable where
  sound := ⟨fun _ => hn, fun _ => .inl hs, fun _ => ⟨hn, hb, ha⟩, hg⟩
  unclaimed := hc
  armed hw := by
    rw [(w.awaits_iff.mp hw).2.1] at hs
    cases hs

theorem Watcher.Storable.bornStopped {w : Watcher} (h : w.Storable) (now : String) :
    (w.bornStopped now).Storable :=
  storable_of_stopped rfl rfl rfl rfl h.unclaimed h.sound.uncancelled

theorem Watcher.Storable.stoppedAtBirth {w : Watcher} (h : w.Storable)
    (answers : ArmingAnswers) : (w.stoppedAtBirth answers).Storable := by
  unfold Watcher.stoppedAtBirth
  cases answers.childRoute.bind ChildRoute.stopRequestedAt with
  | none =>
      cases answers.stoppedEpisode with
      | none => exact h
      | some stoppedAt =>
          dsimp only
          split
          · exact h
          · exact h.bornStopped stoppedAt
  | some routed =>
      have hborn := storable_of_stopped (w := { w.bornStopped routed with
        stopReason := some "Auto-research child Work stopped." }) rfl rfl rfl rfl h.unclaimed
        h.sound.uncancelled
      cases answers.stoppedEpisode with
      | none => exact hborn
      | some stoppedAt =>
          dsimp only
          rw [if_pos (by rfl)]
          exact hborn

/-- A condition that is not behind its target's head is armed ahead of it. -/
theorem armedAhead_of_not_behind {w : Watcher} (hw : w.awaits = true)
    (harmed : w.armedRevision.isSome) (h : ¬ behindConsumed s w = true) : s.ArmedAhead w := by
  obtain ⟨armed, ha⟩ := Option.isSome_iff_exists.mp harmed
  obtain ⟨hg, hactive, -⟩ := w.awaits_iff.mp hw
  refine ⟨armed, ha, ?_⟩
  intro head hhead
  simp only [behindConsumed, hg, hactive, ha, hhead, Bool.true_and, ne_eq, reduceCtorEq,
    not_false_eq_true, decide_true, decide_eq_true_eq, not_lt] at h
  exact h

variable (hs : s.Sound)

include hs

theorem insertWatcher_moves (answers : ArmingAnswers) (id : String) {record : Watcher}
    (hrecord : record.Storable) : Moves reconciles s (insertWatcher answers id record) := by
  have hrow := hrecord.stoppedAtBirth answers
  unfold insertWatcher
  refine Ends.read (moves_pass ?_)
  refine Ends.ite (fun _ => moves_refuse _) fun hahead => ?_
  refine Ends.ite (fun _ => moves_refuse _) fun hnew => ?_
  refine Ends.modify (Moved.of_rows hs rfl (fun _ => rfl) ?_ ?_)
  · intro id' w' hnone hsome
    rw [Dict.get?_insert] at hsome
    by_cases hid : id' = id
    · rw [if_pos hid] at hsome
      cases hsome
      refine ⟨hrow.sound, hrow.unclaimed, ?_⟩
      intro hw
      exact armedAhead_of_not_behind hw (hrow.armed hw) hahead
    · rw [if_neg hid, hnone] at hsome
      cases hsome
  · intro id' w hw
    refine ⟨w, ?_, ⟨⟨rfl, rfl, rfl, .inl rfl, fun _ h => h⟩, .kept rfl rfl rfl rfl rfl⟩⟩
    have hne : id' ≠ id := by
      rintro rfl
      exact hnew (Dict.mem_of_get? hw)
    rw [Dict.get?_insert, if_neg hne]
    exact hw

theorem insertWatchers_moves (answers : ArmingAnswers) {records : List (String × Watcher)}
    (hnew : ∀ r ∈ records, r.2.New) : Moves reconciles s (insertWatchers answers records) := by
  induction records generalizing s with
  | nil => exact moves_pure hs _
  | cons r rest ih =>
      have hr := hnew r List.mem_cons_self
      refine Moves.bind (insertWatcher_moves hs answers r.1 hr.storable) fun _ t ht => ?_
      exact ih ht fun r' hr' => hnew r' (List.mem_cons_of_mem r hr')

omit hs in
theorem new_prepared (backoff : Backoff) (list : List NewWatcher) :
    ∀ r ∈ prepared backoff list, r.2.New := by
  intro r hr
  obtain ⟨new, -, rfl⟩ := List.mem_map.mp hr
  exact new_prepare backoff _ (new_record new)

theorem createWatchers_moves (backoff : Backoff) (answers : ArmingAnswers)
    (list : List NewWatcher) : Moves reconciles s (createWatchers backoff answers list) := by
  unfold createWatchers
  exact moves_pass (insertWatchers_moves hs answers (new_prepared backoff list))

theorem retireWatchers_moves (operationId now : String) (stops : List WatcherStopRequest) :
    Moves reconciles s (retireWatchers operationId now stops) := by
  induction stops generalizing s with
  | nil => exact moves_pure hs _
  | cons stop rest ih =>
      unfold retireWatchers
      refine Ends.read ?_
      refine Ends.ite (fun _ => ih hs) fun _ => ?_
      refine Ends.ite (fun _ => moves_refuse _) fun _ => ?_
      refine Moves.bind (changes_move hs ?_) fun _ t ht => ih ht
      exact fun _ _ => ⟨⟨rfl, rfl, rfl, .inl rfl, fun _ h => h⟩, .stopped rfl rfl rfl rfl rfl⟩

theorem applyAgentWatcherStops_moves (binding : WatcherBinding) (answers : HandoffAnswers)
    (stops : List WatcherStopRequest) (now : String) :
    Moves reconciles s (applyAgentWatcherStops binding answers stops now) := by
  unfold applyAgentWatcherStops
  refine moves_pass (Ends.read (moves_pass ?_))
  exact retireWatchers_moves hs _ now stops

theorem stagedStops_moves (binding : WatcherBinding) (answers : HandoffAnswers)
    (stops : List WatcherStopRequest) (now : String) :
    Moves reconciles s (stagedStops binding answers stops now) := by
  unfold stagedStops
  exact Ends.ite (fun _ => moves_pure hs _) fun _ => applyAgentWatcherStops_moves hs _ _ _ _

theorem persistWatcher_moves (answers : HandoffAnswers) (now id : String) {desired : Watcher}
    (hnew : desired.New) : Moves reconciles s (persistWatcher answers now id desired) := by
  unfold persistWatcher
  refine Ends.read ?_
  cases s.watchers.get? id with
  | some existing =>
      refine Ends.ite (fun _ => moves_refuse _) fun _ => ?_
      refine Ends.ite (fun _ => ?_) fun _ => moves_pure hs _
      exact changes_move hs fun w _ => stopForLoop_write now w
  | none =>
      cases answers.stopped with
      | true =>
          exact insertWatcher_moves hs answers.arming id (hnew.storable.bornStopped now)
      | false => exact insertWatcher_moves hs answers.arming id hnew.storable

theorem persistWatchers_moves (answers : HandoffAnswers) (now : String)
    {records : List (String × Watcher)} (hnew : ∀ r ∈ records, r.2.New) :
    Moves reconciles s (persistWatchers answers now records) := by
  induction records generalizing s with
  | nil => exact moves_pure hs _
  | cons r rest ih =>
      refine Moves.bind (persistWatcher_moves hs answers now r.1 (hnew r List.mem_cons_self))
        fun _ t ht => ?_
      exact ih ht fun r' hr' => hnew r' (List.mem_cons_of_mem r hr')

theorem persistExperimentWatchersIdempotently_moves (backoff : Backoff) (answers : HandoffAnswers)
    (binding : WatcherBinding) (list : List NewWatcher) (stops : List WatcherStopRequest)
    (now : String) :
    Moves reconciles s (persistExperimentWatchersIdempotently backoff answers binding list stops now) := by
  unfold persistExperimentWatchersIdempotently
  refine Ends.ite (fun _ => moves_pure hs _) fun _ => ?_
  refine moves_pass ?_
  refine Ends.ite (fun _ => moves_refuse _) fun _ => ?_
  refine Ends.ite (fun _ => moves_refuse _) fun _ => ?_
  refine Ends.ite (fun _ => moves_refuse _) fun _ => ?_
  refine moves_pass ?_
  refine Moves.bind (stagedStops_moves hs binding answers stops now) fun _ t ht => ?_
  refine Ends.read (moves_pass ?_)
  refine Moves.bind (persistWatchers_moves ht answers now (new_prepared backoff list))
    fun _ u hu => ?_
  exact (pass_ends _ u).weaken (fun _ _ hv => by rw [hv]; exact Moved.refl hu) fun _ h => h

end Arming

section Claims

/-- The store with one more task. -/
def Store.addTask (s : Store) (record : AgentTaskRecord) (cause : ContinuationCause) : Store :=
  { s with tasks := s.tasks.insert record.operationId ⟨record, cause⟩ }

theorem insertAgentTask_ends (record : AgentTaskRecord) (cause : ContinuationCause)
    (check : Option Refusal) (s : Store) :
    Ends (fun _ t => record.operationId ∉ s.tasks ∧ t = s.addTask record cause) (fun _ => True)
      (insertAgentTask record cause check s) := by
  unfold insertAgentTask
  refine (pass_ends check s).bind ?_
  rintro _ _ rfl
  refine Ends.read ?_
  exact Ends.ite (fun _ => Ends.raise trivial) fun hnew => Ends.modify ⟨hnew, rfl⟩

theorem get?_addTask (s : Store) (record : AgentTaskRecord) (cause : ContinuationCause)
    (op : String) : (s.addTask record cause).tasks.get? op =
      if op = record.operationId then some ⟨record, cause⟩ else s.tasks.get? op := by
  rw [Store.addTask, Dict.get?_insert]

/-- A claim that counts as many rows as it names has reached each of them. -/
theorem mem_of_rowcount {ids : List String} {keeps : Watcher → Bool}
    (h : s.rowcount (fun id w => id ∈ ids && keeps w) = ids.length) {id : String}
    (hid : id ∈ ids) : ∃ w, s.watchers.get? id = some w ∧ keeps w = true := by
  let kept := s.watchers.filter fun id w => decide (id ∈ ids) && keeps w
  have hsubset : kept.keys ⊆ ids := by
    intro id' hid'
    obtain ⟨w, hw⟩ := (Dict.mem_iff_exists kept id').mp hid'
    rw [Dict.get?_filter, Option.filter_eq_some_iff] at hw
    exact of_decide_eq_true (Bool.and_eq_true_iff.mp hw.2).1
  have hlength : ids.length ≤ kept.keys.length := by
    rw [Dict.keys, List.length_map]
    exact h.ge
  have hperm := (List.subperm_of_subset kept.nodup hsubset).perm_of_length_le hlength
  obtain ⟨w, hw⟩ := (Dict.mem_iff_exists kept id).mp (hperm.mem_iff.mpr hid)
  rw [Dict.get?_filter, Option.filter_eq_some_iff] at hw
  exact ⟨w, hw.1, (Bool.and_eq_true_iff.mp hw.2).2⟩

variable (hs : s.Sound)

include hs

/-- A task that names no watcher, or takes over the request of another. -/
theorem addTask_moved {record : AgentTaskRecord} {cause : ContinuationCause}
    (hnew : record.operationId ∉ s.tasks)
    (hnames : cause.recovers = false → record.request.watcherIds.getD [] = []) :
    Moved reconciles s (s.addTask record cause) where
  sound := hs
  rows _ w hw := ⟨w, hw, .refl w⟩
  born _ id w' hnone hsome := by
    have hsame : (s.addTask record cause).watchers.get? id = s.watchers.get? id := rfl
    rw [hsame, hnone] at hsome
    cases hsome
  consumed _ := rfl
  tasks op task htask := by
    rw [get?_addTask, if_neg]
    · exact htask
    · rintro rfl
      exact hnew (Dict.mem_of_get? htask)
  claims id op hnone hsome := by
    have hsame : (s.addTask record cause).claimOf id = s.claimOf id := rfl
    rw [hsame, hnone] at hsome
    cases hsome
  named op task hop htask hcause id hid := by
    rw [get?_addTask] at htask
    by_cases hop' : op = record.operationId
    · rw [if_pos hop'] at htask
      cases htask
      rw [Task.names, hnames hcause] at hid
      cases hid
    · rw [if_neg hop'] at htask
      exact absurd (Dict.mem_of_get? htask) hop

/-- The claim of a queued task, on the rows it names. -/
theorem claim_moved {record : AgentTaskRecord} {cause : ContinuationCause}
    (hnew : record.operationId ∉ s.tasks) (hcause : cause.recovers = false) {ids : List String}
    (hnames : ∀ id, id ∈ record.request.watcherIds.getD [] ↔ id ∈ ids) {keeps : Watcher → Bool}
    (hkeeps : ∀ w, keeps w = true → w.pending = true)
    (hcount : s.rowcount (fun id w => id ∈ ids && keeps w) = ids.length) :
    Moved reconciles s ((s.addTask record cause).updateWatchers (fun id w => id ∈ ids && keeps w)
      (Watcher.claim record.operationId)) := by
  have hget := get?_updateWatchers (s.addTask record cause) (fun id w => id ∈ ids && keeps w)
    (Watcher.claim record.operationId)
  generalize hu : (s.addTask record cause).updateWatchers _ _ = u at hget
  have htasks : u.tasks = (s.addTask record cause).tasks := by rw [← hu]; rfl
  have hrows : ∀ id w, s.watchers.get? id = some w →
      ∃ w', u.watchers.get? id = some w' ∧ w.Step reconciles (· = record.operationId) w' := by
    intro id w hw
    have hget' := hget id
    rw [show (s.addTask record cause).watchers.get? id = some w from hw, Option.map_some] at hget'
    refine ⟨_, hget', ?_⟩
    by_cases hp : (decide (id ∈ ids) && keeps w) = true
    · rw [if_pos hp]
      obtain ⟨hready, hfree⟩ := Bool.and_eq_true_iff.mp (hkeeps w (Bool.and_eq_true_iff.mp hp).2)
      exact ⟨⟨rfl, rfl, rfl, .inl rfl, fun _ h => h⟩,
        .claimed _ rfl hready (by simpa using hfree) rfl rfl rfl⟩
    · rw [if_neg hp]
      exact ⟨⟨rfl, rfl, rfl, .inl rfl, fun _ h => h⟩, .kept rfl rfl rfl rfl rfl⟩
  have hborn : ∀ id w', u.watchers.get? id = some w' → ∃ w, s.watchers.get? id = some w := by
    intro id w' hw'
    rw [hget id] at hw'
    obtain ⟨w, hw, -⟩ := Option.map_eq_some_iff.mp hw'
    exact ⟨w, hw⟩
  refine ⟨?_, ?_, ?_, ?_, ?_, ?_, ?_⟩
  · intro id w' hw'
    obtain ⟨w, hw⟩ := hborn id w' hw'
    obtain ⟨w'', hw'', hwrite⟩ := hrows id w hw
    rw [hw'] at hw''
    cases hw''
    exact hwrite.sound (hs id w hw)
  · intro id w hw
    obtain ⟨w', hw', hwrite⟩ := hrows id w hw
    exact ⟨w', hw', hwrite.since (hs id w hw)⟩
  · intro _ id w' hnone hsome
    obtain ⟨w, hw⟩ := hborn id w' hsome
    rw [hnone] at hw
    cases hw
  · intro _
    rw [← hu]
    rfl
  · intro op task htask
    rw [htasks, get?_addTask, if_neg]
    · exact htask
    · rintro rfl
      exact hnew (Dict.mem_of_get? htask)
  · intro id op hnone hsome
    obtain ⟨w', hw', hop⟩ := Option.bind_eq_some_iff.mp hsome
    rw [hget id] at hw'
    obtain ⟨w, hw, rfl⟩ := Option.map_eq_some_iff.mp hw'
    have hnone' : w.notificationOperationId = none := by
      rw [Store.claimOf, show s.watchers.get? id = some w from hw] at hnone
      exact hnone
    by_cases hp : (decide (id ∈ ids) && keeps w) = true
    · rw [if_pos hp] at hop
      cases hop
      refine ⟨hnew, ⟨record, cause⟩, ?_, hcause, ?_⟩
      · rw [htasks, get?_addTask, if_pos rfl]
      · exact (hnames id).mpr (of_decide_eq_true (Bool.and_eq_true_iff.mp hp).1)
    · rw [if_neg hp, hnone'] at hop
      cases hop
  · intro op task hop htask _ id hid
    rw [htasks, get?_addTask] at htask
    by_cases hop' : op = record.operationId
    · rw [if_pos hop'] at htask
      cases htask
      have hid' := (hnames id).mp hid
      obtain ⟨w, hw, hkeep⟩ := mem_of_rowcount hcount hid'
      have hfree : w.notified = false := by
        simpa using (Bool.and_eq_true_iff.mp (hkeeps w hkeep)).2
      constructor
      · rw [Store.claimOf, hw]
        exact (hs id w hw).unclaimed hfree
      · have hget' := hget id
        rw [show (s.addTask record cause).watchers.get? id = some w from hw, Option.map_some,
          if_pos (by rw [hkeep, decide_eq_true hid']; rfl)] at hget'
        rw [Store.claimOf, hget', hop']
        rfl
    · rw [if_neg hop'] at htask
      exact absurd (Dict.mem_of_get? htask) hop

theorem startTask_moves (record : AgentTaskRecord) (cause : ContinuationCause)
    (check : Option Refusal) : Moves reconciles s (startTask record cause check) := by
  refine (insertAgentTask_ends _ cause check s).weaken ?_ fun _ h => h
  rintro _ _ ⟨hnew, rfl⟩
  exact addTask_moved hs hnew fun _ => rfl

theorem recoverTask_moves (record : AgentTaskRecord) (parentId : String)
    (cause : ContinuationCause) (check : Option Refusal) :
    Moves reconciles s (recoverTask record parentId cause check) := by
  unfold recoverTask
  refine Ends.read ?_
  cases s.tasks.get? parentId with
  | none => exact moves_refuse _
  | some parent =>
      refine Ends.ite (fun _ => moves_refuse _) fun hcause => ?_
      refine (insertAgentTask_ends _ cause check s).weaken ?_ fun _ h => h
      rintro _ _ ⟨hnew, rfl⟩
      refine addTask_moved hs hnew fun hnot => ?_
      rw [hnot] at hcause
      exact absurd rfl hcause

omit hs in
theorem mem_of_namesExactly {record : AgentTaskRecord} {ids : List String}
    (h : namesExactly record ids = true) (id : String) :
    id ∈ record.request.watcherIds.getD [] ↔ id ∈ ids := by
  unfold namesExactly at h
  cases hrequested : record.request.watcherIds with
  | none =>
      rw [hrequested] at h
      cases h
  | some requested =>
      rw [hrequested, Option.any_some] at h
      simp only [Bool.and_eq_true, List.all_eq_true, decide_eq_true_eq] at h
      exact ⟨h.1.2 id, h.2 id⟩

omit hs in
theorem recovers_wake (wake : WakeCause) : wake.cause.recovers = false := by
  cases wake <;> rfl

/-- A task is queued, and the watchers it names are claimed for it. -/
theorem claimWatchers_moves {record : AgentTaskRecord} {cause : ContinuationCause}
    (hnew : record.operationId ∉ s.tasks) (hcause : cause.recovers = false) {ids : List String}
    (hnames : ∀ id, id ∈ record.request.watcherIds.getD [] ↔ id ∈ ids) {keeps : Watcher → Bool}
    (hkeeps : ∀ w, keeps w = true → w.pending = true) (changed : Refusal) :
    Ends (fun _ t => Moved reconciles s t) (fun _ => True)
      (claimWatchers keeps record.operationId ids changed (s.addTask record cause)) := by
  unfold claimWatchers
  refine Ends.read ?_
  refine Ends.ite (fun _ => Ends.raise trivial) fun hcount => ?_
  exact Ends.modify (claim_moved hs hnew hcause hnames hkeeps (not_not.mp hcount))

theorem createWatcherNotificationTask_moves (record : AgentTaskRecord) (ids : List String)
    (wake : WakeCause) (answers : NotificationAnswers) :
    Moves reconciles s (createWatcherNotificationTask record ids wake answers) := by
  unfold createWatcherNotificationTask
  refine moves_pass ?_
  refine Ends.ite (fun _ => moves_refuse _) fun _ => ?_
  refine Ends.ite (fun _ => moves_refuse _) fun _ => ?_
  refine Ends.ite (fun _ => moves_refuse _) fun hnames => ?_
  refine Ends.read (moves_pass ?_)
  refine Ends.ite (fun _ => moves_pure hs _) fun _ => ?_
  refine Ends.ite (fun _ => moves_refuse _) fun _ => ?_
  refine Ends.ite (fun _ => moves_pure hs _) fun _ => ?_
  refine (insertAgentTask_ends record wake.cause answers.insertion s).bind ?_
  rintro _ _ ⟨hnew, rfl⟩
  refine Ends.bind (R := fun _ t => Moved reconciles s t)
    (claimWatchers_moves hs hnew (recovers_wake wake) ?_ (fun _ h => h) _) ?_
  · exact mem_of_namesExactly (by simpa using hnames)
  · exact fun _ _ ht => Ends.pure ht

omit hs in
theorem pending_of_deliverable {w : Watcher} (h : w.deliverable = true) : w.pending = true := by
  simp only [Watcher.deliverable, Watcher.unclaimed, Watcher.pending, Bool.and_eq_true] at h ⊢
  exact ⟨h.1, h.2.1⟩

theorem createChildWorkWatcherWake_moves (record : AgentTaskRecord) (ids : List String)
    (answers : ChildWakeAnswers) : Moves reconciles s (createChildWorkWatcherWake record ids answers) := by
  unfold createChildWorkWatcherWake
  refine Ends.read (moves_pass ?_)
  refine Ends.ite (fun _ => moves_pure hs _) fun _ => ?_
  refine Ends.ite (fun _ => moves_refuse _) fun hnames => ?_
  refine Ends.ite (fun _ => moves_pure hs _) fun _ => ?_
  refine (insertAgentTask_ends record .watcherWake answers.insertion s).bind ?_
  rintro _ _ ⟨hnew, rfl⟩
  refine Ends.ite (fun _ => Ends.raise trivial) fun _ => ?_
  refine Ends.bind (R := fun _ t => Moved reconciles s t)
    (claimWatchers_moves hs hnew rfl ?_ (fun _ => pending_of_deliverable) _) ?_
  · rw [not_not.mp hnames]
    exact fun _ => Iff.rfl
  · exact fun _ _ ht => Ends.pure ht

omit hs in
theorem namesExactly_of_experimentIds {record : AgentTaskRecord} {ids : List String}
    (h : experimentIdsProblem record ids = none) : namesExactly record ids = true := by
  unfold experimentIdsProblem at h
  by_cases hnames : namesExactly record ids = true
  · exact hnames
  · split at h
    · cases h
    · rw [Bool.not_eq_true] at hnames
      rw [hnames] at h
      cases h

theorem createExperimentClaim_moves (record : AgentTaskRecord) (ids : List String)
    (wake : WakeCause) (answers : ExperimentClaimAnswers) :
    Moves reconciles s (createExperimentClaim record ids wake answers) := by
  unfold createExperimentClaim
  refine moves_pass ?_
  cases hids : experimentIdsProblem record ids with
  | some e => exact moves_refuse _
  | none =>
      have hnames := mem_of_namesExactly (namesExactly_of_experimentIds hids)
      refine moves_pass (Ends.read (moves_pass (moves_pass ?_)))
      refine Ends.ite (fun _ => moves_pure hs _) fun _ => ?_
      refine (insertAgentTask_ends record wake.cause answers.insertion s).bind ?_
      rintro _ _ ⟨hnew, rfl⟩
      refine (pass_ends answers.invocation _).bind ?_
      rintro _ _ rfl
      refine Ends.bind (R := fun _ t => Moved reconciles s t) ?_ fun _ _ ht => Ends.pure ht
      unfold claimExperimentWatchers
      refine Ends.ite (fun hempty => Ends.pure ?_) fun _ => ?_
      · refine addTask_moved hs hnew fun _ => List.eq_nil_iff_forall_not_mem.mpr fun id hid => ?_
        rw [List.isEmpty_iff.mp hempty] at hnames
        exact List.not_mem_nil ((hnames id).mp hid)
      · exact claimWatchers_moves hs hnew (recovers_wake wake) hnames (fun _ h => h) _

end Claims

end RcpGraph.Watchers
