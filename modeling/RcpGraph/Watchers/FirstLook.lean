import RcpGraph.Watchers.Boundaries

/-!
The row of a condition that the first look already finds satisfied. It is stored completed,
or stopped when a stop came before it.
-/

namespace RcpGraph.Watchers

open Crash

variable {rt : Runtime} {s : Store} {condition : GraphCondition} {armed : Nat}

/-- Whether a stop finds a task's watchers before they are stored. -/
def ArmingAnswers.stops (answers : ArmingAnswers) : Bool :=
  (answers.childRoute.bind ChildRoute.stopRequestedAt).isSome || answers.stoppedEpisode.isSome

/-- The watch list that a transaction stores. -/
def Transaction.handedOver : Transaction → List NewWatcher
  | .arm _ list | .handOver _ _ list _ _ => list
  | _ => []

/-- Whether the rows of a transaction's watch list are born stopped. -/
def Transaction.stopsNew : Transaction → Bool
  | .arm answers _ => answers.stops
  | .handOver answers _ _ _ _ => answers.stopped || answers.arming.stops
  | _ => false

/-- The row of a condition that was satisfied when it was armed. -/
structure Watcher.Satisfied (condition : GraphCondition) (armed : Nat) (stopped : Bool)
    (w : Watcher) : Prop where
  graphCondition : w.graphCondition = some condition
  armedRevision : w.armedRevision = some armed
  status : w.status = if stopped then .stopped else .completed

namespace Watcher.Satisfied

variable {stopped : Bool} {w : Watcher}

theorem bornStopped (h : w.Satisfied condition armed stopped) (now : String) :
    (w.bornStopped now).Satisfied condition armed true :=
  ⟨h.graphCondition, h.armedRevision, rfl⟩

theorem stoppedAtBirth (h : w.Satisfied condition armed stopped) (answers : ArmingAnswers) :
    (w.stoppedAtBirth answers).Satisfied condition armed (stopped || answers.stops) := by
  unfold Watcher.stoppedAtBirth ArmingAnswers.stops
  cases answers.childRoute.bind ChildRoute.stopRequestedAt with
  | some routed =>
      have hborn : Watcher.Satisfied condition armed true { w.bornStopped routed with
          stopReason := some "Auto-research child Work stopped." } :=
        ⟨h.graphCondition, h.armedRevision, rfl⟩
      rw [Option.isSome_some, Bool.true_or, Bool.or_true]
      cases answers.stoppedEpisode with
      | none => exact hborn
      | some stoppedAt => exact hborn
  | none =>
      cases answers.stoppedEpisode with
      | none =>
          rw [Option.isSome_none, Bool.or_self, Bool.or_false]
          exact h
      | some stoppedAt =>
          rw [Option.isSome_some, Option.isSome_none, Bool.or_true, Bool.or_true]
          dsimp only
          split
          · case isTrue hstopped => exact ⟨h.graphCondition, h.armedRevision, hstopped⟩
          · exact h.bornStopped stoppedAt

end Watcher.Satisfied

theorem prepared_satisfied (backoff : Backoff) (id : String) {new : NewWatcher}
    (hnew : new.observation = .graph condition armed true) :
    (prepareWatcherForInsert backoff id new.record).Satisfied condition armed false := by
  have hrecord : new.record.Satisfied condition armed false := by
    unfold NewWatcher.record
    rw [hnew]
    exact ⟨rfl, rfl, rfl⟩
  unfold prepareWatcherForInsert
  have hgraph := hrecord.graphCondition
  split <;> simp only [hgraph, Option.isSome_some, Bool.true_or, if_true]
  · exact ⟨rfl, hrecord.armedRevision, hrecord.status⟩
  · exact hrecord

/-- What a satisfied first look finds. -/
theorem firstLook_completed {removed : String → String} {state : GraphState rt}
    {observation : Observation}
    (hlook : firstLook removed condition state armed = .ok observation)
    (hresult : graphConditionResult condition state armed = .completed) :
    observation = .graph condition armed true := by
  unfold firstLook at hlook
  rw [hresult] at hlook
  cases hlook
  rfl

/-- The check passed, and nothing changed. -/
theorem passed_ends (check : Option Refusal) (s : Store) :
    Ends (fun _ t => t = s ∧ check = none) (fun _ => True) (pass check s) := by
  cases check with
  | none => exact Ends.pure ⟨rfl, rfl⟩
  | some e => exact Ends.raise trivial

theorem watchListProblem_nodup {records : List (String × Watcher)}
    (h : watchListProblem records = none) : (records.map Prod.fst).Nodup := by
  cases records with
  | nil => exact List.nodup_nil
  | cons first rest =>
      by_contra hdup
      unfold watchListProblem at h
      dsimp only at h
      rw [if_pos hdup] at h
      cases h

section Lists

/-- A transaction that stores `row` of a new record under its id, and no other row. -/
def Stores (row : Watcher → Watcher) (store : String → Watcher → Txn PUnit) : Prop :=
  ∀ id record s, Ends (fun _ t =>
    (s.watchers.get? id = none → t.watchers.get? id = some (row record)) ∧
      ∀ other, other ≠ id → t.watchers.get? other = s.watchers.get? other)
    (fun _ => True) (store id record s)

variable {row : Watcher → Watcher} {store : String → Watcher → Txn PUnit}
  {loop : List (String × Watcher) → Txn PUnit}

theorem Stores.untouched (h : Stores row store) (hnil : loop [] = pure ⟨⟩)
    (hcons : ∀ r rest, loop (r :: rest) = store r.1 r.2 >>= fun _ => loop rest) {id : String}
    {records : List (String × Watcher)} (hid : id ∉ records.map Prod.fst) (s : Store) :
    Ends (fun _ t => t.watchers.get? id = s.watchers.get? id) (fun _ => True)
      (loop records s) := by
  induction records generalizing s with
  | nil =>
      rw [hnil]
      exact Ends.pure rfl
  | cons r rest ih =>
      rw [List.map_cons, List.mem_cons, not_or] at hid
      rw [hcons]
      refine (h r.1 r.2 s).bind fun _ t ht => ?_
      exact (ih hid.2 t).weaken (fun _ u hu => hu.trans (ht.2 id hid.1)) fun _ h => h

/-- After the whole list, each new record has its row. -/
theorem Stores.born (h : Stores row store) (hnil : loop [] = pure ⟨⟩)
    (hcons : ∀ r rest, loop (r :: rest) = store r.1 r.2 >>= fun _ => loop rest)
    {records : List (String × Watcher)} (hnodup : (records.map Prod.fst).Nodup)
    {id : String} {record : Watcher} (hmem : (id, record) ∈ records) {s : Store}
    (hnone : s.watchers.get? id = none) :
    Ends (fun _ t => t.watchers.get? id = some (row record)) (fun _ => True)
      (loop records s) := by
  induction records generalizing s with
  | nil => cases hmem
  | cons r rest ih =>
      rw [List.map_cons, List.nodup_cons] at hnodup
      rw [hcons]
      refine (h r.1 r.2 s).bind fun _ t ht => ?_
      rcases List.mem_cons.mp hmem with rfl | hrest
      · refine (h.untouched hnil hcons hnodup.1 t).weaken (fun _ u hu => ?_) fun _ h => h
        rw [hu]
        exact ht.1 hnone
      · have hne : id ≠ r.1 := by
          rintro rfl
          exact hnodup.1 (List.mem_map.mpr ⟨_, hrest, rfl⟩)
        exact ih hnodup.2 hrest ((ht.2 id hne).trans hnone)

end Lists

theorem insertWatcher_stores (answers : ArmingAnswers) :
    Stores (·.stoppedAtBirth answers) (insertWatcher answers) := by
  intro id record s
  unfold insertWatcher
  refine Ends.read ((pass_ends _ s).bind ?_)
  rintro ⟨⟩ _ rfl
  refine Ends.ite (fun _ => Ends.raise trivial) fun _ => ?_
  refine Ends.ite (fun _ => Ends.raise trivial) fun _ => ?_
  refine Ends.modify ⟨fun _ => ?_, fun other hne => ?_⟩
  · rw [Dict.get?_insert, if_pos rfl]
  · rw [Dict.get?_insert, if_neg hne]

theorem persistWatcher_stores (answers : HandoffAnswers) (now : String) :
    Stores (fun record => (if answers.stopped then record.bornStopped now
      else record).stoppedAtBirth answers.arming) (persistWatcher answers now) := by
  intro id record s
  unfold persistWatcher
  refine Ends.read ?_
  cases hid : s.watchers.get? id with
  | none =>
      refine (insertWatcher_stores answers.arming id _ s).weaken ?_ fun _ h => h
      exact fun _ t ht => ⟨fun _ => ht.1 hid, ht.2⟩
  | some existing =>
      refine Ends.ite (fun _ => Ends.raise trivial) fun _ => ?_
      refine Ends.ite (fun _ => ?_) fun _ => ?_
      · unfold changeWatcher updateWatchers
        refine Ends.modify ⟨fun h => (by cases h), fun other hne => ?_⟩
        rw [get?_updateWatchers]
        simp only [hne, decide_false, if_false, Bool.false_eq_true, Option.map_id']
      · exact Ends.pure ⟨fun h => (by cases h), fun _ _ => rfl⟩

/-- Retirements store no row. -/
theorem retireWatchers_absent (operationId now : String) (stops : List WatcherStopRequest)
    {id : String} (hid : s.watchers.get? id = none) :
    Ends (fun _ t => t.watchers.get? id = none) (fun _ => True)
      (retireWatchers operationId now stops s) := by
  induction stops generalizing s with
  | nil => exact Ends.pure hid
  | cons stop rest ih =>
      unfold retireWatchers
      refine Ends.read ?_
      refine Ends.ite (fun _ => ih hid) fun _ => ?_
      refine Ends.ite (fun _ => Ends.raise trivial) fun _ => ?_
      refine Ends.write (ih ?_)
      rw [get?_updateWatchers, hid]
      rfl

theorem stagedStops_absent (binding : WatcherBinding) (answers : HandoffAnswers)
    (stops : List WatcherStopRequest) (now : String) {id : String}
    (hid : s.watchers.get? id = none) :
    Ends (fun _ t => t.watchers.get? id = none) (fun _ => True)
      (stagedStops binding answers stops now s) := by
  unfold stagedStops applyAgentWatcherStops
  refine Ends.ite (fun _ => Ends.pure hid) fun _ => ?_
  refine (pass_ends _ s).bind ?_
  rintro ⟨⟩ _ rfl
  refine Ends.read ((pass_ends _ _).bind ?_)
  rintro ⟨⟩ _ rfl
  exact retireWatchers_absent _ now stops hid

section Transactions

variable {cfg : Config} {new : NewWatcher}

theorem mem_prepared (backoff : Backoff) {list : List NewWatcher} (hnew : new ∈ list) :
    (new.watcherId, prepareWatcherForInsert backoff new.watcherId new.record) ∈
      prepared backoff list :=
  List.mem_map.mpr ⟨new, hnew, rfl⟩

theorem createWatchers_satisfied (backoff : Backoff) (answers : ArmingAnswers)
    {list : List NewWatcher} (hnew : new ∈ list)
    (hlook : new.observation = .graph condition armed true)
    (hnone : s.watchers.get? new.watcherId = none) :
    Ends (fun _ t => ∃ w, t.watchers.get? new.watcherId = some w ∧
      w.Satisfied condition armed answers.stops) (fun _ => True)
      (createWatchers backoff answers list s) := by
  unfold createWatchers
  refine (passed_ends _ s).bind ?_
  rintro ⟨⟩ _ ⟨rfl, hpassed⟩
  have hnodup := watchListProblem_nodup (Option.map_eq_none_iff.mp hpassed)
  refine ((insertWatcher_stores answers).born rfl (fun _ _ => rfl) hnodup
    (mem_prepared backoff hnew) hnone).weaken ?_ fun _ h => h
  intro _ t ht
  exact ⟨_, ht, (prepared_satisfied backoff _ hlook).stoppedAtBirth answers⟩

theorem persistExperimentWatchers_satisfied (backoff : Backoff) (answers : HandoffAnswers)
    (binding : WatcherBinding) {list : List NewWatcher} (stops : List WatcherStopRequest)
    (now : String) (hnew : new ∈ list) (hlook : new.observation = .graph condition armed true)
    (hnone : s.watchers.get? new.watcherId = none) :
    Ends (fun _ t => ∃ w, t.watchers.get? new.watcherId = some w ∧
      w.Satisfied condition armed (answers.stopped || answers.arming.stops)) (fun _ => True)
      (persistExperimentWatchersIdempotently backoff answers binding list stops now s) := by
  have hlist : list ≠ [] := List.ne_nil_of_mem hnew
  have hrecords : (prepared backoff list).isEmpty = false := by
    rw [prepared, List.isEmpty_map, List.isEmpty_eq_false_iff]
    exact hlist
  unfold persistExperimentWatchersIdempotently
  rw [List.isEmpty_eq_false_iff.mpr hlist]
  dsimp only
  rw [hrecords]
  refine (passed_ends _ s).bind ?_
  rintro ⟨⟩ _ ⟨rfl, hpassed⟩
  have hnodup := watchListProblem_nodup (Option.map_eq_none_iff.mp hpassed)
  refine Ends.ite (fun _ => Ends.raise trivial) fun _ => ?_
  refine Ends.ite (fun _ => Ends.raise trivial) fun _ => ?_
  refine Ends.ite (fun _ => Ends.raise trivial) fun _ => ?_
  refine (pass_ends _ _).bind ?_
  rintro ⟨⟩ _ rfl
  refine (stagedStops_absent binding answers stops now hnone).bind fun _ t ht => ?_
  refine Ends.read ((pass_ends _ t).bind ?_)
  rintro ⟨⟩ _ rfl
  refine ((persistWatcher_stores answers now).born rfl (fun _ _ => rfl) hnodup
    (mem_prepared backoff hnew) ht).bind fun _ u hu => ?_
  refine (pass_ends _ u).weaken ?_ fun _ h => h
  rintro _ _ rfl
  refine ⟨_, hu, ?_⟩
  have hprepared := prepared_satisfied backoff new.watcherId hlook
  cases answers.stopped with
  | true => exact (hprepared.bornStopped now).stoppedAtBirth answers.arming
  | false => exact hprepared.stoppedAtBirth answers.arming

/-- A transaction that stores a watch list stores a satisfied condition of it completed,
unless a stop came before. -/
theorem handedOver_satisfied {t : Transaction} (hnew : new ∈ t.handedOver)
    (hlook : new.observation = .graph condition armed true)
    (hnone : s.watchers.get? new.watcherId = none)
    (hok : ((t.body cfg).atomic s).1 = .ok ⟨⟩) :
    ∃ w, (s.step cfg t).watchers.get? new.watcherId = some w ∧
      w.Satisfied condition armed t.stopsNew := by
  have hends : Ends (fun _ u => ∃ w, u.watchers.get? new.watcherId = some w ∧
      w.Satisfied condition armed t.stopsNew) (fun _ => True) (t.body cfg s) := by
    cases t with
    | arm answers list => exact createWatchers_satisfied cfg.backoff answers hnew hlook hnone
    | handOver answers binding list stops now =>
        exact persistExperimentWatchers_satisfied cfg.backoff answers binding stops now hnew
          hlook hnone
    | _ => cases hnew
  have hatomic := hends.atomic
  unfold Store.step
  cases hout : (t.body cfg).atomic s with
  | mk out u =>
      rw [hout] at hok hatomic
      cases hok
      exact hatomic

end Transactions

end RcpGraph.Watchers
