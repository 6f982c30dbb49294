import RcpGraph.Watchers.Boundaries

/-!
A graph condition is settled by the first accepted boundary after its arming that does not
leave it active, however the passes that read the boundaries fail and are repeated.
-/

namespace RcpGraph.Watchers

open Crash
open Cursor (first between)

variable {rt : Runtime} {histories : Histories rt} {s t : Store}

/-- The boundaries after `armed` that the store has consumed. -/
def Store.stretch (histories : Histories rt) (s : Store) (projectId : String)
    (target : GraphTargetRef) (armed : Nat) : List (AcceptedStep rt) :=
  match s.consumed.get? (projectId, target) with
  | none => []
  | some head => between AcceptedStep.revision (histories projectId target).steps armed head.revision

/-- What the consumed boundaries say about a condition. -/
def Store.outcome (histories : Histories rt) (s : Store) (projectId : String)
    (target : GraphTargetRef) (condition : GraphCondition) (armed : Nat) : GraphResult :=
  first (AcceptedStep.judge condition armed) .active (s.stretch histories projectId target armed)

/-- The row's status is the one a result leaves. -/
inductive Watcher.Shows (w : Watcher) : GraphResult → Prop where
  | active : w.awaits = true → Shows w .active
  | completed : w.status = .completed → Shows w .completed
  | removed : w.status = .stopped → Shows w .removed

theorem Watcher.Shows.of_awaits {w : Watcher} {result : GraphResult} (h : w.Shows result)
    (hw : w.awaits = true) : result = .active := by
  have hactive := (w.awaits_iff.mp hw).2.1
  cases h with
  | active _ => rfl
  | completed hs | removed hs =>
      rw [hactive] at hs
      cases hs

/-- A condition that is armed ahead of its target's head has no boundary to show. -/
theorem outcome_of_armedAhead {w : Watcher} (h : s.ArmedAhead w) {armed : Nat}
    (ha : w.armedRevision = some armed) (condition : GraphCondition) :
    s.outcome histories w.projectId w.graphTarget condition armed = .active := by
  obtain ⟨armed', ha', hahead⟩ := h
  rw [ha] at ha'
  cases ha'
  unfold Store.outcome Store.stretch
  cases hc : s.consumed.get? (w.projectId, w.graphTarget) with
  | none => rfl
  | some head =>
      have hle := hahead head hc
      have hnil : between AcceptedStep.revision (histories w.projectId w.graphTarget).steps armed
          head.revision = [] := by
        apply Cursor.between_eq_nil
        intro step _ hlt
        omega
      simp only [hnil]
      rfl

theorem outcome_congr (h : t.consumed = s.consumed) (projectId : String)
    (target : GraphTargetRef) (condition : GraphCondition) (armed : Nat) :
    t.outcome histories projectId target condition armed =
      s.outcome histories projectId target condition armed := by
  unfold Store.outcome Store.stretch
  rw [h]

/-- The row of an armed condition shows what the store has consumed of its target. -/
structure Store.Tracks (histories : Histories rt) (s : Store) (w : Watcher)
    (condition : GraphCondition) (armed : Nat) : Prop where
  graphCondition : w.graphCondition = some condition
  armedRevision : w.armedRevision = some armed
  shows : w.Shows (s.outcome histories w.projectId w.graphTarget condition armed)

/-- Every waiting condition tracks its target. -/
def Store.Waiting (histories : Histories rt) (s : Store) : Prop :=
  ∀ id w condition armed, s.watchers.get? id = some w → w.awaits = true →
    w.graphCondition = some condition → w.armedRevision = some armed →
    s.outcome histories w.projectId w.graphTarget condition armed = .active

section Transactions

/-- A transaction that does not reconcile leaves what a row shows, unless it stops it. -/
theorem tracks_of_moved (h : Moved False s t) {id : String} {w : Watcher}
    {condition : GraphCondition} {armed : Nat} (hw : s.watchers.get? id = some w)
    (htracks : s.Tracks histories w condition armed)
    (hstays : ∀ w', t.watchers.get? id = some w' → w.status ≠ .stopped → w'.status ≠ .stopped) :
    ∃ w', t.watchers.get? id = some w' ∧ w'.projectId = w.projectId ∧
      w'.graphTarget = w.graphTarget ∧ t.Tracks histories w' condition armed := by
  obtain ⟨w', hw', hsince⟩ := h.rows id w hw
  obtain ⟨hg, ha, hshows⟩ := htracks
  have hframe := hsince.frame
  refine ⟨w', hw', hframe.projectId, hframe.graphTarget, ⟨hframe.graphCondition.trans hg, ?_, ?_⟩⟩
  · exact (hframe.armedRevision.resolve_right fun h => h.1).trans ha
  rw [hframe.projectId, hframe.graphTarget, outcome_congr (h.consumed not_false)]
  generalize s.outcome histories w.projectId w.graphTarget condition armed = result at hshows ⊢
  cases hshows with
  | active hawaits =>
      have hlive : w.status ≠ .stopped := by
        rw [(w.awaits_iff.mp hawaits).2.1]
        exact WatcherStatus.noConfusion
      rcases hsince.waits hawaits with hawaits' | hstopped | hfalse
      · exact .active hawaits'
      · exact absurd hstopped (hstays w' hw' hlive)
      · exact hfalse.elim
  | completed hdone =>
      have hlive : w.status ≠ .stopped := by
        rw [hdone]
        exact WatcherStatus.noConfusion
      rcases hsince.completed hdone with hdone' | hstopped
      · exact .completed hdone'
      · exact absurd hstopped (hstays w' hw' hlive)
  | removed hstopped => exact .removed (hsince.stopped hstopped)

theorem waiting_of_moved (h : Moved False s t) (hwaiting : s.Waiting histories) :
    t.Waiting histories := by
  intro id w' condition armed hw' hawaits hg ha
  rw [outcome_congr (h.consumed not_false)]
  cases hw : s.watchers.get? id with
  | none => exact outcome_of_armedAhead (h.born not_false id w' hw hw' hawaits) ha condition
  | some w =>
      obtain ⟨w'', hw'', hsince⟩ := h.rows id w hw
      rw [hw'] at hw''
      cases hw''
      have hframe := hsince.frame
      rw [hframe.projectId, hframe.graphTarget]
      refine hwaiting id w condition armed hw (hsince.waited hawaits) ?_ ?_
      · rw [← hframe.graphCondition]
        exact hg
      · rw [← hframe.armedRevision.resolve_right fun h => h.1]
        exact ha

end Transactions

section Passes

variable {projectId : String} {target : GraphTargetRef} {step : AcceptedStep rt}

/-- What the consumption of a boundary leaves. -/
def Store.consume (s : Store) (projectId : String) (target : GraphTargetRef)
    (step : AcceptedStep rt) (now : String) : Store :=
  { s.updateWatchers (fun _ w => w.observes projectId (GraphHeadRef.of target step))
      (fun w => w.settleGraph now (evaluateAt step w)) with
    consumed := s.consumed.insert (projectId, target) (GraphHeadRef.of target step) }

/-- The boundary is new, or the stored head has come to it already. -/
theorem consumeBoundary_ends (s : Store) (projectId : String) (target : GraphTargetRef)
    (step : AcceptedStep rt) (now : String) :
    Ends (fun consumed t =>
        (consumed = false ∧ t = s ∧
          ∃ head, s.consumed.get? (projectId, target) = some head ∧
            step.revision ≤ head.revision) ∨
        (consumed = true ∧ t = s.consume projectId target step now ∧
          ∀ head, s.consumed.get? (projectId, target) = some head →
            head.revision < step.revision))
      (fun _ => True)
      (consumeGraphWatcherBoundary projectId (GraphHeadRef.of target step) (evaluateAt step) now
        s) := by
  unfold consumeGraphWatcherBoundary
  refine Ends.read ?_
  cases hknown : alreadyConsumed s projectId (GraphHeadRef.of target step) with
  | error e => exact Ends.raise trivial
  | ok known =>
      unfold alreadyConsumed at hknown
      cases hc : s.consumed.get? (projectId, target) with
      | none =>
          rw [show (GraphHeadRef.of target step).target = target from rfl, hc] at hknown
          cases hknown
          refine Ends.write (Ends.write (Ends.pure (.inr ⟨rfl, rfl, ?_⟩)))
          intro head hhead
          cases hhead
      | some head =>
          rw [show (GraphHeadRef.of target step).target = target from rfl, hc] at hknown
          have hrev : (GraphHeadRef.of target step).revision = step.revision := rfl
          simp only [hrev] at hknown
          by_cases hlt : head.revision > step.revision
          · rw [if_pos hlt] at hknown
            cases hknown
            exact Ends.pure (.inl ⟨rfl, rfl, head, rfl, Nat.le_of_lt hlt⟩)
          · rw [if_neg hlt] at hknown
            by_cases heq : head.revision = step.revision
            · rw [if_pos heq] at hknown
              split at hknown
              · cases hknown
              · cases hknown
                exact Ends.pure (.inl ⟨rfl, rfl, head, rfl, heq.ge⟩)
            · rw [if_neg heq] at hknown
              cases hknown
              refine Ends.write (Ends.write (Ends.pure (.inr ⟨rfl, rfl, ?_⟩)))
              intro head' hhead'
              cases hhead'
              omega

theorem get?_consume (s : Store) (projectId : String) (target : GraphTargetRef)
    (step : AcceptedStep rt) (now id : String) :
    (s.consume projectId target step now).watchers.get? id = (s.watchers.get? id).map fun w =>
      if w.observes projectId (GraphHeadRef.of target step) then
        w.settleGraph now (evaluateAt step w) else w := by
  exact get?_updateWatchers s _ _ id

theorem get?_consumed (s : Store) (projectId projectId' : String)
    (target target' : GraphTargetRef) (step : AcceptedStep rt) (now : String) :
    (s.consume projectId target step now).consumed.get? (projectId', target') =
      if (projectId', target') = (projectId, target) then some (GraphHeadRef.of target step)
      else s.consumed.get? (projectId', target') := by
  rw [Store.consume, Dict.get?_insert]

/-- Nothing of the target stands between the stored head and the boundary. -/
def Store.NextIs (histories : Histories rt) (s : Store) (projectId : String)
    (target : GraphTargetRef) (step : AcceptedStep rt) : Prop :=
  step ∈ (histories projectId target).steps ∧
    ∀ other ∈ (histories projectId target).steps,
      (∃ head, s.consumed.get? (projectId, target) = some head ∧
        other.revision ≤ head.revision) ∨ step.revision ≤ other.revision

/-- The outcome after a boundary: as before, or the boundary's own result. -/
theorem outcome_consume (hnext : s.NextIs histories projectId target step)
    (hnew : ∀ head, s.consumed.get? (projectId, target) = some head →
      head.revision < step.revision) (now : String) (condition : GraphCondition) (armed : Nat) :
    (s.consume projectId target step now).outcome histories projectId target condition armed =
      if armed < step.revision ∧ s.outcome histories projectId target condition armed = .active
      then step.judge condition armed
      else s.outcome histories projectId target condition armed := by
  obtain ⟨hmem, hothers⟩ := hnext
  have hinc := (histories projectId target).increasing
  unfold Store.outcome Store.stretch
  rw [get?_consumed, if_pos rfl]
  dsimp only
  have hrev : (GraphHeadRef.of target step).revision = step.revision := rfl
  rw [hrev]
  by_cases ha : armed < step.revision
  · cases hc : s.consumed.get? (projectId, target) with
    | none =>
        -- it is the first boundary of the target
        have hfirst : ∀ other ∈ (histories projectId target).steps,
            step.revision ≤ other.revision := by
          intro other hother
          rcases hothers other hother with ⟨head, hhead, -⟩ | hle
          · rw [hc] at hhead
            cases hhead
          · exact hle
        have hnil : between AcceptedStep.revision (histories projectId target).steps armed armed
            = [] := Cursor.between_eq_nil fun _ _ h => h
        rw [Cursor.first_next _ _ hinc hmem ha ha fun other hother => .inr (hfirst other hother),
          hnil]
        simp [ha]
    | some head =>
        have hothers' : ∀ other ∈ (histories projectId target).steps,
            other.revision ≤ head.revision ∨ step.revision ≤ other.revision := by
          intro other hother
          rcases hothers other hother with ⟨head', hhead', hle⟩ | hle
          · rw [hc] at hhead'
            cases hhead'
            exact .inl hle
          · exact .inr hle
        rw [Cursor.first_next _ _ hinc hmem (hnew head hc) ha hothers']
        simp only [ha, true_and]
  · have hnil : ∀ k, k ≤ step.revision →
        between AcceptedStep.revision (histories projectId target).steps armed k = [] := by
      intro k hk
      apply Cursor.between_eq_nil
      intro _ _ h
      omega
    rw [hnil _ (Nat.le_refl _)]
    cases hc : s.consumed.get? (projectId, target) with
    | none => simp [ha]
    | some head =>
        simp only [hnil _ (Nat.le_of_lt (hnew head hc))]
        simp [ha]

theorem outcome_consume_other {projectId' : String} {target' : GraphTargetRef}
    (hne : (projectId', target') ≠ (projectId, target)) (step : AcceptedStep rt) (now : String)
    (condition : GraphCondition) (armed : Nat) :
    (s.consume projectId target step now).outcome histories projectId' target' condition armed =
      s.outcome histories projectId' target' condition armed := by
  unfold Store.outcome Store.stretch
  rw [get?_consumed, if_neg hne]

/-- A row that tracks its target goes on to do so when the next boundary is consumed. -/
theorem tracks_consume (hnext : s.NextIs histories projectId target step)
    (hnew : ∀ head, s.consumed.get? (projectId, target) = some head →
      head.revision < step.revision) (now : String) {w : Watcher} {condition : GraphCondition}
    {armed : Nat} (htracks : s.Tracks histories w condition armed) :
    (s.consume projectId target step now).Tracks histories
      (if w.observes projectId (GraphHeadRef.of target step) then
        w.settleGraph now (evaluateAt step w) else w) condition armed := by
  obtain ⟨hg, ha, hshows⟩ := htracks
  have hrev : (GraphHeadRef.of target step).revision = step.revision := rfl
  by_cases hobs : w.observes projectId (GraphHeadRef.of target step) = true
  · rw [if_pos hobs]
    obtain ⟨rfl, htarget, hawaits, armed', ha', hlt⟩ :=
      (w.observes_iff projectId (GraphHeadRef.of target step)).mp hobs
    have htarget' : w.graphTarget = target := htarget
    rw [ha] at ha'
    cases ha'
    have heval : evaluateAt step w = step.judge condition armed := by
      rw [evaluateAt, hg, ha]
    have hbefore := hshows.of_awaits hawaits
    rw [htarget'] at hbefore
    have hafter := outcome_consume hnext hnew now condition armed
    rw [if_pos ⟨hlt, hbefore⟩] at hafter
    rw [heval]
    cases hresult : step.judge condition armed with
    | active =>
        refine ⟨hg, ha, ?_⟩
        rw [show (w.settleGraph now .active).projectId = w.projectId from rfl,
          show (w.settleGraph now .active).graphTarget = w.graphTarget from rfl, htarget', hafter,
          hresult]
        exact .active hawaits
    | completed =>
        refine ⟨hg, ha, ?_⟩
        rw [show (w.settleGraph now .completed).projectId = w.projectId from rfl,
          show (w.settleGraph now .completed).graphTarget = w.graphTarget from rfl, htarget',
          hafter, hresult]
        exact .completed rfl
    | removed =>
        refine ⟨hg, ha, ?_⟩
        rw [show (w.settleGraph now .removed).projectId = w.projectId from rfl,
          show (w.settleGraph now .removed).graphTarget = w.graphTarget from rfl, htarget', hafter,
          hresult]
        exact .removed rfl
  · rw [if_neg hobs]
    refine ⟨hg, ha, ?_⟩
    by_cases hsame : (w.projectId, w.graphTarget) = (projectId, target)
    · obtain ⟨rfl, rfl⟩ := Prod.mk.inj hsame
      rw [outcome_consume hnext hnew]
      by_cases hcase : armed < step.revision ∧
          s.outcome histories w.projectId w.graphTarget condition armed = .active
      · -- a waiting row that was armed before the boundary would have observed it
        rw [hcase.2] at hshows
        cases hshows with
        | active hawaits =>
            refine absurd ((w.observes_iff _ _).mpr ⟨rfl, rfl, hawaits, armed, ha, ?_⟩) hobs
            rw [hrev]
            exact hcase.1
      · rw [if_neg hcase]
        exact hshows
    · rw [outcome_consume_other hsame]
      exact hshows

/-- The boundaries that a pass has still to consume. -/
def boundaries (todo : List (PassStep rt)) : List (AcceptedStep rt) :=
  todo.filterMap fun
    | .baselines => none
    | .boundary step => some step

/-- A pass under way has all that its target has accepted up to its head, less what is
consumed, before it. -/
structure Pass.Ok (histories : Histories rt) (s : Store) (projectId : String) (pass : Pass rt) :
    Prop where
  behind : ∀ head, s.consumed.get? (projectId, pass.target) = some head →
    head.revision ≤ pass.head
  covers : ∀ step ∈ (histories projectId pass.target).steps, step.revision ≤ pass.head →
    (∃ head, s.consumed.get? (projectId, pass.target) = some head ∧
      step.revision ≤ head.revision) ∨ step ∈ boundaries pass.todo
  sorted : (boundaries pass.todo).Pairwise fun a b => a.revision < b.revision
  read : ∀ step ∈ boundaries pass.todo,
    step ∈ (histories projectId pass.target).steps ∧ step.revision ≤ pass.head

theorem Pass.Ok.congr {pass : Pass rt} (h : pass.Ok histories s projectId)
    (hc : t.consumed.get? (projectId, pass.target) = s.consumed.get? (projectId, pass.target)) :
    pass.Ok histories t projectId := by
  obtain ⟨hbehind, hcovers, hsorted, hread⟩ := h
  refine ⟨?_, ?_, hsorted, hread⟩
  · rw [hc]
    exact hbehind
  · rw [hc]
    exact hcovers

theorem Pass.Ok.nextIs {pass : Pass rt} {rest : List (PassStep rt)}
    (h : pass.Ok histories s projectId) (htodo : pass.todo = .boundary step :: rest) :
    s.NextIs histories projectId pass.target step := by
  have hbounds : boundaries pass.todo = step :: boundaries rest := by rw [htodo]; rfl
  have hsorted := h.sorted
  rw [hbounds, List.pairwise_cons] at hsorted
  obtain ⟨hmem, hle⟩ := h.read step (by rw [hbounds]; exact List.mem_cons_self)
  refine ⟨hmem, ?_⟩
  intro other hother
  by_cases hhead : other.revision ≤ pass.head
  · rcases h.covers other hother hhead with hdone | hleft
    · exact .inl hdone
    · rw [hbounds] at hleft
      rcases List.mem_cons.mp hleft with rfl | hrest
      · exact .inr (Nat.le_refl _)
      · exact .inr (Nat.le_of_lt (hsorted.1 other hrest))
  · right
    omega

/-- A pass that starts has read everything it needs. -/
theorem startPass_ok {head : Nat} {degraded : Bool} {pass : Pass rt}
    (h : startPass histories s projectId target head degraded = .ok pass) :
    pass.target = target ∧ pass.head = head ∧ pass.Ok histories s projectId := by
  unfold startPass at h
  dsimp only at h
  split at h
  · cases h
  split at h
  · cases h
  rename_i hbehind
  split at h
  · cases h
  split at h
  · cases h
  cases h
  have hbounds : ∀ steps : List (AcceptedStep rt),
      boundaries (.baselines :: steps.map .boundary) = steps := by
    intro steps
    induction steps with
    | nil => rfl
    | cons x xs ih => exact congrArg (x :: ·) ih
  refine ⟨rfl, rfl, ⟨?_, ?_, ?_, ?_⟩⟩
  · intro stored hstored
    dsimp only at hstored ⊢
    rw [hstored, Option.any_some, decide_eq_true_eq] at hbehind
    omega
  · intro step hstep hle
    dsimp only at hstep hle ⊢
    rw [hbounds]
    cases hc : s.consumed.get? (projectId, target) with
    | none =>
        right
        simp [hstep, hle]
    | some stored =>
        by_cases hdone : step.revision ≤ stored.revision
        · exact .inl ⟨stored, rfl, hdone⟩
        · right
          simp only [List.mem_filter, Option.all_some, decide_eq_true_eq]
          exact ⟨⟨hstep, hle⟩, by omega⟩
  · dsimp only
    rw [hbounds]
    exact ((histories projectId target).increasing.filter _).filter _
  · intro step hstep
    dsimp only at hstep ⊢
    rw [hbounds] at hstep
    simp only [List.mem_filter, decide_eq_true_eq] at hstep
    exact hstep.1

/-- The rows that a pass gives their baseline. -/
def Store.rebase (s : Store) (projectId : String) (pass : Pass rt) (now : String) : Store :=
  s.updateWatchers
    (fun _ w => w.projectId = projectId && w.graphTarget = pass.target && w.awaits &&
      w.armedRevision.isNone)
    fun w => { w with armedRevision := some pass.head, lastCheckedAt := some now }

/-- What the next transaction of a pass may do. -/
inductive Advanced (sys : System rt) (projectId now : String) (pass : Pass rt)
    (rest : List (PassStep rt)) : PassStep rt → System rt → Prop where
  | failed (next : PassStep rt) :
      Advanced sys projectId now pass rest next
        { sys with passes := sys.passes.erase projectId }
  | rebased :
      Advanced sys projectId now pass rest .baselines
        { sys with
          store := sys.store.rebase projectId pass now
          passes := sys.passes.insert projectId { pass with todo := rest } }
  | known (step : AcceptedStep rt) (head : GraphHeadRef) :
      sys.store.consumed.get? (projectId, pass.target) = some head →
      step.revision ≤ head.revision →
      Advanced sys projectId now pass rest (.boundary step)
        { sys with passes := sys.passes.insert projectId { pass with todo := rest } }
  | consumed (step : AcceptedStep rt) :
      (∀ head, sys.store.consumed.get? (projectId, pass.target) = some head →
        head.revision < step.revision) →
      Advanced sys projectId now pass rest (.boundary step)
        { store := sys.store.consume projectId pass.target step now
          passes := sys.passes.insert projectId { pass with todo := rest }
          log := sys.log ++ [(projectId, GraphHeadRef.of pass.target step)] }

theorem advance_advanced (sys : System rt) (projectId now : String) (pass : Pass rt)
    (next : PassStep rt) (rest : List (PassStep rt)) :
    Advanced sys projectId now pass rest next (sys.advance projectId now pass next rest) := by
  cases next with
  | baselines => exact .rebased
  | boundary step =>
      have hends := (consumeBoundary_ends sys.store projectId pass.target step now).atomic
      unfold System.advance PassStep.body
      dsimp only
      cases hout : (consumeGraphWatcherBoundary projectId (GraphHeadRef.of pass.target step)
          (evaluateAt step) now).atomic sys.store with
      | mk out store =>
          rw [hout] at hends
          cases out with
          | raised e =>
              cases hends
              exact .failed _
          | crashed =>
              cases hends
              exact .failed _
          | ok consumed =>
              rcases hends with ⟨rfl, rfl, head, hhead, hle⟩ | ⟨rfl, rfl, hnew⟩
              · exact .known step head hhead hle
              · exact .consumed step hnew

end Passes

end RcpGraph.Watchers
