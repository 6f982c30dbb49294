import RcpGraph.Drafts.SessionRuns

/-!
A fence that still applies: since it was taken nothing was staged for its project and target,
and the head observed last is the one it expects.
-/

namespace RcpGraph.Drafts

open Walk

variable {state : ProjectSessionState} {event : SessionEvent} {events : List SessionEvent}
  {fence : TransitionSyncFence} {projectId : ProjectId} {target : GraphTarget}

section Held

/-- As long as the request of a fence is out, the generation of its draft tells whether
something was staged since. -/
structure Held (start : ProjectSessionState) (fence : TransitionSyncFence)
    (events : List SessionEvent) : Prop where
  issued : fence.requestId ≤ (walk sessionStep start events).syncRequestSequence
  since : ((walk sessionStep start events).transitionCoordinator.syncRequests fence.key).map
      TransitionSyncFence.requestId = some fence.requestId →
    fence.draftGeneration ≤ ((walk sessionStep start events).transitionCoordinator.draftGenerations
        fence.key).getD 0 ∧
      (((walk sessionStep start events).transitionCoordinator.draftGenerations
          fence.key).getD 0 = fence.draftGeneration →
        ∀ passed ∈ visited sessionStep start events,
          passed.2.stages passed.1 ≠ some (fence.projectId, fence.expectedHead.target))

theorem visited_concat (start : ProjectSessionState) (events : List SessionEvent)
    (event : SessionEvent) :
    visited sessionStep start (events ++ [event]) =
      visited sessionStep start events ++ [(walk sessionStep start events, event)] :=
  visited_append events [event]

theorem Held.quiet {start : ProjectSessionState} (hheld : Held start fence events)
    (hsequence : fence.requestId ≤
      (sessionStep (walk sessionStep start events) event).syncRequestSequence)
    (hrequest : ((sessionStep (walk sessionStep start events) event).transitionCoordinator.syncRequests
        fence.key).map TransitionSyncFence.requestId = some fence.requestId →
      ((walk sessionStep start events).transitionCoordinator.syncRequests fence.key).map
        TransitionSyncFence.requestId = some fence.requestId)
    (hgeneration : (sessionStep (walk sessionStep start events)
        event).transitionCoordinator.draftGenerations fence.key =
      (walk sessionStep start events).transitionCoordinator.draftGenerations fence.key)
    (hstages : event.stages (walk sessionStep start events) ≠
      some (fence.projectId, fence.expectedHead.target)) :
    Held start fence (events ++ [event]) where
  issued := by
    rw [walk_concat]
    exact hsequence
  since hout := by
    rw [walk_concat] at hout ⊢
    obtain ⟨hle, hsame⟩ := hheld.since (hrequest hout)
    rw [hgeneration]
    refine ⟨hle, fun heq passed hpassed => ?_⟩
    rw [visited_concat, List.mem_append, List.mem_singleton] at hpassed
    rcases hpassed with hpassed | rfl
    · exact hsame heq passed hpassed
    · exact hstages

theorem Held.staged {start : ProjectSessionState} (hheld : Held start fence events)
    {action : ProjectSessionAction} {plain : action.startsSync = false}
    (hstages : (walk sessionStep start events).stagedBy action = some (projectId, target)) :
    Held start fence (events ++ [.act action plain]) := by
  obtain ⟨-, rfl, hstaged⟩ := staged_of_stagedBy hstages
  have hsequence := hstaged.sequence
  by_cases hkey : fence.key =
      graphSessionKey projectId (walk sessionStep start events).graphTarget
  · refine ⟨?_, ?_⟩
    · rw [walk_concat]
      exact hsequence ▸ hheld.issued
    · intro hout
      rw [walk_concat] at hout ⊢
      obtain ⟨hle, -⟩ := hheld.since (hstaged.requests ▸ hout)
      have hnext : ((sessionStep (walk sessionStep start events)
          (.act action plain)).transitionCoordinator.draftGenerations fence.key).getD 0 =
          ((walk sessionStep start events).transitionCoordinator.draftGenerations
            fence.key).getD 0 + 1 := by
        have hgenerations := congrFun hstaged.generations fence.key
        rw [hkey, Function.update_self] at hgenerations
        rw [hkey]
        exact (congrArg (Option.getD · 0) hgenerations).trans rfl
      rw [hnext]
      exact ⟨by omega, fun heq => by omega⟩
  · refine hheld.quiet (hsequence ▸ hheld.issued) (fun hout => hstaged.requests ▸ hout) ?_ ?_
    · exact (congrFun hstaged.generations fence.key).trans (Function.update_of_ne hkey _ _)
    · intro heq
      obtain ⟨rfl, htarget⟩ := Prod.mk.inj (Option.some.inj (hstages.symm.trans heq))
      exact hkey (htarget ▸ rfl)

theorem Held.begun {start : ProjectSessionState} (hheld : Held start fence events)
    (expectedHead : GraphHead) :
    Held start fence (events ++ [.beginSync projectId expectedHead]) := by
  cases hnext : (walk sessionStep start events).nextFence projectId expectedHead with
  | none =>
      have hsame : sessionStep (walk sessionStep start events)
          (.beginSync projectId expectedHead) = walk sessionStep start events :=
        beginSync_refused hnext
      refine hheld.quiet ?_ ?_ ?_ (by simp [SessionEvent.stages]) <;> rw [hsame]
      · exact hheld.issued
      · exact id
  | some next =>
      obtain ⟨-, -, hid, -⟩ := beginSync_fence hnext
      have hstate : sessionStep (walk sessionStep start events)
          (.beginSync projectId expectedHead) = _ := beginSync_state hnext
      have hissued := hheld.issued
      refine hheld.quiet ?_ ?_ ?_ (by simp [SessionEvent.stages])
      · rw [hstate]
        change fence.requestId ≤ next.requestId
        omega
      · -- The new request has a later id, so it is not the one of the fence.
        rw [hstate]
        intro hout
        have hupdated : (Function.update (walk sessionStep start
            events).transitionCoordinator.syncRequests next.key (some next) fence.key).map
              TransitionSyncFence.requestId = some fence.requestId := hout
        rw [Function.update_apply] at hupdated
        split at hupdated
        · have hsame : next.requestId = fence.requestId := Option.some.inj hupdated
          omega
        · exact hupdated
      · rw [hstate]
        rfl

theorem Held.step {start : ProjectSessionState} (hheld : Held start fence events) :
    Held start fence (events ++ [event]) := by
  cases event with
  | beginSync projectId expectedHead => exact hheld.begun expectedHead
  | act action plain =>
      cases hforgets : action.forgets with
      | true =>
          obtain ⟨hsequence, -, hrequests, -⟩ :=
            forgotten_step (walk sessionStep start events) hforgets
          refine ⟨?_, fun hout => ?_⟩
          · rw [walk_concat]
            exact hsequence ▸ hheld.issued
          · rw [walk_concat] at hout
            have hnone := hrequests fence.key
            rw [sessionStep, hnone] at hout
            cases hout
      | false =>
          cases hstages : (walk sessionStep start events).stagedBy action with
          | some staged => exact hheld.staged hstages
          | none =>
              have hstep := coordinated_step plain hforgets hstages
              refine hheld.quiet (hstep.sequence ▸ hheld.issued) (fun hout => ?_)
                (congrFun hstep.generations fence.key) ?_
              · obtain ⟨request, hrequest, hid⟩ := Option.map_eq_some_iff.mp hout
                rw [hstep.requests fence.key request hrequest, Option.map_some, hid]
              · rw [SessionEvent.stages, hstages]
                simp

/-- A fence is held from the moment it is taken. -/
theorem held_run {expectedHead : GraphHead}
    (hfence : state.nextFence projectId expectedHead = some fence)
    (events : List SessionEvent) :
    Held (sessionStep state (.beginSync projectId expectedHead)) fence events := by
  obtain ⟨-, -, hid, hgeneration⟩ := beginSync_fence hfence
  have hstate : sessionStep state (.beginSync projectId expectedHead) = _ :=
    beginSync_state hfence
  induction events using List.reverseRecOn with
  | nil =>
      refine ⟨?_, fun _ => ⟨?_, fun _ passed hpassed => absurd hpassed (by simp [visited])⟩⟩
      · rw [walk, List.foldl_nil, hstate]
        exact Nat.le_refl fence.requestId
      · rw [walk, List.foldl_nil, hstate]
        exact Nat.le_of_eq hgeneration
  | append_singleton events event ih => exact ih.step

end Held

section Observed

/-- The head that an event observes for a project and target. -/
def observedFor (projectId : ProjectId) (target : GraphTarget)
    (passed : ProjectSessionState × SessionEvent) : Option GraphHead :=
  ((passed.2.observes passed.1).filter fun seen =>
    decide (seen.1 = projectId ∧ seen.2.target = target)).map Prod.snd

/-- The head observed last along a walk. -/
def lastObserved (projectId : ProjectId) (target : GraphTarget)
    (passed : List (ProjectSessionState × SessionEvent)) : Option GraphHead :=
  passed.foldl (fun last now => (observedFor projectId target now).or last) none

theorem lastObserved_concat (passed : List (ProjectSessionState × SessionEvent))
    (now : ProjectSessionState × SessionEvent) :
    lastObserved projectId target (passed ++ [now]) =
      (observedFor projectId target now).or (lastObserved projectId target passed) := by
  simp only [lastObserved, List.foldl_append, List.foldl_cons, List.foldl_nil]

theorem observedBy_of_stagedBy {action : ProjectSessionAction}
    (hstages : state.stagedBy action = some (projectId, target)) :
    state.observedBy action = none := by
  cases action <;> first | rfl | cases hstages

/-- What an event does to the head of a project and target. -/
theorem head_step {head : GraphHead}
    (hhead : (sessionStep state event).transitionCoordinator.canonicalHeads
      (graphSessionKey projectId target) = some head) :
    (observedFor projectId target (state, event)).or
      (state.transitionCoordinator.canonicalHeads (graphSessionKey projectId target)) =
        some head := by
  cases event with
  | beginSync projectId' expectedHead =>
      cases hnext : state.nextFence projectId' expectedHead with
      | none =>
          rw [sessionStep, beginSync_refused hnext] at hhead
          exact hhead
      | some next =>
          rw [sessionStep, beginSync_state hnext] at hhead
          exact hhead
  | act action plain =>
      cases hforgets : action.forgets with
      | true =>
          rw [sessionStep, (forgotten_step state hforgets).2.1] at hhead
          cases hhead
      | false =>
          cases hstages : state.stagedBy action with
          | some staged =>
              obtain ⟨-, -, hstaged⟩ := staged_of_stagedBy hstages
              rw [sessionStep, hstaged.heads] at hhead
              rw [observedFor, SessionEvent.observes, observedBy_of_stagedBy hstages]
              exact hhead
          | none =>
              have hstep := coordinated_step plain hforgets hstages
              rw [sessionStep, hstep.heads] at hhead
              simp only [observedFor, SessionEvent.observes]
              cases hobserved : state.observedBy action with
              | none =>
                  rw [hobserved] at hhead
                  exact hhead
              | some seen =>
                  rw [hobserved, Option.elim_some, Function.update_apply] at hhead
                  by_cases hsame : seen.1 = projectId ∧ seen.2.target = target
                  · rw [if_pos (graphSessionKey_inj.mpr ⟨hsame.1.symm, hsame.2.symm⟩)] at hhead
                    have hkept : (some seen).filter (fun seen : ProjectId × GraphHead =>
                        decide (seen.1 = projectId ∧ seen.2.target = target)) = some seen :=
                      Option.filter_some_pos (decide_eq_true hsame)
                    rw [hkept, Option.map_some, Option.some_or]
                    exact hhead
                  · have hkey : graphSessionKey projectId target ≠
                        graphSessionKey seen.1 seen.2.target := by
                      intro heq
                      obtain ⟨hproject, htarget⟩ := graphSessionKey_inj.mp heq
                      exact hsame ⟨hproject.symm, htarget.symm⟩
                    rw [if_neg hkey] at hhead
                    have hdropped : (some seen).filter (fun seen : ProjectId × GraphHead =>
                        decide (seen.1 = projectId ∧ seen.2.target = target)) = none :=
                      Option.filter_some_neg (by simpa using hsame)
                    rw [hdropped, Option.map_none, Option.none_or]
                    exact hhead

/-- A head that is kept is the one observed last. -/
theorem lastObserved_run (initial : Option ProjectId) (graphTarget : GraphTarget)
    (events : List SessionEvent) {head : GraphHead}
    (hhead : (walk sessionStep (emptyProjectSessionState initial graphTarget)
      events).transitionCoordinator.canonicalHeads (graphSessionKey projectId target) =
        some head) :
    lastObserved projectId target
      (visited sessionStep (emptyProjectSessionState initial graphTarget) events) =
        some head := by
  induction events using List.reverseRecOn generalizing head with
  | nil => cases hhead
  | append_singleton events event ih =>
      rw [walk_concat] at hhead
      rw [visited_concat, lastObserved_concat]
      have hstep := head_step hhead
      cases hobserved : observedFor projectId target (walk sessionStep
          (emptyProjectSessionState initial graphTarget) events, event) with
      | some seen =>
          rw [hobserved, Option.some_or] at hstep
          exact hstep
      | none =>
          rw [hobserved, Option.none_or] at hstep
          rw [Option.none_or]
          exact ih hstep

end Observed

end RcpGraph.Drafts
