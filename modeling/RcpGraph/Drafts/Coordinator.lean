import Mathlib.Logic.Function.Basic
import RcpGraph.Drafts.Graph

/-!
The transition coordinator: which heads were observed, how often each draft was staged anew,
and the Sync that is out for each project and graph target.
-/

namespace RcpGraph.Drafts

structure TransitionSyncFence where
  projectId : ProjectId
  requestId : Nat
  expectedHead : GraphHead
  draftGeneration : Nat
  deriving DecidableEq

structure ProjectTransitionCoordinatorState where
  activeProjectId : Option ProjectId
  activeGraphTarget : GraphTarget
  canonicalHeads : String → Option GraphHead
  draftGenerations : String → Option Nat
  syncRequests : String → Option TransitionSyncFence

def emptyProjectTransitionCoordinator : ProjectTransitionCoordinatorState where
  activeProjectId := none
  activeGraphTarget := .main
  canonicalHeads := fun _ => none
  draftGenerations := fun _ => none
  syncRequests := fun _ => none

inductive ProjectTransitionCoordinatorAction where
  | activate (projectId : Option ProjectId) (graphTarget : GraphTarget)
  | observeHead (projectId : ProjectId) (head : GraphHead)
  | observeDraftGeneration (projectId : ProjectId) (graphTarget : GraphTarget) (generation : Nat)
  | syncStarted (fence : TransitionSyncFence)
  | syncFinished (fence : TransitionSyncFence)

/-- Heads are equal when both are there and agree in everything. -/
def transitionHeadsEqual (left right : Option GraphHead) : Bool :=
  left.isSome && decide (left = right)

def TransitionSyncFence.key (fence : TransitionSyncFence) : String :=
  graphSessionKey fence.projectId fence.expectedHead.target

def reduceProjectTransitionCoordinator (state : ProjectTransitionCoordinatorState) :
    ProjectTransitionCoordinatorAction → ProjectTransitionCoordinatorState
  | .activate projectId graphTarget =>
      { state with activeProjectId := projectId, activeGraphTarget := graphTarget }
  | .observeHead projectId head =>
      let key := graphSessionKey projectId head.target
      if transitionHeadsEqual (state.canonicalHeads key) (some head) then state
      else { state with canonicalHeads := Function.update state.canonicalHeads key (some head) }
  | .observeDraftGeneration projectId graphTarget generation =>
      let key := graphSessionKey projectId graphTarget
      if state.draftGenerations key = some generation then state
      else { state with
        draftGenerations := Function.update state.draftGenerations key (some generation) }
  | .syncStarted fence =>
      { state with syncRequests := Function.update state.syncRequests fence.key (some fence) }
  | .syncFinished fence =>
      if (state.syncRequests fence.key).map TransitionSyncFence.requestId ≠
          some fence.requestId then state
      else { state with syncRequests := Function.update state.syncRequests fence.key none }

inductive TransitionSyncCompletionDisposition where
  | apply
  | reloadActive
  | reloadInactive
  deriving DecidableEq, Repr

def transitionSyncCompletionDisposition (state : ProjectTransitionCoordinatorState)
    (fence : TransitionSyncFence) : TransitionSyncCompletionDisposition :=
  if state.activeProjectId ≠ some fence.projectId ∨
      state.activeGraphTarget ≠ fence.expectedHead.target then .reloadInactive
  else if (state.syncRequests fence.key).map TransitionSyncFence.requestId ≠
      some fence.requestId then .reloadActive
  else if (state.draftGenerations fence.key).getD 0 ≠ fence.draftGeneration then .reloadActive
  else if transitionHeadsEqual (state.canonicalHeads fence.key) (some fence.expectedHead) then
    .apply
  else .reloadActive

/-- A Sync is applied only while it is the one out, its draft was not staged anew and its head
is the one observed last. -/
theorem disposition_apply {state : ProjectTransitionCoordinatorState}
    {fence : TransitionSyncFence}
    (happly : transitionSyncCompletionDisposition state fence = .apply) :
    (state.syncRequests fence.key).map TransitionSyncFence.requestId = some fence.requestId ∧
      (state.draftGenerations fence.key).getD 0 = fence.draftGeneration ∧
      state.canonicalHeads fence.key = some fence.expectedHead := by
  unfold transitionSyncCompletionDisposition at happly
  split at happly
  · cases happly
  split at happly
  · cases happly
  rename_i hrequest
  split at happly
  · cases happly
  rename_i hgeneration
  split at happly
  · rename_i hhead
    simp only [transitionHeadsEqual, Bool.and_eq_true, decide_eq_true_eq] at hhead
    exact ⟨not_not.mp hrequest, not_not.mp hgeneration, hhead.2⟩
  · cases happly

section Reduced

variable {state : ProjectTransitionCoordinatorState} {projectId : ProjectId} {head : GraphHead}
  {graphTarget : GraphTarget} {generation : Nat} {key : String}

/-- What is observed is what was observed last. -/
@[simp] theorem canonicalHeads_observeHead :
    (reduceProjectTransitionCoordinator state (.observeHead projectId head)).canonicalHeads =
      Function.update state.canonicalHeads (graphSessionKey projectId head.target)
        (some head) := by
  simp only [reduceProjectTransitionCoordinator]
  split
  · rename_i hsame
    simp only [transitionHeadsEqual, Bool.and_eq_true, decide_eq_true_eq] at hsame
    rw [← hsame.2, Function.update_eq_self]
  · rfl

@[simp] theorem draftGenerations_observeHead :
    (reduceProjectTransitionCoordinator state (.observeHead projectId head)).draftGenerations =
      state.draftGenerations := by
  simp only [reduceProjectTransitionCoordinator]
  split <;> rfl

@[simp] theorem syncRequests_observeHead :
    (reduceProjectTransitionCoordinator state (.observeHead projectId head)).syncRequests =
      state.syncRequests := by
  simp only [reduceProjectTransitionCoordinator]
  split <;> rfl

@[simp] theorem draftGenerations_observeDraftGeneration :
    (reduceProjectTransitionCoordinator state
        (.observeDraftGeneration projectId graphTarget generation)).draftGenerations =
      Function.update state.draftGenerations (graphSessionKey projectId graphTarget)
        (some generation) := by
  simp only [reduceProjectTransitionCoordinator]
  split
  · rename_i hsame
    rw [← hsame, Function.update_eq_self]
  · rfl

@[simp] theorem canonicalHeads_observeDraftGeneration :
    (reduceProjectTransitionCoordinator state
        (.observeDraftGeneration projectId graphTarget generation)).canonicalHeads =
      state.canonicalHeads := by
  simp only [reduceProjectTransitionCoordinator]
  split <;> rfl

@[simp] theorem syncRequests_observeDraftGeneration :
    (reduceProjectTransitionCoordinator state
        (.observeDraftGeneration projectId graphTarget generation)).syncRequests =
      state.syncRequests := by
  simp only [reduceProjectTransitionCoordinator]
  split <;> rfl

theorem finished_others (state : ProjectTransitionCoordinatorState)
    (fence : TransitionSyncFence) :
    (reduceProjectTransitionCoordinator state (.syncFinished fence)).canonicalHeads =
        state.canonicalHeads ∧
      (reduceProjectTransitionCoordinator state (.syncFinished fence)).draftGenerations =
        state.draftGenerations := by
  simp only [reduceProjectTransitionCoordinator]
  split <;> exact ⟨rfl, rfl⟩

/-- A Sync that ends takes away no request but its own. -/
theorem finished_request (fence : TransitionSyncFence)
    {request : TransitionSyncFence} (hrequest : (reduceProjectTransitionCoordinator state
      (.syncFinished fence)).syncRequests key = some request) :
    state.syncRequests key = some request := by
  simp only [reduceProjectTransitionCoordinator] at hrequest
  split at hrequest
  · exact hrequest
  · have hupdated : Function.update state.syncRequests fence.key none key = some request :=
      hrequest
    rw [Function.update_apply] at hupdated
    split at hupdated
    · cases hupdated
    · exact hupdated

end Reduced

end RcpGraph.Drafts
