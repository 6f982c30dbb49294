import RcpGraph.Lib.Walk
import RcpGraph.Drafts.Session

/-!
Runs of the client session. A step is read through what it stages, what it observes and
what it forgets; each map of the session is then given by these alone.
-/

namespace RcpGraph.Drafts

/-- Only `beginSync` starts a Sync. -/
def ProjectSessionAction.startsSync : ProjectSessionAction → Bool
  | .syncStarted .. => true
  | _ => false

inductive SessionEvent where
  | act (action : ProjectSessionAction) (plain : action.startsSync = false)
  | beginSync (projectId : ProjectId) (expectedHead : GraphHead)

def sessionStep (state : ProjectSessionState) : SessionEvent → ProjectSessionState
  | .act action _ => projectSessionReducer state action
  | .beginSync projectId expectedHead => (beginSync state projectId expectedHead).2

namespace ProjectSessionState

variable (state : ProjectSessionState)

/-- The project and target whose draft an action updates, undoes or redoes. -/
def stagedBy : ProjectSessionAction → Option (ProjectId × GraphTarget)
  | .humanDraftUpdated projectId _ _ =>
      if state.projectId = some projectId then some (projectId, state.graphTarget) else none
  | .humanDraftUndo projectId =>
      if state.projectId = some projectId ∧ (state.historyOf projectId).past ≠ [] then
        some (projectId, state.graphTarget)
      else none
  | .humanDraftRedo projectId =>
      if state.projectId = some projectId ∧ (state.historyOf projectId).future ≠ [] then
        some (projectId, state.graphTarget)
      else none
  | _ => none

/-- The project and the head that an action observes. -/
def observedBy : ProjectSessionAction → Option (ProjectId × GraphHead)
  | .snapshotApplied arrival =>
      if state.acceptsSnapshot arrival then
        some (arrival.snapshot.id, state.nextHead arrival.snapshot)
      else none
  | .previewRulesetInvalidated projectId head => some (projectId, head)
  | .previewApplied projectId baseHead => some (projectId, baseHead)
  | .committedTransitionApplied commit =>
      if state.acceptsCommit commit then some (commit.projectId, commit.head) else none
  | _ => none

end ProjectSessionState

/-- A reset that comes with another backend. -/
def ProjectSessionAction.forgets : ProjectSessionAction → Bool
  | .reset _ _ _ invalidateBackend => invalidateBackend
  | _ => false

namespace SessionEvent

def stages (event : SessionEvent) (state : ProjectSessionState) :
    Option (ProjectId × GraphTarget) :=
  match event with
  | act action _ => state.stagedBy action
  | beginSync .. => none

def observes (event : SessionEvent) (state : ProjectSessionState) :
    Option (ProjectId × GraphHead) :=
  match event with
  | act action _ => state.observedBy action
  | beginSync .. => none

def forgets : SessionEvent → Bool
  | act action _ => action.forgets
  | beginSync .. => false

end SessionEvent

section Steps

variable {state : ProjectSessionState} {action : ProjectSessionAction} {event : SessionEvent}
  {projectId : ProjectId} {graphTarget : GraphTarget} {key : String}

theorem undo_openHistory (state : ProjectSessionState)
    (hpast : (state.historyOf projectId).past ≠ []) :
    ∃ draft steps, (state.historyOf projectId).undo ProjectSessionState.historyLimit
      state.humanDraft = some (draft, steps) :=
  UndoHistory.undo_exists hpast

theorem redo_openHistory (state : ProjectSessionState)
    (hfuture : (state.historyOf projectId).future ≠ []) :
    ∃ draft steps, (state.historyOf projectId).redo ProjectSessionState.historyLimit
      state.humanDraft = some (draft, steps) :=
  UndoHistory.redo_exists hfuture

/-- What staging a draft leaves behind: the history of its key and nothing else of the
histories, and one more generation of its key. -/
structure Staged (state next : ProjectSessionState) (projectId : ProjectId) : Prop where
  openTarget : next.graphTarget = state.graphTarget
  openProject : next.projectId = state.projectId
  project : next.project = state.project
  revision : next.renderedRevision = state.renderedRevision
  sequence : next.syncRequestSequence = state.syncRequestSequence
  heads : next.transitionCoordinator.canonicalHeads = state.transitionCoordinator.canonicalHeads
  requests : next.transitionCoordinator.syncRequests = state.transitionCoordinator.syncRequests
  generations : next.transitionCoordinator.draftGenerations =
    Function.update state.transitionCoordinator.draftGenerations
      (graphSessionKey projectId state.graphTarget)
      (some ((state.transitionCoordinator.draftGenerations
        (graphSessionKey projectId state.graphTarget)).getD 0 + 1))
  history : ∃ history : DraftHistory, next.draftHistory =
      Function.update state.draftHistory (graphSessionKey projectId state.graphTarget)
        (some history) ∧
    history.baseRevision = state.renderedRevision ∧
    ∀ draft ∈ history.steps.values, draft = state.humanDraft ∨
      draft ∈ (state.historyOf projectId).values

theorem staged_stage (draft : Option HumanDraft) (steps : UndoHistory (Option HumanDraft))
    (openEdit : Option String)
    (hsteps : ∀ z ∈ steps.values, z = state.humanDraft ∨ z ∈ (state.historyOf projectId).values) :
    Staged state (state.stage projectId draft steps openEdit) projectId where
  openTarget := rfl
  openProject := rfl
  project := rfl
  revision := rfl
  sequence := rfl
  heads := canonicalHeads_observeDraftGeneration
  requests := syncRequests_observeDraftGeneration
  generations := draftGenerations_observeDraftGeneration
  history := ⟨_, rfl, rfl, hsteps⟩

/-- An action that stages something stages it for the open project and target. -/
theorem staged_of_stagedBy (hstages : state.stagedBy action = some (projectId, graphTarget)) :
    state.projectId = some projectId ∧ state.graphTarget = graphTarget ∧
      Staged state (projectSessionReducer state action) projectId := by
  cases action with
  | humanDraftUpdated projectId' draft editStep =>
      simp only [ProjectSessionState.stagedBy] at hstages
      split at hstages
      · rename_i hopen
        cases hstages
        refine ⟨hopen, rfl, ?_⟩
        simp only [projectSessionReducer, ProjectSessionState.humanDraftUpdated, hopen, ne_eq,
          not_true_eq_false, if_false]
        refine staged_stage _ _ _ fun z hz => ?_
        split at hz
        · exact .inr (UndoHistory.mem_fold hz)
        · exact UndoHistory.mem_record hz
      · cases hstages
  | humanDraftUndo projectId' =>
      simp only [ProjectSessionState.stagedBy] at hstages
      split at hstages
      · rename_i hopen
        cases hstages
        obtain ⟨last, steps, hundo⟩ := undo_openHistory state hopen.2
        refine ⟨hopen.1, rfl, ?_⟩
        simp only [projectSessionReducer, ProjectSessionState.humanDraftUndo, hopen.1, ne_eq,
          not_true_eq_false, if_false, hundo]
        exact staged_stage _ _ _ (UndoHistory.mem_undo hundo).2
      · cases hstages
  | humanDraftRedo projectId' =>
      simp only [ProjectSessionState.stagedBy] at hstages
      split at hstages
      · rename_i hopen
        cases hstages
        obtain ⟨last, steps, hredo⟩ := redo_openHistory state hopen.2
        refine ⟨hopen.1, rfl, ?_⟩
        simp only [projectSessionReducer, ProjectSessionState.humanDraftRedo, hopen.1, ne_eq,
          not_true_eq_false, if_false, hredo]
        exact staged_stage _ _ _ (UndoHistory.mem_redo hredo).2
      · cases hstages
  | activate | reset | restoreTab | snapshotRequestStarted | snapshotApplied | projectReplaced
  | humanDraftLoaded | discardedProposalsConsumed | previewRulesetInvalidated | previewApplied
  | syncStarted | syncFinished | committedTransitionApplied => cases hstages

/-- An update, undo or redo that stages nothing changes nothing. -/
theorem unstaged_updated {draft : Option HumanDraft} {editStep : Option EditStep}
    (hstages : state.stagedBy (.humanDraftUpdated projectId draft editStep) = none) :
    state.humanDraftUpdated projectId draft editStep = state := by
  simp only [ProjectSessionState.stagedBy] at hstages
  split at hstages
  · cases hstages
  · rename_i hopen
    simp only [ProjectSessionState.humanDraftUpdated, hopen, ne_eq, not_false_eq_true, if_true]

theorem unstaged_undo (hstages : state.stagedBy (.humanDraftUndo projectId) = none) :
    state.humanDraftUndo projectId = state := by
  simp only [ProjectSessionState.stagedBy] at hstages
  split at hstages
  · cases hstages
  · rename_i hopen
    unfold ProjectSessionState.humanDraftUndo
    split
    · rfl
    · rename_i hproject
      have hpast : (state.historyOf projectId).past = [] :=
        not_not.mp fun hpast => hopen ⟨not_not.mp hproject, hpast⟩
      simp only [UndoHistory.undo, hpast, List.getLast?_nil, Option.map_none]

theorem unstaged_redo (hstages : state.stagedBy (.humanDraftRedo projectId) = none) :
    state.humanDraftRedo projectId = state := by
  simp only [ProjectSessionState.stagedBy] at hstages
  split at hstages
  · cases hstages
  · rename_i hopen
    unfold ProjectSessionState.humanDraftRedo
    split
    · rfl
    · rename_i hproject
      have hfuture : (state.historyOf projectId).future = [] :=
        not_not.mp fun hfuture => hopen ⟨not_not.mp hproject, hfuture⟩
      simp only [UndoHistory.redo, hfuture, List.getLast?_nil, Option.map_none]

/-- What a step that stages nothing leaves of the coordinator: heads change only by what is
observed, and no request is added. -/
structure Coordinated (state next : ProjectSessionState)
    (observed : Option (ProjectId × GraphHead)) : Prop where
  heads : next.transitionCoordinator.canonicalHeads =
    observed.elim state.transitionCoordinator.canonicalHeads fun seen =>
      Function.update state.transitionCoordinator.canonicalHeads
        (graphSessionKey seen.1 seen.2.target) (some seen.2)
  generations : next.transitionCoordinator.draftGenerations =
    state.transitionCoordinator.draftGenerations
  requests : ∀ key fence, next.transitionCoordinator.syncRequests key = some fence →
    state.transitionCoordinator.syncRequests key = some fence
  sequence : next.syncRequestSequence = state.syncRequestSequence

theorem Coordinated.refl (state : ProjectSessionState) : Coordinated state state none :=
  ⟨rfl, rfl, fun _ _ h => h, rfl⟩

theorem Coordinated.observe {next : ProjectSessionState} {projectId : ProjectId}
    {head : GraphHead}
    (hcoordinator : next.transitionCoordinator = state.coordinate (.observeHead projectId head))
    (hsequence : next.syncRequestSequence = state.syncRequestSequence) :
    Coordinated state next (some (projectId, head)) where
  heads := by rw [hcoordinator]; exact canonicalHeads_observeHead
  generations := by rw [hcoordinator]; exact draftGenerations_observeHead
  requests key fence h := by
    rw [hcoordinator] at h
    exact (congrFun syncRequests_observeHead key) ▸ h
  sequence := hsequence

theorem coordinated_step (hplain : action.startsSync = false) (hknows : action.forgets = false)
    (hstages : state.stagedBy action = none) :
    Coordinated state (projectSessionReducer state action) (state.observedBy action) := by
  cases action with
  | activate | restoreTab | snapshotRequestStarted | humanDraftLoaded
  | discardedProposalsConsumed => exact ⟨rfl, rfl, fun _ _ h => h, rfl⟩
  | reset projectId graphTarget humanDraft invalidateBackend =>
      cases invalidateBackend with
      | true => cases hknows
      | false => exact ⟨rfl, rfl, fun _ _ h => h, rfl⟩
  | projectReplaced project =>
      simp only [projectSessionReducer, ProjectSessionState.projectReplaced,
        ProjectSessionState.observedBy]
      split <;> exact ⟨rfl, rfl, fun _ _ h => h, rfl⟩
  | humanDraftUpdated projectId draft editStep =>
      rw [projectSessionReducer, unstaged_updated hstages]
      exact Coordinated.refl state
  | humanDraftUndo projectId =>
      rw [projectSessionReducer, unstaged_undo hstages]
      exact Coordinated.refl state
  | humanDraftRedo projectId =>
      rw [projectSessionReducer, unstaged_redo hstages]
      exact Coordinated.refl state
  | previewRulesetInvalidated projectId head | previewApplied projectId head =>
      exact Coordinated.observe rfl rfl
  | syncStarted => cases hplain
  | syncFinished fence =>
      have hothers := finished_others state.transitionCoordinator fence
      exact ⟨hothers.1, hothers.2, fun key request h => finished_request fence h, rfl⟩
  | snapshotApplied arrival =>
      simp only [projectSessionReducer, ProjectSessionState.applyProjectSnapshot,
        ProjectSessionState.observedBy]
      split
      · exact Coordinated.observe rfl rfl
      · exact Coordinated.refl state
  | committedTransitionApplied commit =>
      simp only [projectSessionReducer, ProjectSessionState.applyCommittedTransition,
        ProjectSessionState.observedBy]
      cases hproject : state.project with
      | none =>
          simp only [ProjectSessionState.acceptsCommit, hproject, Option.any_none,
            Bool.false_and, Bool.false_eq_true, if_false]
          exact Coordinated.refl state
      | some project =>
          by_cases haccepts : state.acceptsCommit commit = true
          · simp only [haccepts, if_true]
            exact Coordinated.observe rfl rfl
          · simp only [haccepts, Bool.false_eq_true, if_false]
            exact Coordinated.refl state

/-- A reset with another backend forgets heads, generations, requests and histories. -/
theorem forgotten_step (state : ProjectSessionState) (hforgets : action.forgets = true) :
    (projectSessionReducer state action).syncRequestSequence = state.syncRequestSequence ∧
    (∀ key, (projectSessionReducer state action).transitionCoordinator.canonicalHeads key = none) ∧
    (∀ key, (projectSessionReducer state action).transitionCoordinator.syncRequests key = none) ∧
    ∀ key, (projectSessionReducer state action).draftHistory key = none := by
  cases action with
  | reset projectId graphTarget humanDraft invalidateBackend =>
      cases invalidateBackend with
      | false => cases hforgets
      | true => exact ⟨rfl, fun _ => rfl, fun _ => rfl, fun _ => rfl⟩
  | activate | restoreTab | snapshotRequestStarted | snapshotApplied | projectReplaced
  | humanDraftLoaded | humanDraftUpdated | humanDraftUndo | humanDraftRedo
  | discardedProposalsConsumed | previewRulesetInvalidated | previewApplied | syncStarted
  | syncFinished | committedTransitionApplied => cases hforgets

theorem beginSync_fence {projectId : ProjectId} {expectedHead : GraphHead}
    {fence : TransitionSyncFence} (hfence : state.nextFence projectId expectedHead = some fence) :
    fence.projectId = projectId ∧ fence.expectedHead = expectedHead ∧
      fence.requestId = state.syncRequestSequence + 1 ∧
      fence.draftGeneration =
        (state.transitionCoordinator.draftGenerations fence.key).getD 0 := by
  simp only [ProjectSessionState.nextFence] at hfence
  split at hfence
  · cases hfence
  · cases hfence
    exact ⟨rfl, rfl, rfl, rfl⟩

theorem beginSync_state {projectId : ProjectId} {expectedHead : GraphHead}
    {fence : TransitionSyncFence} (hfence : state.nextFence projectId expectedHead = some fence) :
    (beginSync state projectId expectedHead).2 = projectSessionReducer state
      (.syncStarted fence (state.snapshotRequestSequence + 1) fence.requestId) := by
  simp only [beginSync, hfence]

theorem beginSync_refused {projectId : ProjectId} {expectedHead : GraphHead}
    (hfence : state.nextFence projectId expectedHead = none) :
    (beginSync state projectId expectedHead).2 = state := by
  simp only [beginSync, hfence]

end Steps

end RcpGraph.Drafts
