import RcpGraph.Lib.Undo
import RcpGraph.Drafts.Coordinator
import RcpGraph.Drafts.HumanDraft

/-!
The client session: one reducer over the staged draft, its undo history, the rendered
snapshot and the coordinator. The manifest and preview fields, which none of these depends
on, are left out.
-/

namespace RcpGraph.Drafts

structure ProjectSnapshot where
  id : ProjectId
  graphTarget : GraphTarget
  graph : GraphState
  graphHead : Option GraphHead
  /-- The head of the graph changes, when the snapshot carries them. -/
  graphChanges : Option GraphHead
  fresh : Bool

structure ProjectSessionTabState where
  projectId : Option ProjectId
  graphTarget : GraphTarget
  humanDraft : Option HumanDraft
  draftReconciliationDiscardedProposalIds : List String

structure DraftHistory where
  baseRevision : Nat
  steps : UndoHistory (Option HumanDraft)
  /-- The node-detail edit whose start step is the newest undo step. -/
  openEdit : Option String
  deriving DecidableEq

structure ProjectSessionState extends ProjectSessionTabState where
  project : Option ProjectSnapshot
  renderedRevision : Nat
  renderedEpoch : Option String
  transitionHead : GraphHead
  snapshotRequestSequence : Nat
  latestSnapshotRequests : String → Option Nat
  transitionCoordinator : ProjectTransitionCoordinatorState
  syncRequestSequence : Nat
  draftHistory : String → Option DraftHistory

inductive EditPhase where
  | start
  | finish
  deriving DecidableEq, Repr

structure EditStep where
  phase : EditPhase
  key : String
  deriving DecidableEq, Repr

structure SnapshotRequest where
  projectId : ProjectId
  requestId : Nat

/-- The snapshot delivered with its epoch, and the request it answers. -/
structure SnapshotArrival where
  snapshot : ProjectSnapshot
  epoch : Option (Option String) := none
  request : Option SnapshotRequest := none

structure CommittedTransition where
  projectId : ProjectId
  head : GraphHead
  graph : GraphState
  submittedDraft : HumanDraft

inductive ProjectSessionAction where
  | activate (projectId : Option ProjectId) (graphTarget : Option GraphTarget)
  | reset (projectId : Option ProjectId) (graphTarget : Option GraphTarget)
      (humanDraft : Option HumanDraft) (invalidateBackend : Bool)
  | restoreTab (projectId : Option ProjectId) (tab : ProjectSessionTabState)
      (consumeDiscardedProposals : Bool)
  | snapshotRequestStarted (projectId : ProjectId) (requestId : Nat)
      (graphTarget : Option GraphTarget)
  | snapshotApplied (arrival : SnapshotArrival)
  | projectReplaced (project : Option ProjectSnapshot)
  | humanDraftLoaded (draft : Option HumanDraft)
  | humanDraftUpdated (projectId : ProjectId) (draft : Option HumanDraft)
      (editStep : Option EditStep)
  | humanDraftUndo (projectId : ProjectId)
  | humanDraftRedo (projectId : ProjectId)
  | discardedProposalsConsumed
  | previewRulesetInvalidated (projectId : ProjectId) (head : GraphHead)
  | previewApplied (projectId : ProjectId) (baseHead : GraphHead)
  | syncStarted (fence : TransitionSyncFence) (snapshotRequestId syncRequestSequence : Nat)
  | syncFinished (fence : TransitionSyncFence)
  | committedTransitionApplied (commit : CommittedTransition)

def canonicalGraphHead (revision : Nat) (target : GraphTarget) : GraphHead where
  target
  revision
  transitionId := none

def emptyProjectSessionState (initialProjectId : Option ProjectId) (graphTarget : GraphTarget) :
    ProjectSessionState where
  projectId := initialProjectId
  graphTarget
  project := none
  renderedRevision := 0
  renderedEpoch := none
  humanDraft := none
  transitionHead := canonicalGraphHead 0 graphTarget
  draftReconciliationDiscardedProposalIds := []
  snapshotRequestSequence := 0
  latestSnapshotRequests := fun _ => none
  transitionCoordinator := reduceProjectTransitionCoordinator emptyProjectTransitionCoordinator
    (.activate initialProjectId graphTarget)
  syncRequestSequence := 0
  draftHistory := fun _ => none

namespace ProjectSessionState

variable (state : ProjectSessionState)

def clearDraftHistory (projectId : Option ProjectId) (graphTarget : GraphTarget) :
    String → Option DraftHistory :=
  match projectId with
  | none => state.draftHistory
  | some projectId =>
      Function.update state.draftHistory (graphSessionKey projectId graphTarget) none

def coordinate (action : ProjectTransitionCoordinatorAction) :
    ProjectTransitionCoordinatorState :=
  reduceProjectTransitionCoordinator state.transitionCoordinator action

def reset (projectId : Option ProjectId) (graphTarget : Option GraphTarget)
    (humanDraft : Option HumanDraft) (invalidateBackend : Bool) : ProjectSessionState :=
  let empty := emptyProjectSessionState projectId (graphTarget.getD .main)
  { empty with
    snapshotRequestSequence := state.snapshotRequestSequence
    latestSnapshotRequests := state.latestSnapshotRequests
    syncRequestSequence := state.syncRequestSequence
    humanDraft
    draftHistory := if invalidateBackend then fun _ => none
      else state.clearDraftHistory projectId empty.graphTarget
    transitionCoordinator := reduceProjectTransitionCoordinator
      (if invalidateBackend then emptyProjectTransitionCoordinator
        else state.transitionCoordinator)
      (.activate projectId (graphTarget.getD .main)) }

def restoreTab (projectId : Option ProjectId) (tab : ProjectSessionTabState)
    (consumeDiscardedProposals : Bool) : ProjectSessionState :=
  { emptyProjectSessionState projectId tab.graphTarget with
    humanDraft := tab.humanDraft
    draftHistory := state.draftHistory
    snapshotRequestSequence := state.snapshotRequestSequence
    latestSnapshotRequests := state.latestSnapshotRequests
    syncRequestSequence := state.syncRequestSequence
    draftReconciliationDiscardedProposalIds := if consumeDiscardedProposals then []
      else tab.draftReconciliationDiscardedProposalIds
    transitionCoordinator := state.coordinate (.activate projectId tab.graphTarget) }

def snapshotRequestIsCurrent (request : SnapshotRequest) : Bool :=
  state.latestSnapshotRequests (graphSessionKey request.projectId state.graphTarget) =
    some request.requestId

def cachedSnapshotCanReplace (snapshot : ProjectSnapshot) (epoch : Option String) : Bool :=
  epoch ≠ state.renderedEpoch ||
    some snapshot.id ≠ ((state.project.map ProjectSnapshot.id).or
      state.transitionCoordinator.activeProjectId) ||
    state.renderedRevision ≤ snapshot.graph.revision

/-- The head a snapshot names belongs to the open target, at the revision of its graph. -/
def headFits (snapshot : ProjectSnapshot) (head : GraphHead) : Bool :=
  head.target = state.graphTarget && head.revision = snapshot.graph.revision

/-- Whether an arriving snapshot is taken. -/
def acceptsSnapshot (arrival : SnapshotArrival) : Bool :=
  let snapshot := arrival.snapshot
  arrival.request.all state.snapshotRequestIsCurrent &&
    (state.projectId = some snapshot.id && snapshot.graphTarget = state.graphTarget) &&
    state.cachedSnapshotCanReplace snapshot (arrival.epoch.getD state.renderedEpoch) &&
    snapshot.graphHead.all (state.headFits snapshot) &&
    (snapshot.graphChanges.all fun head =>
      state.headFits snapshot head && transitionHeadsEqual (some head) snapshot.graphHead) &&
    (state.graphTarget = .main || snapshot.graphHead.isSome)

/-- The head of an accepted snapshot. One revision of one target has one head, so the head
already observed there stands in for one without a transition id. -/
def nextHead (snapshot : ProjectSnapshot) : GraphHead :=
  let observed := (state.transitionCoordinator.canonicalHeads
    (graphSessionKey snapshot.id state.graphTarget)).filter (state.headFits snapshot)
  let named := snapshot.graphHead.filter fun head =>
    head.transitionId.isSome || observed.isNone
  (named.or observed).getD (canonicalGraphHead snapshot.graph.revision state.graphTarget)

/-- The draft and the discarded Proposals after a rebase onto the snapshot's graph. -/
def reconciled (snapshot : ProjectSnapshot) : Option HumanDraftReconciliation :=
  state.humanDraft.map fun draft =>
    if snapshot.fresh then reconcileHumanDraft draft snapshot.graph
    else { draft := normalizeHumanDraft draft snapshot.graph, discardedProposalIds := [] }

def discarded (snapshot : ProjectSnapshot) : List String :=
  ((state.reconciled snapshot).map HumanDraftReconciliation.discardedProposalIds).getD []

def rebased (snapshot : ProjectSnapshot) : Option HumanDraft :=
  ((state.reconciled snapshot).map HumanDraftReconciliation.draft).filter fun draft =>
    decide (humanDraftChangeCount (some draft) > 0)

def carriesNoNewCanonicalState (snapshot : ProjectSnapshot) : Bool :=
  snapshot.graph.revision = state.renderedRevision &&
    transitionHeadsEqual (some state.transitionHead) (some (state.nextHead snapshot)) &&
    (state.discarded snapshot).isEmpty &&
    humanDraftChangeCount (state.rebased snapshot) = humanDraftChangeCount state.humanDraft

def draftAfter (snapshot : ProjectSnapshot) : Option HumanDraft :=
  if state.carriesNoNewCanonicalState snapshot then state.humanDraft else state.rebased snapshot

/-- Whether the undo history survives a snapshot. -/
def keepsHistory (snapshot : ProjectSnapshot) : Bool :=
  (state.draftHistory (graphSessionKey snapshot.id state.graphTarget)).map
      DraftHistory.baseRevision = some snapshot.graph.revision &&
    state.draftAfter snapshot = state.humanDraft

def applyProjectSnapshot (arrival : SnapshotArrival) : ProjectSessionState :=
  let snapshot := arrival.snapshot
  if state.acceptsSnapshot arrival then
    { state with
      project := some snapshot
      renderedRevision := snapshot.graph.revision
      renderedEpoch := arrival.epoch.getD state.renderedEpoch
      humanDraft := state.draftAfter snapshot
      draftHistory := if state.keepsHistory snapshot then state.draftHistory
        else state.clearDraftHistory state.projectId state.graphTarget
      transitionHead := state.nextHead snapshot
      draftReconciliationDiscardedProposalIds :=
        (state.draftReconciliationDiscardedProposalIds ++ state.discarded snapshot).eraseDups
      transitionCoordinator :=
        state.coordinate (.observeHead snapshot.id (state.nextHead snapshot)) }
  else state

def projectReplaced (project : Option ProjectSnapshot) : ProjectSessionState :=
  if project.any fun project =>
      decide (state.project.map ProjectSnapshot.id ≠ some project.id) ||
        decide (project.graph.revision ≠ state.renderedRevision) ||
        decide (project.graphTarget ≠ state.graphTarget) then state
  else { state with project }

/-- A new draft of the open project, with the history that goes with it. -/
def stage (projectId : ProjectId) (draft : Option HumanDraft)
    (steps : UndoHistory (Option HumanDraft)) (openEdit : Option String) : ProjectSessionState :=
  let key := graphSessionKey projectId state.graphTarget
  { state with
    humanDraft := draft
    draftHistory := Function.update state.draftHistory key
      (some { baseRevision := state.renderedRevision, steps, openEdit })
    transitionCoordinator := state.coordinate (.observeDraftGeneration projectId
      state.graphTarget ((state.transitionCoordinator.draftGenerations key).getD 0 + 1)) }

def historyOf (projectId : ProjectId) : UndoHistory (Option HumanDraft) :=
  ((state.draftHistory (graphSessionKey projectId state.graphTarget)).map
    DraftHistory.steps).getD {}

/-- Undo steps that are kept. -/
def historyLimit : Nat := 100

/-- A finish of the edit whose start opened the newest step folds into that step. -/
def folds (projectId : ProjectId) (editStep : Option EditStep) : Bool :=
  editStep.any fun step =>
    decide (step.phase = .finish) &&
      decide (((state.draftHistory (graphSessionKey projectId state.graphTarget)).bind
        DraftHistory.openEdit) = some step.key) &&
      !(state.historyOf projectId).past.isEmpty

def humanDraftUpdated (projectId : ProjectId) (draft : Option HumanDraft)
    (editStep : Option EditStep) : ProjectSessionState :=
  if state.projectId ≠ some projectId then state
  else
    let history := state.historyOf projectId
    let steps := if state.folds projectId editStep then history.fold
      else history.record historyLimit state.humanDraft
    let opened := (editStep.filter fun step => decide (step.phase = .start)).map EditStep.key
    state.stage projectId draft steps (opened.filter fun key => decide (key ≠ ""))

def humanDraftUndo (projectId : ProjectId) : ProjectSessionState :=
  if state.projectId ≠ some projectId then state
  else
    match (state.historyOf projectId).undo historyLimit state.humanDraft with
    | none => state
    | some (draft, steps) => state.stage projectId draft steps none

def humanDraftRedo (projectId : ProjectId) : ProjectSessionState :=
  if state.projectId ≠ some projectId then state
  else
    match (state.historyOf projectId).redo historyLimit state.humanDraft with
    | none => state
    | some (draft, steps) => state.stage projectId draft steps none

/-- Whether a committed transition is taken by the open session. -/
def acceptsCommit (commit : CommittedTransition) : Bool :=
  (state.project.any fun project => project.id = commit.projectId) &&
    commit.head.target = state.graphTarget && state.renderedRevision ≤ commit.head.revision

def applyCommittedTransition (commit : CommittedTransition) : ProjectSessionState :=
  match state.project with
  | none => state
  | some project =>
      if state.acceptsCommit commit then
        { state with
          project := some { project with
            graph := commit.graph, graphHead := some commit.head, graphChanges := none }
          renderedRevision := commit.graph.revision
          humanDraft := retainBehindDraftAfterSync commit.submittedDraft project.graph commit.graph
          draftHistory := state.clearDraftHistory state.projectId state.graphTarget
          transitionHead := commit.head
          transitionCoordinator := state.coordinate (.observeHead commit.projectId commit.head) }
      else state

end ProjectSessionState

def projectSessionReducer (state : ProjectSessionState) :
    ProjectSessionAction → ProjectSessionState
  | .activate projectId graphTarget =>
      { state with
        transitionCoordinator :=
          state.coordinate (.activate projectId (graphTarget.getD state.graphTarget)) }
  | .reset projectId graphTarget humanDraft invalidateBackend =>
      state.reset projectId graphTarget humanDraft invalidateBackend
  | .restoreTab projectId tab consumeDiscardedProposals =>
      state.restoreTab projectId tab consumeDiscardedProposals
  | .snapshotRequestStarted projectId requestId graphTarget =>
      { state with
        snapshotRequestSequence := requestId
        latestSnapshotRequests := Function.update state.latestSnapshotRequests
          (graphSessionKey projectId (graphTarget.getD state.graphTarget)) (some requestId) }
  | .snapshotApplied arrival => state.applyProjectSnapshot arrival
  | .projectReplaced project => state.projectReplaced project
  | .humanDraftLoaded draft =>
      { state with
        humanDraft := draft
        draftHistory := state.clearDraftHistory state.projectId state.graphTarget }
  | .humanDraftUpdated projectId draft editStep =>
      state.humanDraftUpdated projectId draft editStep
  | .humanDraftUndo projectId => state.humanDraftUndo projectId
  | .humanDraftRedo projectId => state.humanDraftRedo projectId
  | .discardedProposalsConsumed => { state with draftReconciliationDiscardedProposalIds := [] }
  | .previewRulesetInvalidated projectId head =>
      { state with
        transitionHead := head
        transitionCoordinator := state.coordinate (.observeHead projectId head) }
  | .previewApplied projectId baseHead =>
      { state with
        transitionHead := baseHead
        transitionCoordinator := state.coordinate (.observeHead projectId baseHead) }
  | .syncStarted fence snapshotRequestId syncRequestSequence =>
      { state with
        snapshotRequestSequence := snapshotRequestId
        latestSnapshotRequests :=
          Function.update state.latestSnapshotRequests fence.key (some snapshotRequestId)
        syncRequestSequence
        transitionCoordinator := state.coordinate (.syncStarted fence) }
  | .syncFinished fence =>
      { state with transitionCoordinator := state.coordinate (.syncFinished fence) }
  | .committedTransitionApplied commit => state.applyCommittedTransition commit

/-- The fence of a Sync that starts now; none while one is out for the project and target. -/
def ProjectSessionState.nextFence (state : ProjectSessionState) (projectId : ProjectId)
    (expectedHead : GraphHead) : Option TransitionSyncFence :=
  let key := graphSessionKey projectId expectedHead.target
  if (state.transitionCoordinator.syncRequests key).isSome then none
  else some {
    projectId
    requestId := state.syncRequestSequence + 1
    expectedHead
    draftGeneration := (state.transitionCoordinator.draftGenerations key).getD 0 }

def beginSync (state : ProjectSessionState) (projectId : ProjectId) (expectedHead : GraphHead) :
    Option TransitionSyncFence × ProjectSessionState :=
  match state.nextFence projectId expectedHead with
  | none => (none, state)
  | some fence => (some fence, projectSessionReducer state
      (.syncStarted fence (state.snapshotRequestSequence + 1) fence.requestId))

end RcpGraph.Drafts
