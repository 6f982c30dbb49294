import RcpGraph.Drafts.Rendered

/-!
The session keeps staged work: what a Sync that still applies may overwrite, what it leaves
staged, and what undo and redo bring back.
-/

namespace RcpGraph.Drafts

open Walk

variable {tab start : Tab} {event : SessionEvent} {events : List SessionEvent}

theorem Sound.reset (hsound : Sound start events tab) (hstages : event.stages tab.session = none)
    (hrendered : tab.rendersAfter event = false)
    (hrevision : (sessionStep tab.session event).renderedRevision = 0)
    (hproject : (sessionStep tab.session event).project = none) :
    Sound start (events ++ [event]) (tab.step event) :=
  hsound.unstaged hstages (fun _ => ⟨hrevision, hproject⟩) fun hrenders => by
    rw [hrendered] at hrenders
    cases hrenders

theorem Sound.unchanged (hsound : Sound start events tab)
    (hstages : event.stages tab.session = none)
    (hrendered : tab.rendersAfter event = tab.rendered)
    (hsame : sessionStep tab.session event = tab.session) :
    Sound start (events ++ [event]) (tab.step event) :=
  hsound.same hstages hrendered (by rw [hsame]) (by rw [hsame]) (by rw [hsame]) fun hnone => by
    rw [hsame, hnone]

theorem replaced_view (state : ProjectSessionState) (project : Option ProjectSnapshot) :
    (state.projectReplaced project).projectId = state.projectId ∧
      (state.projectReplaced project).graphTarget = state.graphTarget ∧
      (state.projectReplaced project).renderedRevision = state.renderedRevision ∧
      (state.project = none → (state.projectReplaced project).project = none) := by
  unfold ProjectSessionState.projectReplaced
  split
  · exact ⟨rfl, rfl, rfl, id⟩
  · rename_i hreplaces
    refine ⟨rfl, rfl, rfl, fun hnone => ?_⟩
    cases project with
    | none => rfl
    | some project => simp [hnone] at hreplaces

/-- One lemma for each kind of action; the staging ones are treated alike. -/
theorem Sound.step (hsound : Sound start events tab) (htab : walk Tab.step start events = tab)
    (hmeets : tab.Meets event) : Sound start (events ++ [event]) (tab.step event) := by
  cases event with
  | beginSync projectId expectedHead =>
      cases hnext : tab.session.nextFence projectId expectedHead with
      | none =>
          exact hsound.unchanged rfl rfl (beginSync_refused hnext)
      | some fence =>
          have hstate : sessionStep tab.session (.beginSync projectId expectedHead) = _ :=
            beginSync_state hnext
          exact hsound.same rfl rfl (by rw [hstate]; rfl) (by rw [hstate]; rfl)
            (by rw [hstate]; rfl) (fun hnone => by rw [hstate]; exact hnone)
  | act action plain =>
      cases hstages : tab.session.stagedBy action with
      | some staged => exact hsound.stages htab hstages
      | none =>
          cases action with
          | syncStarted => cases plain
          | reset | restoreTab => exact hsound.reset rfl rfl rfl rfl
          | activate | snapshotRequestStarted | humanDraftLoaded | discardedProposalsConsumed
          | previewRulesetInvalidated | previewApplied | syncFinished =>
              exact hsound.same rfl rfl rfl rfl rfl id
          | humanDraftUpdated projectId draft editStep =>
              exact hsound.unchanged hstages rfl (unstaged_updated hstages)
          | humanDraftUndo projectId => exact hsound.unchanged hstages rfl (unstaged_undo hstages)
          | humanDraftRedo projectId => exact hsound.unchanged hstages rfl (unstaged_redo hstages)
          | projectReplaced project =>
              obtain ⟨hproject, htarget, hrevision, hnone⟩ := replaced_view tab.session project
              exact hsound.same rfl rfl hproject htarget hrevision hnone
          | snapshotApplied arrival =>
              by_cases haccepts : tab.session.acceptsSnapshot arrival = true
              · exact hsound.snapshot haccepts hmeets
              · exact hsound.unchanged rfl (by simp [Tab.rendersAfter, haccepts])
                  (if_neg haccepts)
          | committedTransitionApplied commit => exact hsound.commit

theorem sound_initial (initial : Option ProjectId) (graphTarget : GraphTarget) :
    Sound (Tab.initial initial graphTarget) [] (Tab.initial initial graphTarget) where
  unrendered _ := ⟨rfl, rfl⟩
  blindBase _ _ hblind := by cases hblind
  opened hrendered := by cases hrendered
  staged _ _ _ hhistory := by cases hhistory

theorem sound_run (initial : Option ProjectId) (graphTarget : GraphTarget)
    (events : List SessionEvent)
    (hmeets : All Tab.step Tab.Meets (Tab.initial initial graphTarget) events) :
    Sound (Tab.initial initial graphTarget) events
      (walk Tab.step (Tab.initial initial graphTarget) events) := by
  refine walk_carries (P := fun events => Sound (Tab.initial initial graphTarget) events
    (walk Tab.step (Tab.initial initial graphTarget) events)) (sound_initial initial graphTarget)
    (fun events event hsound hevent => ?_) events hmeets
  rw [walk_concat]
  exact hsound.step rfl hevent

section StagedWork

/-- What the session owes to staged work at the end of a run. -/
structure KeepsStagedWork (start : Tab) (events : List SessionEvent) : Prop where
  /-- A fence that applies has seen nothing staged since, and its head is the last one. -/
  fenced : ∀ before after projectId expectedHead fence,
    events = before ++ .beginSync projectId expectedHead :: after →
    (walk Tab.step start before).session.nextFence projectId expectedHead = some fence →
    transitionSyncCompletionDisposition
      (walk Tab.step start events).session.transitionCoordinator fence = .apply →
    (∀ passed ∈ visited sessionStep (sessionStep (walk Tab.step start before).session
        (.beginSync projectId expectedHead)) after,
      passed.2.stages passed.1 ≠ some (projectId, expectedHead.target)) ∧
    lastObserved projectId expectedHead.target (visited sessionStep start.session events) =
      some expectedHead
  /-- A committed transition leaves staged what was behind. -/
  behind : ∀ before commit plain project nodeId entry node,
    events = before ++ [.act (.committedTransitionApplied commit) plain] →
    (walk Tab.step start before).session.project = some project →
    (walk Tab.step start before).session.acceptsCommit commit = true →
    commit.submittedDraft.nodes.get? nodeId = some entry →
    draftNodeIsBehind entry (project.graph.nodes.get? nodeId) = true →
    commit.graph.nodes.get? nodeId = some node →
    ∃ draft, (walk Tab.step start events).session.humanDraft = some draft ∧
      draft.nodes.get? nodeId = some entry
  /-- Undoing an update brings back the draft it replaced. -/
  undone : ∀ before projectId draft plain plain',
    events = before ++ [.act (.humanDraftUpdated projectId draft none) plain,
      .act (.humanDraftUndo projectId) plain'] →
    (walk Tab.step start before).session.projectId = some projectId →
    (walk Tab.step start events).session.humanDraft =
      (walk Tab.step start before).session.humanDraft
  /-- Redoing brings back what was undone. -/
  redone : ∀ before projectId plain plain',
    events = before ++ [.act (.humanDraftUndo projectId) plain,
      .act (.humanDraftRedo projectId) plain'] →
    ((walk Tab.step start before).session.stagedBy (.humanDraftUndo projectId)).isSome →
    (walk Tab.step start events).session.humanDraft =
      (walk Tab.step start before).session.humanDraft
  /-- What undo and redo bring back was staged while the graph rendered now was rendered. -/
  broughtBack : ∀ before action plain projectId target,
    events = before ++ [.act action plain] →
    action = .humanDraftUndo projectId ∨ action = .humanDraftRedo projectId →
    (walk Tab.step start before).rendered = true →
    (walk Tab.step start before).session.stagedBy action = some (projectId, target) →
    StagedWhileRendered start before projectId target
      (walk Tab.step start before).session.renderedRevision
      (walk Tab.step start events).session.humanDraft

variable {projectId : ProjectId} {target : GraphTarget} {state : ProjectSessionState}

theorem undo_updated (draft : Option HumanDraft) (hopen : state.projectId = some projectId) :
    ((state.humanDraftUpdated projectId draft none).humanDraftUndo projectId).humanDraft =
      state.humanDraft := by
  have hnext : state.humanDraftUpdated projectId draft none = state.stage projectId draft
      ((state.historyOf projectId).record ProjectSessionState.historyLimit state.humanDraft)
      none := by
    simp only [ProjectSessionState.humanDraftUpdated, hopen, ne_eq, not_true_eq_false, if_false,
      ProjectSessionState.folds, Option.any_none, Bool.false_eq_true, Option.filter_none,
      Option.map_none]
  have hhistory : (state.humanDraftUpdated projectId draft none).historyOf projectId =
      (state.historyOf projectId).record ProjectSessionState.historyLimit state.humanDraft := by
    rw [hnext]
    simp only [ProjectSessionState.historyOf, ProjectSessionState.stage, Function.update_self,
      Option.map_some, Option.getD_some]
  have hopen' : (state.humanDraftUpdated projectId draft none).projectId = some projectId := by
    rw [hnext]
    exact hopen
  have hrecorded : (((state.humanDraftUpdated projectId draft none).historyOf projectId).undo
      ProjectSessionState.historyLimit
      (state.humanDraftUpdated projectId draft none).humanDraft).map Prod.fst =
        some state.humanDraft := by
    rw [hhistory]
    exact UndoHistory.undo_record (by decide)
  obtain ⟨⟨brought, steps⟩, hundo, hbrought⟩ := Option.map_eq_some_iff.mp hrecorded
  simp only [ProjectSessionState.humanDraftUndo, hopen', ne_eq, not_true_eq_false, if_false,
    hundo]
  exact hbrought

theorem redo_undone (hopen : state.projectId = some projectId)
    (hpast : (state.historyOf projectId).past ≠ []) :
    ((state.humanDraftUndo projectId).humanDraftRedo projectId).humanDraft =
      state.humanDraft := by
  obtain ⟨draft, steps, hundo⟩ := undo_openHistory state hpast
  have hnext : state.humanDraftUndo projectId = state.stage projectId draft steps none := by
    simp only [ProjectSessionState.humanDraftUndo, hopen, ne_eq, not_true_eq_false, if_false,
      hundo]
  have hhistory : (state.humanDraftUndo projectId).historyOf projectId = steps := by
    rw [hnext]
    simp only [ProjectSessionState.historyOf, ProjectSessionState.stage, Function.update_self,
      Option.map_some, Option.getD_some]
  have hopen' : (state.humanDraftUndo projectId).projectId = some projectId := by
    rw [hnext]
    exact hopen
  have hdraft : (state.humanDraftUndo projectId).humanDraft = draft := by
    rw [hnext]
    rfl
  obtain ⟨⟨brought, steps'⟩, hredo, hbrought⟩ := Option.map_eq_some_iff.mp
    (UndoHistory.redo_undo (by decide) hundo)
  rw [← hdraft, ← hhistory] at hredo
  simp only [ProjectSessionState.humanDraftRedo, hopen', ne_eq, not_true_eq_false, if_false,
    hredo]
  exact hbrought

/-- What undo or redo brings back was in the history. -/
theorem brought_mem {action : ProjectSessionAction}
    (haction : action = .humanDraftUndo projectId ∨ action = .humanDraftRedo projectId)
    (hstages : state.stagedBy action = some (projectId, target)) :
    (projectSessionReducer state action).humanDraft ∈ (state.historyOf projectId).values := by
  obtain ⟨hopen, -, -⟩ := staged_of_stagedBy hstages
  rcases haction with rfl | rfl
  · simp only [ProjectSessionState.stagedBy] at hstages
    split at hstages
    · rename_i hpast
      obtain ⟨draft, steps, hundo⟩ := undo_openHistory state hpast.2
      simp only [projectSessionReducer, ProjectSessionState.humanDraftUndo, hopen, ne_eq,
        not_true_eq_false, if_false, hundo]
      exact (UndoHistory.mem_undo hundo).1
    · cases hstages
  · simp only [ProjectSessionState.stagedBy] at hstages
    split at hstages
    · rename_i hfuture
      obtain ⟨draft, steps, hredo⟩ := redo_openHistory state hfuture.2
      simp only [projectSessionReducer, ProjectSessionState.humanDraftRedo, hopen, ne_eq,
        not_true_eq_false, if_false, hredo]
      exact (UndoHistory.mem_redo hredo).1
    · cases hstages

theorem Sound.brings (hsound : Sound start events tab) (hrendered : tab.rendered = true)
    {action : ProjectSessionAction}
    (haction : action = .humanDraftUndo projectId ∨ action = .humanDraftRedo projectId)
    (hstages : tab.session.stagedBy action = some (projectId, target)) :
    StagedWhileRendered start events projectId target tab.session.renderedRevision
      (projectSessionReducer tab.session action).humanDraft := by
  obtain ⟨hopen, rfl, -⟩ := staged_of_stagedBy hstages
  have hin := brought_mem haction hstages
  obtain ⟨hblind, hbase⟩ := hsound.opened hrendered projectId hopen
  cases hhistory : tab.session.draftHistory
      (graphSessionKey projectId tab.session.graphTarget) with
  | none =>
      simp only [ProjectSessionState.historyOf, hhistory] at hin
      cases hin
  | some history =>
      simp only [ProjectSessionState.historyOf, hhistory, Option.map_some, Option.getD_some]
        at hin
      rw [← hbase history hhistory]
      exact hsound.staged projectId _ history hhistory hblind _ hin

end StagedWork

/-- In every run in which no first snapshot of revision 0 keeps a history that was changed
blind, and no commit catches up with an entry that was behind, staged work is kept. -/
theorem session_keeps_staged_work (initial : Option ProjectId) (graphTarget : GraphTarget)
    (events : List SessionEvent)
    (hmeets : All Tab.step Tab.Meets (Tab.initial initial graphTarget) events) :
    KeepsStagedWork (Tab.initial initial graphTarget) events where
  fenced before after projectId expectedHead fence hevents hfence happly := by
    obtain ⟨hproject, hhead, -, -⟩ := beginSync_fence hfence
    rw [walk_session] at hfence happly ⊢
    obtain ⟨hrequest, hgeneration, hobserved⟩ := disposition_apply happly
    have hheld := held_run hfence after
    have hwalk : walk sessionStep (sessionStep (walk sessionStep
        (Tab.initial initial graphTarget).session before) (.beginSync projectId expectedHead))
        after = walk sessionStep (Tab.initial initial graphTarget).session events := by
      rw [hevents, walk_append]
      rfl
    refine ⟨?_, ?_⟩
    · have hsince := (hheld.since (by rw [hwalk]; exact hrequest)).2
        (by rw [hwalk]; exact hgeneration)
      rwa [hproject, hhead] at hsince
    · rw [TransitionSyncFence.key, hproject, hhead] at hobserved
      exact lastObserved_run initial graphTarget events hobserved
  behind before commit plain project nodeId entry node hevents hopen haccepts hentry hbehind
      hnode := by
    subst hevents
    obtain ⟨-, hcommit⟩ := (all_concat before _).mp hmeets
    have hstill := hcommit project hopen haccepts nodeId entry node hentry hbehind hnode
    obtain ⟨retained, hretained, hkept⟩ := retained_entry hentry hbehind hnode hstill
    refine ⟨retained, ?_, hkept⟩
    rw [walk_concat, ← hretained]
    simp only [Tab.step, sessionStep, projectSessionReducer,
      ProjectSessionState.applyCommittedTransition, hopen, haccepts, if_true]
  undone before projectId draft plain plain' hevents hopen := by
    subst hevents
    rw [walk_append]
    exact undo_updated draft hopen
  redone before projectId plain plain' hevents hstages := by
    subst hevents
    rw [walk_append]
    simp only [ProjectSessionState.stagedBy] at hstages
    split at hstages
    · rename_i hpast
      exact redo_undone hpast.1 hpast.2
    · cases hstages
  broughtBack before action plain projectId target hevents haction hrendered hstages := by
    subst hevents
    obtain ⟨hbefore, -⟩ := (all_concat before _).mp hmeets
    rw [walk_concat]
    exact (sound_run initial graphTarget before hbefore).brings hrendered haction hstages

section Examples

def sampleProject : ProjectId where
  text := "p"
  nonempty := by decide
  plain := by decide

/-- A draft that takes one edge away. -/
def removingDraft (edgeId : String) : HumanDraft where
  baseRevision := 0
  removedEdgeIds := [edgeId]
  edgeBaseRevision := some 0

def emptySnapshot (revision : Nat) : ProjectSnapshot where
  id := sampleProject
  graphTarget := .main
  graph := { revision, nodes := .empty, edges := .empty, proposals := .empty, ontology := .null }
  graphHead := none
  graphChanges := none
  fresh := true

def updating (edgeId : String) : SessionEvent :=
  .act (.humanDraftUpdated sampleProject (some (removingDraft edgeId)) none) rfl

def arriving (revision : Nat) : SessionEvent :=
  .act (.snapshotApplied { snapshot := emptySnapshot revision }) rfl

def undoing : SessionEvent := .act (.humanDraftUndo sampleProject) rfl

def sampleTab : Tab := Tab.initial (some sampleProject) .main

/-- Two drafts staged while nothing is rendered, and then a snapshot of revision 0. -/
def openingRun : List SessionEvent := [updating "edge/a", updating "edge/b", arriving 0]

theorem opening_moments (n : Fin 4) :
    ¬ ((walk Tab.step sampleTab (openingRun.take n)).rendered = true ∧
      (walk Tab.step sampleTab (openingRun.take n)).session.humanDraft =
        some (removingDraft "edge/a")) := by
  revert n
  decide +kernel

/-- The first draft was never staged while a graph was rendered, but undo brings it back. -/
theorem undo_into_revision_zero :
    ¬ ∀ (initial : Option ProjectId) (graphTarget : GraphTarget) (events : List SessionEvent),
      KeepsStagedWork (Tab.initial initial graphTarget) events := by
  intro hkeeps
  obtain ⟨before, after, hsplit, -, hrendered, -, -, -, hdraft⟩ :=
    (hkeeps (some sampleProject) .main (openingRun ++ [undoing])).broughtBack openingRun _ rfl
      sampleProject .main rfl (.inl rfl) (by decide +kernel) (by decide +kernel)
  have hundone : (walk Tab.step sampleTab (openingRun ++ [undoing])).session.humanDraft =
      some (removingDraft "edge/a") := by decide +kernel
  have hlength : before.length < 4 := by
    have := congrArg List.length hsplit
    simp only [openingRun, List.length_cons, List.length_nil, List.length_append] at this
    omega
  have htake : openingRun.take before.length = before := by
    rw [hsplit, List.take_left]
  refine opening_moments ⟨before.length, hlength⟩ ?_
  rw [htake]
  exact ⟨hrendered, hdraft.trans hundone⟩

/-- A graph with one hypothesis, last changed in revision 1. -/
def hypothesisGraph (revision : Nat) : GraphState :=
  let node : GraphNode :=
    { type := .hypothesis, extensionType := none, standing := .asserted, updatedRev := 1,
      attempts := none, fields := .empty }
  { revision, nodes := Dict.empty.insert "hyp/a" node, edges := .empty, proposals := .empty,
    ontology := .null }

/-- An entry for the hypothesis as it was before revision 1. -/
def behindEntry : DraftNodeChange where
  baseUpdatedRev := 0
  changes := .ofList [("statement", .str "S")]

def behindDraft : HumanDraft where
  baseRevision := 0
  nodes := Dict.empty.insert "hyp/a" behindEntry

/-- A Sync of the draft and its commit, then the tab restored, reloaded and edited again. -/
def syncingRun : List SessionEvent :=
  let snapshot (revision : Nat) : SessionEvent :=
    .act (.snapshotApplied
      { snapshot := { emptySnapshot revision with graph := hypothesisGraph revision } }) rfl
  [snapshot 1, .act (.humanDraftUpdated sampleProject (some behindDraft) none) rfl,
    .beginSync sampleProject (canonicalGraphHead 1 .main),
    .act (.committedTransitionApplied
      { projectId := sampleProject, head := canonicalGraphHead 2 .main,
        graph := hypothesisGraph 2, submittedDraft := behindDraft }) rfl,
    .act (.restoreTab (some sampleProject)
      { projectId := some sampleProject, graphTarget := .main, humanDraft := some behindDraft,
        draftReconciliationDiscardedProposalIds := [] } true) rfl,
    snapshot 2, updating "edge/a", undoing]

theorem syncingRun_meets : All Tab.step Tab.Meets sampleTab syncingRun := by
  intro passed hpassed
  simp only [syncingRun, visited, List.mem_cons, List.not_mem_nil, or_false] at hpassed
  rcases hpassed with rfl | rfl | rfl | rfl | rfl | rfl | rfl | rfl
  · change Tab.keepsBlindHistory _ _ = false
    decide +kernel
  · trivial
  · trivial
  · intro project hproject haccepts nodeId entry node hentry hbehind hnode
    by_cases hid : nodeId = "hyp/a"
    · subst hid
      cases hentry
      cases hnode
      decide
    · simp [behindDraft, Dict.get?_insert, hid] at hentry
  · trivial
  · change Tab.keepsBlindHistory _ _ = false
    decide +kernel
  · trivial
  · trivial

/-- Every moment of that run keeps what is staged; the fence applies until the commit, and the
entry that was behind outlives it. -/
theorem session_keeps_staged_work_rendered :
    (∀ n, KeepsStagedWork sampleTab (syncingRun.take n)) ∧
      ((walk Tab.step sampleTab (syncingRun.take 4)).session.humanDraft.bind fun draft =>
        draft.nodes.get? "hyp/a") = some behindEntry := by
  constructor
  · intro n
    refine session_keeps_staged_work (some sampleProject) .main _ ?_
    have hall := syncingRun_meets
    rw [← List.take_append_drop n syncingRun, all_append] at hall
    exact hall.1
  · decide +kernel

end Examples

end RcpGraph.Drafts
