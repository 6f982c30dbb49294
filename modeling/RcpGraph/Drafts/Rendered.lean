import RcpGraph.Drafts.Fences

/-!
What undo and redo bring back was staged while the graph that is rendered now was rendered.
A tab is the session together with what is to be said of its past: whether a snapshot was
applied since the last restore or reset, and which histories were changed while none was.
-/

namespace RcpGraph.Drafts

open Walk

structure Tab where
  session : ProjectSessionState
  /-- A snapshot was applied since the last restore or reset. -/
  rendered : Bool
  /-- The history of the key was changed while nothing was rendered. -/
  blind : String → Bool

namespace Tab

def initial (projectId : Option ProjectId) (graphTarget : GraphTarget) : Tab where
  session := emptyProjectSessionState projectId graphTarget
  rendered := false
  blind := fun _ => false

def rendersAfter (tab : Tab) : SessionEvent → Bool
  | .act (.reset ..) _ | .act (.restoreTab ..) _ => false
  | .act (.snapshotApplied arrival) _ => tab.rendered || tab.session.acceptsSnapshot arrival
  | _ => tab.rendered

def step (tab : Tab) (event : SessionEvent) : Tab :=
  let next := sessionStep tab.session event
  { session := next
    rendered := tab.rendersAfter event
    blind := fun key =>
      (tab.blind key || (!tab.rendered && (event.stages tab.session).any fun staged =>
        graphSessionKey staged.1 staged.2 = key)) && (next.draftHistory key).isSome }

/-- The first snapshot after a restore or reset has revision 0 and keeps a history that was
changed while nothing was rendered. -/
def keepsBlindHistory (tab : Tab) (arrival : SnapshotArrival) : Bool :=
  tab.session.acceptsSnapshot arrival && !tab.rendered &&
    arrival.snapshot.graph.revision = 0 && tab.session.keepsHistory arrival.snapshot &&
    tab.blind (graphSessionKey arrival.snapshot.id tab.session.graphTarget)

/-- No submitted entry that was behind is up to date with the committed graph. -/
def CommitLeavesBehind (previousGraph : GraphState) (commit : CommittedTransition) : Prop :=
  ∀ nodeId entry node, commit.submittedDraft.nodes.get? nodeId = some entry →
    draftNodeIsBehind entry (previousGraph.nodes.get? nodeId) = true →
    commit.graph.nodes.get? nodeId = some node → entry.baseUpdatedRev ≠ node.updatedRev

/-- What an event must not do. -/
def Meets (tab : Tab) : SessionEvent → Prop
  | .act (.snapshotApplied arrival) _ => tab.keepsBlindHistory arrival = false
  | .act (.committedTransitionApplied commit) _ =>
      ∀ project, tab.session.project = some project → tab.session.acceptsCommit commit = true →
        CommitLeavesBehind project.graph commit
  | _ => True

end Tab

variable {tab start : Tab} {event : SessionEvent} {events : List SessionEvent}
  {projectId : ProjectId} {target : GraphTarget} {draft : Option HumanDraft} {revision : Nat}

theorem walk_session (tab : Tab) (events : List SessionEvent) :
    (walk Tab.step tab events).session = walk sessionStep tab.session events := by
  induction events generalizing tab with
  | nil => rfl
  | cons event events ih => exact ih (tab.step event)

/-- At an earlier moment of the same backend the draft was the staged one, while the graph of
that revision was rendered for the project and target. -/
def StagedWhileRendered (start : Tab) (events : List SessionEvent) (projectId : ProjectId)
    (target : GraphTarget) (revision : Nat) (draft : Option HumanDraft) : Prop :=
  ∃ before after, events = before ++ after ∧ (∀ event ∈ after, event.forgets = false) ∧
    (walk Tab.step start before).rendered = true ∧
    (walk Tab.step start before).session.projectId = some projectId ∧
    (walk Tab.step start before).session.graphTarget = target ∧
    (walk Tab.step start before).session.renderedRevision = revision ∧
    (walk Tab.step start before).session.humanDraft = draft

theorem StagedWhileRendered.concat
    (hstaged : StagedWhileRendered start events projectId target revision draft)
    (hforgets : event.forgets = false) :
    StagedWhileRendered start (events ++ [event]) projectId target revision draft := by
  obtain ⟨before, after, rfl, hafter, hmoment⟩ := hstaged
  refine ⟨before, after ++ [event], List.append_assoc before after [event], ?_, hmoment⟩
  simpa [or_imp, forall_and] using And.intro hafter hforgets

/-- What holds of the histories along a run: of the open one while a graph is rendered, and of
every one that was never changed blind. -/
structure Sound (start : Tab) (events : List SessionEvent) (tab : Tab) : Prop where
  unrendered : tab.rendered = false →
    tab.session.renderedRevision = 0 ∧ tab.session.project = none
  blindBase : ∀ key history, tab.blind key = true →
    tab.session.draftHistory key = some history → history.baseRevision = 0
  opened : tab.rendered = true → ∀ projectId, tab.session.projectId = some projectId →
    tab.blind (graphSessionKey projectId tab.session.graphTarget) = false ∧
      ∀ history, tab.session.draftHistory
          (graphSessionKey projectId tab.session.graphTarget) = some history →
        history.baseRevision = tab.session.renderedRevision
  staged : ∀ projectId target history,
    tab.session.draftHistory (graphSessionKey projectId target) = some history →
    tab.blind (graphSessionKey projectId target) = false →
    ∀ draft ∈ history.steps.values,
      StagedWhileRendered start events projectId target history.baseRevision draft

section Step

/-- A step that stages nothing leaves a history as it is or takes it away. -/
theorem shrinks_step (hstages : event.stages tab.session = none) {key : String}
    {history : DraftHistory}
    (hhistory : (sessionStep tab.session event).draftHistory key = some history) :
    event.forgets = false ∧ tab.session.draftHistory key = some history := by
  have hcleared : ∀ projectId target, tab.session.clearDraftHistory projectId target key =
      some history → tab.session.draftHistory key = some history := by
    intro projectId target hclear
    cases projectId with
    | none => exact hclear
    | some projectId =>
        rw [ProjectSessionState.clearDraftHistory, Function.update_apply] at hclear
        split at hclear
        · cases hclear
        · exact hclear
  cases event with
  | beginSync projectId expectedHead =>
      cases hnext : tab.session.nextFence projectId expectedHead with
      | none =>
          rw [sessionStep, beginSync_refused hnext] at hhistory
          exact ⟨rfl, hhistory⟩
      | some next =>
          rw [sessionStep, beginSync_state hnext] at hhistory
          exact ⟨rfl, hhistory⟩
  | act action plain =>
      rw [sessionStep] at hhistory
      cases action with
      | activate | restoreTab | snapshotRequestStarted | discardedProposalsConsumed
      | previewRulesetInvalidated | previewApplied | syncFinished => exact ⟨rfl, hhistory⟩
      | syncStarted => cases plain
      | humanDraftLoaded draft => exact ⟨rfl, hcleared _ _ hhistory⟩
      | reset projectId graphTarget humanDraft invalidateBackend =>
          cases invalidateBackend with
          | true => cases hhistory
          | false => exact ⟨rfl, hcleared _ _ hhistory⟩
      | humanDraftUpdated projectId draft editStep =>
          rw [projectSessionReducer, unstaged_updated hstages] at hhistory
          exact ⟨rfl, hhistory⟩
      | humanDraftUndo projectId =>
          rw [projectSessionReducer, unstaged_undo hstages] at hhistory
          exact ⟨rfl, hhistory⟩
      | humanDraftRedo projectId =>
          rw [projectSessionReducer, unstaged_redo hstages] at hhistory
          exact ⟨rfl, hhistory⟩
      | projectReplaced project =>
          simp only [projectSessionReducer, ProjectSessionState.projectReplaced] at hhistory
          split at hhistory <;> exact ⟨rfl, hhistory⟩
      | snapshotApplied arrival =>
          simp only [projectSessionReducer, ProjectSessionState.applyProjectSnapshot] at hhistory
          split at hhistory
          · split at hhistory
            · exact ⟨rfl, hhistory⟩
            · exact ⟨rfl, hcleared _ _ hhistory⟩
          · exact ⟨rfl, hhistory⟩
      | committedTransitionApplied commit =>
          simp only [projectSessionReducer,
            ProjectSessionState.applyCommittedTransition] at hhistory
          split at hhistory
          · exact ⟨rfl, hhistory⟩
          · split at hhistory
            · exact ⟨rfl, hcleared _ _ hhistory⟩
            · exact ⟨rfl, hhistory⟩

theorem blind_unstaged (hstages : event.stages tab.session = none) (key : String) :
    (tab.step event).blind key =
      (tab.blind key && ((sessionStep tab.session event).draftHistory key).isSome) := by
  simp only [Tab.step, hstages, Option.any_none, Bool.and_false, Bool.or_false]

/-- What is said of every history carries over a step that stages nothing. -/
theorem Sound.unstaged (hsound : Sound start events tab)
    (hstages : event.stages tab.session = none)
    (hunrendered : tab.rendersAfter event = false →
      (sessionStep tab.session event).renderedRevision = 0 ∧
        (sessionStep tab.session event).project = none)
    (hopened : tab.rendersAfter event = true → ∀ projectId,
      (sessionStep tab.session event).projectId = some projectId →
      ∀ history, (sessionStep tab.session event).draftHistory (graphSessionKey projectId
          (sessionStep tab.session event).graphTarget) = some history →
        tab.blind (graphSessionKey projectId (sessionStep tab.session event).graphTarget) = false ∧
          history.baseRevision = (sessionStep tab.session event).renderedRevision) :
    Sound start (events ++ [event]) (tab.step event) where
  unrendered := hunrendered
  blindBase key history hblind hhistory := by
    rw [blind_unstaged hstages, Bool.and_eq_true] at hblind
    exact hsound.blindBase key history hblind.1 (shrinks_step hstages hhistory).2
  opened hrendered projectId hproject := by
    rw [blind_unstaged hstages]
    refine ⟨?_, fun history hhistory => (hopened hrendered projectId hproject history hhistory).2⟩
    cases hhistory : (sessionStep tab.session event).draftHistory (graphSessionKey projectId
        (sessionStep tab.session event).graphTarget) with
    | none => exact (congrArg _ (congrArg Option.isSome hhistory)).trans (Bool.and_false _)
    | some history =>
        exact (congrArg (· && _) (hopened hrendered projectId hproject history hhistory).1).trans
          (Bool.false_and _)
  staged projectId target history hhistory hblind draft hdraft := by
    obtain ⟨hforgets, hold⟩ := shrinks_step hstages hhistory
    rw [blind_unstaged hstages] at hblind
    have hsome : ((sessionStep tab.session event).draftHistory
        (graphSessionKey projectId target)).isSome = true :=
      Option.isSome_iff_exists.mpr ⟨history, hhistory⟩
    rw [hsome, Bool.and_true] at hblind
    exact (hsound.staged projectId target history hold hblind draft hdraft).concat hforgets

theorem Sound.same (hsound : Sound start events tab) (hstages : event.stages tab.session = none)
    (hrendered : tab.rendersAfter event = tab.rendered)
    (hproject : (sessionStep tab.session event).projectId = tab.session.projectId)
    (htarget : (sessionStep tab.session event).graphTarget = tab.session.graphTarget)
    (hrevision : (sessionStep tab.session event).renderedRevision = tab.session.renderedRevision)
    (hnone : tab.session.project = none → (sessionStep tab.session event).project = none) :
    Sound start (events ++ [event]) (tab.step event) := by
  refine hsound.unstaged hstages (fun hunrendered => ?_)
    (fun hrenders projectId hopen history hhistory => ?_)
  · obtain ⟨hzero, hempty⟩ := hsound.unrendered (hrendered ▸ hunrendered)
    exact ⟨hrevision.trans hzero, hnone hempty⟩
  · rw [hproject] at hopen
    rw [htarget] at hhistory ⊢
    obtain ⟨hblind, hbase⟩ := hsound.opened (hrendered ▸ hrenders) projectId hopen
    exact ⟨hblind, (hbase history (shrinks_step hstages hhistory).2).trans hrevision.symm⟩

/-- An accepted snapshot keeps a history only at the revision the history belongs to. -/
theorem Sound.snapshot (hsound : Sound start events tab) {arrival : SnapshotArrival}
    {plain : (ProjectSessionAction.snapshotApplied arrival).startsSync = false}
    (haccepts : tab.session.acceptsSnapshot arrival = true)
    (hmeets : tab.keepsBlindHistory arrival = false) :
    Sound start (events ++ [.act (.snapshotApplied arrival) plain])
      (tab.step (.act (.snapshotApplied arrival) plain)) := by
  have hnext : sessionStep tab.session (.act (.snapshotApplied arrival) plain) = _ :=
    if_pos haccepts
  have hid : tab.session.projectId = some arrival.snapshot.id := by
    simp only [ProjectSessionState.acceptsSnapshot, Bool.and_eq_true, decide_eq_true_eq]
      at haccepts
    exact haccepts.1.1.1.1.2.1
  refine hsound.unstaged rfl (fun hunrendered => ?_) (fun _ projectId hopen history hhistory => ?_)
  · simp [Tab.rendersAfter, haccepts] at hunrendered
  rw [hnext] at hopen hhistory ⊢
  obtain rfl : arrival.snapshot.id = projectId := Option.some.inj (hid.symm.trans hopen)
  by_cases hkeeps : tab.session.keepsHistory arrival.snapshot = true
  · simp only [hkeeps, if_true] at hhistory
    have hbase : history.baseRevision = arrival.snapshot.graph.revision := by
      simp only [ProjectSessionState.keepsHistory, Bool.and_eq_true, decide_eq_true_eq] at hkeeps
      rw [hhistory] at hkeeps
      exact Option.some.inj hkeeps.1
    refine ⟨?_, hbase⟩
    cases hrendered : tab.rendered with
    | true => exact (hsound.opened hrendered _ hid).1
    | false =>
        -- A history changed blind belongs to revision 0.
        rw [Bool.eq_false_iff]
        intro hblind
        have hzero := hsound.blindBase _ history hblind hhistory
        rw [hbase] at hzero
        simp [Tab.keepsBlindHistory, haccepts, hrendered, hzero, hkeeps, hblind] at hmeets
  · simp only [hkeeps, Bool.false_eq_true, if_false, ProjectSessionState.clearDraftHistory, hid,
      Function.update_self] at hhistory
    cases hhistory

theorem Sound.commit (hsound : Sound start events tab) {commit : CommittedTransition}
    {plain : (ProjectSessionAction.committedTransitionApplied commit).startsSync = false} :
    Sound start (events ++ [.act (.committedTransitionApplied commit) plain])
      (tab.step (.act (.committedTransitionApplied commit) plain)) := by
  cases hproject : tab.session.project with
  | none =>
      have hsame : sessionStep tab.session (.act (.committedTransitionApplied commit) plain) =
          tab.session := by
        simp only [sessionStep, projectSessionReducer,
          ProjectSessionState.applyCommittedTransition, hproject]
      exact hsound.same rfl rfl (by rw [hsame]) (by rw [hsame]) (by rw [hsame])
        (fun hnone => by rw [hsame, hnone])
  | some project =>
      by_cases haccepts : tab.session.acceptsCommit commit = true
      · have hhistories : (sessionStep tab.session
            (.act (.committedTransitionApplied commit) plain)).draftHistory =
              tab.session.clearDraftHistory tab.session.projectId tab.session.graphTarget := by
          simp only [sessionStep, projectSessionReducer,
            ProjectSessionState.applyCommittedTransition, hproject, haccepts, if_true]
        have htarget : (sessionStep tab.session
            (.act (.committedTransitionApplied commit) plain)).graphTarget =
              tab.session.graphTarget := by
          simp only [sessionStep, projectSessionReducer,
            ProjectSessionState.applyCommittedTransition, hproject, haccepts, if_true]
        have hopened : (sessionStep tab.session
            (.act (.committedTransitionApplied commit) plain)).projectId =
              tab.session.projectId := by
          simp only [sessionStep, projectSessionReducer,
            ProjectSessionState.applyCommittedTransition, hproject, haccepts, if_true]
        refine hsound.unstaged rfl (fun hunrendered => ?_)
          (fun _ projectId hopen history hhistory => ?_)
        · obtain ⟨-, hnone⟩ := hsound.unrendered hunrendered
          rw [hproject] at hnone
          cases hnone
        · rw [hhistories, htarget, ← hopened, hopen, ProjectSessionState.clearDraftHistory,
            Function.update_self] at hhistory
          cases hhistory
      · have hsame : sessionStep tab.session (.act (.committedTransitionApplied commit) plain) =
            tab.session := by
          simp only [sessionStep, projectSessionReducer,
            ProjectSessionState.applyCommittedTransition, hproject, haccepts,
            Bool.false_eq_true, if_false]
        exact hsound.same rfl rfl (by rw [hsame]) (by rw [hsame]) (by rw [hsame])
          (fun hnone => by rw [hsame, hnone])

/-- Staging adds the draft it replaces, which is the draft of this moment. -/
theorem Sound.stages (hsound : Sound start events tab) (htab : walk Tab.step start events = tab)
    {action : ProjectSessionAction} {plain : action.startsSync = false}
    (hstages : tab.session.stagedBy action = some (projectId, target)) :
    Sound start (events ++ [.act action plain]) (tab.step (.act action plain)) := by
  obtain ⟨hopen, rfl, hstaged⟩ := staged_of_stagedBy hstages
  obtain ⟨history, hhistories, hbase, hvalues⟩ := hstaged.history
  have hforgets : (SessionEvent.act action plain).forgets = false := by
    cases action <;> first | rfl | cases hstages
  have hrenders : tab.rendersAfter (.act action plain) = tab.rendered := by
    cases action <;> first | rfl | cases hstages
  have hstep : sessionStep tab.session (.act action plain) =
      projectSessionReducer tab.session action := rfl
  have hblind : ∀ key, (tab.step (.act action plain)).blind key =
      ((tab.blind key || (!tab.rendered &&
        decide (graphSessionKey projectId tab.session.graphTarget = key))) &&
      ((projectSessionReducer tab.session action).draftHistory key).isSome) := by
    intro key
    simp only [Tab.step, SessionEvent.stages, hstages, Option.any_some, hstep]
  have hcase : ∀ key history', (projectSessionReducer tab.session action).draftHistory key =
      some history' → (key = graphSessionKey projectId tab.session.graphTarget ∧
        history' = history) ∨ (graphSessionKey projectId tab.session.graphTarget ≠ key ∧
        tab.session.draftHistory key = some history') := by
    intro key history' hhistory
    rw [hhistories, Function.update_apply] at hhistory
    split at hhistory
    · rename_i hkey
      exact .inl ⟨hkey, (Option.some.inj hhistory).symm⟩
    · rename_i hkey
      exact .inr ⟨fun heq => hkey heq.symm, hhistory⟩
  constructor
  · intro hunrendered
    obtain ⟨hzero, hnone⟩ := hsound.unrendered (hrenders ▸ hunrendered)
    exact ⟨hstaged.revision.trans hzero, hstaged.project.trans hnone⟩
  · intro key history' hkeyBlind hhistory
    rw [hblind, Bool.and_eq_true, Bool.or_eq_true] at hkeyBlind
    rcases hcase key history' hhistory with ⟨rfl, rfl⟩ | ⟨hkey, hold⟩
    · rw [hbase]
      cases hrendered : tab.rendered with
      | false => exact (hsound.unrendered hrendered).1
      | true =>
          have hopenBlind := (hsound.opened hrendered projectId hopen).1
          simp [hrendered, hopenBlind] at hkeyBlind
    · simp only [hkey, decide_false, Bool.and_false, Bool.false_eq_true, or_false]
        at hkeyBlind
      exact hsound.blindBase key history' hkeyBlind.1 hold
  · intro hrendered projectId' hopen'
    have hrendered' : tab.rendered = true := hrenders ▸ hrendered
    obtain rfl : projectId = projectId' :=
      Option.some.inj (hopen.symm.trans (hstaged.openProject.symm.trans hopen'))
    have htarget : (tab.step (.act action plain)).session.graphTarget =
        tab.session.graphTarget := hstaged.openTarget
    rw [htarget, hblind]
    refine ⟨by simp [hrendered', (hsound.opened hrendered' projectId hopen).1], ?_⟩
    intro history' hhistory
    rcases hcase _ history' hhistory with ⟨-, rfl⟩ | ⟨hkey, -⟩
    · exact hbase.trans hstaged.revision.symm
    · exact absurd rfl hkey
  · intro projectId' target' history' hhistory hkeyBlind draft hdraft
    have hnext : (projectSessionReducer tab.session action).draftHistory
        (graphSessionKey projectId' target') = some history' := hhistory
    rw [hblind, hnext] at hkeyBlind
    simp only [Option.isSome_some, Bool.and_true, Bool.or_eq_false_iff] at hkeyBlind
    rcases hcase _ history' hhistory with ⟨hkey, rfl⟩ | ⟨-, hold⟩
    · obtain ⟨rfl, rfl⟩ := graphSessionKey_inj.mp hkey
      have hrendered : tab.rendered = true := by
        simpa using hkeyBlind.2
      rcases hvalues draft hdraft with rfl | hin
      · refine ⟨events, [.act action plain], rfl, by simpa using hforgets, ?_⟩
        rw [htab]
        exact ⟨hrendered, hopen, rfl, hbase.symm, rfl⟩
      · simp only [ProjectSessionState.historyOf] at hin
        cases hold : tab.session.draftHistory
            (graphSessionKey projectId' tab.session.graphTarget) with
        | none =>
            rw [hold] at hin
            cases hin
        | some old =>
            rw [hold] at hin
            have hrest := hsound.staged projectId' tab.session.graphTarget old hold
              hkeyBlind.1 draft hin
            rw [(hsound.opened hrendered projectId' hopen).2 old hold, ← hbase] at hrest
            exact hrest.concat hforgets
    · exact (hsound.staged projectId' target' history' hold hkeyBlind.1 draft hdraft).concat
        hforgets

end Step

end RcpGraph.Drafts
