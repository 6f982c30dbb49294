import RcpGraph.Episodes.Steps

/-!
Endings over whole runs of the transactions: an ending is decided once, a Stop and
another ending exclude each other, and the paid invocations are counted.
-/

namespace RcpGraph.Episodes

variable (d : Digests)

/-- Each unlaunchable wrap-up of the run names the ending its episode has, if it has one. -/
def KeepEndings : Store → List Transaction → Prop
  | _, [] => True
  | s, t :: ts => t.KeepsEnding s ∧ KeepEndings (s.step d t) ts

def Store.Sound (s : Store) : Prop := ∀ id, (s.slot id).Sound

variable {d}

theorem Store.empty_sound : Store.empty.Sound := fun _ => ⟨rfl, rfl⟩

theorem step_sound (t : Transaction) {s : Store} (hs : s.Sound) : (s.step d t).Sound :=
  fun id => ((step_moved t s).slots id).sound (hs id)

theorem run_append (s : Store) (before after : List Transaction) :
    s.run d (before ++ after) = (s.run d before).run d after := by
  unfold Store.run
  exact List.foldl_append

theorem keepEndings_append (s : Store) (before after : List Transaction)
    (h : KeepEndings d s (before ++ after)) : KeepEndings d (s.run d before) after := by
  induction before generalizing s with
  | nil => exact h
  | cons t before ih => exact ih (s.step d t) h.2

/-- Along a run every episode stays sound and never forgets. -/
theorem run_sound (ts : List Transaction) {s : Store} (hs : s.Sound) :
    (s.run d ts).Sound ∧ ∀ id, (s.slot id).Since ((s.run d ts).slot id) := by
  induction ts generalizing s with
  | nil => exact ⟨hs, fun id => Slot.Since.refl _⟩
  | cons t ts ih =>
      obtain ⟨hsound, hsince⟩ := ih (step_sound t hs)
      refine ⟨hsound, ?_⟩
      intro id
      exact (((step_moved t s).slots id).since (hs id)).trans (hsince id)

theorem step_ending {t : Transaction} {s : Store} (hk : t.KeepsEnding s) (hs : s.Sound)
    {id : String} {ep : EpisodeRecord} {e : EpisodeEnding} (hep : s.episodes.get? id = some ep)
    (he : ep.ending = some e) :
    ∃ ep', (s.step d t).episodes.get? id = some ep' ∧ ep'.ending = some e := by
  have hmove := (step_moved (d := d) t s).slots id
  obtain ⟨ep', hep', -⟩ := (hmove.since (hs id)).episode ep hep
  exact ⟨ep', hep', hmove.ending (not_not.mpr hk) (hs id) hep hep' he⟩

theorem run_ending {ts : List Transaction} {s : Store} (hk : KeepEndings d s ts) (hs : s.Sound)
    {id : String} {ep : EpisodeRecord} {e : EpisodeEnding} (hep : s.episodes.get? id = some ep)
    (he : ep.ending = some e) :
    ∃ ep', (s.run d ts).episodes.get? id = some ep' ∧ ep'.ending = some e := by
  induction ts generalizing s ep with
  | nil => exact ⟨ep, hep, he⟩
  | cons t ts ih =>
      obtain ⟨ep', hep', he'⟩ := step_ending hk.1 hs hep he
      exact ih hk.2 (step_sound t hs) hep' he'

/-- What holds between an earlier and a later store of a run. -/
structure EndingsDecided (d : Digests) (s t : Store) : Prop where
  ending : ∀ id ep e, s.episodes.get? id = some ep → ep.ending = some e →
    ∃ ep', t.episodes.get? id = some ep' ∧ ep'.ending = some e
  stop : ∀ id ep e, t.episodes.get? id = some ep → ep.stopRequestedAt.isSome →
    ep.ending = some e → e = .stopped
  closed : ∀ id ep, s.episodes.get? id = some ep →
    ep.ending.isSome ∨ ep.stopRequestedAt.isSome → t.invocationsOf id = s.invocationsOf id
  counted : ∀ id ep, t.episodes.get? id = some ep → Numbered ep (t.invocationsOf id)
  pinned : ∀ id ep, s.episodes.get? id = some ep →
    ∃ ep', t.episodes.get? id = some ep' ∧ ep'.invocationCeiling = ep.invocationCeiling
  terminal : ∀ id ep, t.episodes.get? id = some ep → ep.status.live = false →
    ∃ e, ep.ending = some e ∧ ep.status = statusForEnding e
  final : ∀ id ep, s.episodes.get? id = some ep → ep.status.live = false →
    ∃ ep', t.episodes.get? id = some ep' ∧ ep'.status = ep.status
  refusal : ∀ op, refused (t.answers d op) → t.step d op = t

theorem Store.Sound.episode {s : Store} (hs : s.Sound) {id : String} {ep : EpisodeRecord}
    (hep : s.episodes.get? id = some ep) :
    (∃ life, Represents ep (s.wrapups.get? id) life) ∧ Numbered ep (s.invocationsOf id) := by
  have h := hs id
  unfold Slot.Sound Store.slot at h
  rw [hep] at h
  exact h

/-- In a run whose unlaunchable wrap-ups keep the ending, every ending is decided once. -/
theorem endings_decided (before after : List Transaction)
    (h : KeepEndings d Store.empty (before ++ after)) :
    EndingsDecided d (Store.empty.run d before) (Store.empty.run d (before ++ after)) := by
  have hbefore := (run_sound (d := d) before Store.empty_sound).1
  have hkeep := keepEndings_append Store.empty before after h
  rw [run_append]
  obtain ⟨hafter, hsince⟩ := run_sound (d := d) after hbefore
  refine ⟨?_, ?_, ?_, ?_, ?_, ?_, ?_, ?_⟩
  · intro id ep e hep he
    exact run_ending hkeep hbefore hep he
  · intro id ep e hep hstop he
    obtain ⟨⟨life, hrep⟩, -⟩ := hafter.episode hep
    rw [hrep.stops] at hstop
    rw [hrep.ending] at he
    cases life with
    | underway => cases he
    | stopping => cases he
    | fenced _ => cases hstop
    | ended e' =>
        cases he
        cases e <;> first | rfl | cases hstop
  · intro id ep hep hclosed
    obtain ⟨_, _, _, _, _, _, hrows⟩ := (hsince id).episode ep hep
    exact hrows hclosed
  · intro id ep hep
    exact (hafter.episode hep).2
  · intro id ep hep
    obtain ⟨ep', hep', hc, _⟩ := (hsince id).episode ep hep
    exact ⟨ep', hep', hc⟩
  · intro id ep hep hlive
    obtain ⟨⟨life, hrep⟩, -⟩ := hafter.episode hep
    have hover := hrep.live
    rw [hlive] at hover
    cases hrep with
    | @ended e hst he _ => exact ⟨e, he, hst⟩
    | underway _ _ _ _ => cases hover
    | stopping _ _ _ _ => cases hover
    | fenced _ _ _ _ => cases hover
  · intro id ep hep hlive
    obtain ⟨ep', hep', _, _, _, hst, _⟩ := (hsince id).episode ep hep
    exact ⟨ep', hep', (hst hlive).1⟩
  · intro op hop
    exact step_refused op _ hop

/-- The first turn of an Experiment that is allowed three. -/
def firstTurn : AgentTaskRecord where
  operationId := "turn-1"
  projectId := "project"
  episodeId := some "episode"
  kind := .nodeChat
  status := .queued
  request := {
    provider := some "codex"
    runOn := some "machine"
    runTruthScope := []
    mode := some "work"
    chatId := some "chat"
    nodeId := some "node"
    patchKind := some "experiment_loop"
    trigger := some "experiment_run"
    message := none
    watcherIds := some []
    controlEpisodeId := some "episode"
    controlNodeId := some "node"
    controlInvocation := some 1
    controlInvocationCeiling := some 3 }
  visible := true
  historyOnly := false
  parentOperationId := none
  nativeSessionId := none
  stageMachineId := none
  stageRoot := none
  graphTarget := .main
  authorizedBy := some ⟨"space", "user", "User"⟩
  dispatchAuthority := none
  error := none
  createdAt := "t1"

def firstRun : ExperimentRun where
  record := firstTurn
  watcherIds := []
  routed := false
  continuesEpisodeId := none
  graphBaseHead := none
  placement := none
  projectAccepts := none
  bindings := none
  notificationScope := none
  merging := false
  activation := none
  binding := none
  insertion := none
  allowance := none
  now := "t1"

theorem completed_ne_stopped : EpisodeEnding.completed ≠ .stopped := by decide

theorem failed_ne_stopped : EpisodeEnding.failed ≠ .stopped := by decide

/-- A wrap-up that could not be launched. -/
def unlaunchable (ending : EpisodeEnding) (h : ending ≠ .stopped) : EpisodeWrapupRecord where
  episodeId := "episode"
  ending := some ending
  partialReport := false
  concludingOperationId := some "turn-1"
  allocationOperationId := none
  provider := none
  machineId := none
  nativeSessionId := none
  stageMachineId := none
  stageRoot := none
  skillId := none
  skillVersion := none
  outputName := none
  outputPath := none
  receiptJson := "\x7b\x7d"
  receiptSha256 := "44136fa355b3678a1146ad16f7e8649e94fb4fc21fe77e8310c060f61caaff8a"
  state := .failed
  diagnostic := some "the report session is gone"
  createdAt := "t3"
  updatedAt := "t3"
  finishedAt := some "t3"
  skipped_iff := by simpa using h
  ending_isSome := fun _ => rfl

def plainDigests : Digests where
  compactEpisodeReceipt := fun _ _ => ("", "")
  questionFollowupOperationId := fun id rev => id ++ toString rev

/-- An Experiment that is fenced as completed. -/
def fencedRun : List Transaction :=
  [.experimentRun firstRun, .fenceEnding "episode" .completed none "t2"]

def Store.endingOf (s : Store) (id : String) : Option EpisodeEnding :=
  (s.episodes.get? id).bind (·.ending)

theorem endings_decided_fenced :
    Store.endingOf (Store.empty.run plainDigests fencedRun) "episode" = some .completed ∧
      EndingsDecided plainDigests (Store.empty.run plainDigests fencedRun)
        (Store.empty.run plainDigests (fencedRun ++
          [.failUnlaunchable "episode" (unlaunchable .completed completed_ne_stopped) none "t3"])) := by
  refine ⟨by decide +kernel, endings_decided _ _ ⟨trivial, trivial, ?_, trivial⟩⟩
  intro ep e hep _ he
  have hending : Store.endingOf (Store.empty.run plainDigests fencedRun) "episode" =
      some .completed := by decide +kernel
  rw [Store.endingOf] at hending
  rw [show Store.empty.run plainDigests fencedRun = ((Store.empty.step plainDigests
    (.experimentRun firstRun)).step plainDigests (.fenceEnding "episode" .completed none "t2"))
    from rfl, hep] at hending
  cases he.symm.trans hending
  rfl

/-- A fenced ending is overwritten by an unlaunchable wrap-up that names another. -/
theorem ending_overwritten :
    Store.endingOf (Store.empty.run plainDigests fencedRun) "episode" = some .completed ∧
      Store.endingOf (Store.empty.run plainDigests (fencedRun ++
        [.failUnlaunchable "episode" (unlaunchable .failed failed_ne_stopped) none "t3"])) "episode" =
        some .failed := by
  decide +kernel

end RcpGraph.Episodes
