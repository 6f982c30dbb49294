import RcpGraph.Graph.ExperimentGate
import RcpGraph.Sync.LocalDraft

/-!
The manifest against the rule: an operation that changes what the guidance of an Experiment
was written against, or writes that guidance, has a trigger, as far as the manifest goes. It
has none for removing a node, and none for retiring a Decision or a Blocker.
-/

namespace RcpGraph

variable {rt : Runtime}

/-- What validation keeps of a graph: records under their own ids, guiding edges between
stored nodes, and Decisions at the end of `governed_by`. -/
structure GraphState.WellFiled (s : GraphState rt) : Prop where
  keyed : s.Keyed
  proposals : s.ProposalsKeyed
  governed : s.GovernedByDecisions
  guides : s.GuidesWithin (· ∈ s.nodes)

/-- An operation changes what an Experiment's guidance was written against, or writes it. -/
def GraphOperation.ConcernsGuidance (op : GraphOperation rt) (s t : GraphState rt) (id : String) :
    Prop :=
  (s.typed? .experiment id).isSome = true ∧ (t.typed? .experiment id).isSome = true ∧
    (experimentDependencySignature t id ≠ experimentDependencySignature s id ∨
      ∃ field ∈ guidanceFields, op.writesField id field.1 = true)

/-- Writing guidance matches the trigger of `update_nodes`. -/
theorem writes_guidance_matched (s : GraphState rt) (op : GraphOperation rt) (id : String)
    (hid : s.nodeType? id = some .experiment) (field : String × String)
    (hfield : field ∈ guidanceFields) (hwrites : op.writesField id field.1 = true) :
    couldTrigger guidanceTriggers (op.edit s) = true := by
  cases op with
  | updateNodes updates =>
      rw [GraphOperation.writesField, List.any_eq_true] at hwrites
      obtain ⟨u, hu, hboth⟩ := hwrites
      rw [Bool.and_eq_true, decide_eq_true_eq, decide_eq_true_eq] at hboth
      obtain ⟨rfl, hin⟩ := hboth
      by_contra hno
      rcases untouched_update updates (by simpa using hno) u hu with htypes | hfields
      · cases htypes _ hid
      · have hguided : ∀ f ∈ guidanceFields, f.1 ∈ ["status", "selected_option", "options",
            "current_summary", "next_action", "validity"] := by decide
        exact hfields field.1 (hguided field hfield) hin
  | _ => cases hwrites

/-- The manifest answers for every operation it lists, and a draft that it sends its local
way commits a transition that moves no signature and writes and marks no guidance. -/
theorem manifest_covers_guidance (project : Project rt) (s : GraphState rt) (hs : s.WellFiled) :
    (∀ p op t id, op.Listed s → applyValidOperation s p op = .ok t →
      op.ConcernsGuidance s t id → couldTrigger guidanceTriggers (op.edit s) = true) ∧
    ∀ tag request reason,
      humanDraftTransitionRouting (some transitionTriggerManifest) tag s request =
          .localDraft reason →
        request.EditsOnly ∧ ∀ env patches raws prepared,
          buildSyncPatches env s request = .ok patches →
            raws.map (·.ops) = patches.map (·.ops) →
              nextAppend project s raws = some prepared → QuietCommit s raws prepared := by
  constructor
  · rintro p op t id hlisted hstep ⟨hbefore, hafter, hchange⟩
    obtain ⟨u, hu, hut⟩ := applyValidOperation_ok s p op t hstep
    rcases hchange with hmoves | ⟨field, hfield, hwrites⟩
    · by_contra hno
      refine hmoves ((hut.signature id).trans ?_)
      refine signature_of_unmatched p _ op hs.keyed hs.proposals hs.governed hs.guides hlisted
        (by simpa using hno) hu id hbefore ?_
      rwa [GraphState.typed?, ← hut.nodes]
    · rw [typed?_isSome, decide_eq_true_eq] at hbefore
      exact writes_guidance_matched s op id hbefore field hfield hwrites
  · intro tag request reason hrouting
    have hlocal := local_edits _ tag request reason hrouting
    refine ⟨local_editsOnly _ tag request hlocal, fun env patches raws prepared hbuilt hraws
      happend => quiet_commit project raws prepared hs.keyed (fun raw hraw op hop => ?_) happend⟩
    obtain ⟨p, hp, hsame⟩ := List.mem_map.mp (hraws ▸ List.mem_map.mpr ⟨raw, hraw, rfl⟩)
    rw [← hsame] at hop
    exact buildSyncPatches_quiet env tag request patches hs.keyed hlocal hbuilt p hp op hop

section Concrete

def blockerDraft (id : String) : RawNode .plain where
  id := id
  type := .blocker
  extensionType := none
  standing := none
  createdRev := none
  updatedRev := none
  content :=
    [("title", .str "Title"), ("description", .str "Waiting."), ("status", .str "resolved")]
  extensionType_ok := RawNode.no_extension
  content_ok := by rfl

def blockedDraft (source target : String) : NewEdge where
  source := source
  target := target
  relation := "blocked_by"
  relation_ok := by rfl

/-- An Experiment under a chosen Decision and a Blocker, with a second one of each. -/
def heldExperiment : Patch .plain :=
  choosingPatch
    [ .createNodes
        [ experimentDraft "exp/a", decisionDraft "dec/a", decisionDraft "dec/b",
          blockerDraft "blk/a", blockerDraft "blk/b" ],
      .updateNodes [chooseA],
      .createEdges [governedDraft "exp/a" "dec/a", blockedDraft "exp/a" "blk/a"] ]

/-- What validation keeps, for a graph without Proposals. -/
def filedWell (s : GraphState .plain) : Bool :=
  decide (s.proposals.entries = []) && s.edges.values.all fun e =>
    (decide (e.relation = "governed_by") == decide (s.nodeType? e.target = some .decision)) &&
      decide (e.source ∈ s.nodes) && decide (e.target ∈ s.nodes)

theorem wellFiled_of_filedWell (s : GraphState .plain) (hs : s.Keyed) (h : filedWell s = true) :
    s.WellFiled := by
  simp only [filedWell, Bool.and_eq_true, decide_eq_true_eq, List.all_eq_true, beq_iff_eq] at h
  refine ⟨hs, fun id q hq => ?_, fun e he hrelation n hn => ?_, fun e he _ => ?_⟩
  · rw [Dict.get?, h.1] at hq
    cases hq
  · have htype := (h.2 e he).1.1
    rw [hrelation, GraphState.nodeType?, hn] at htype
    simpa using htype
  · exact ⟨(h.2 e he).1.2, (h.2 e he).2⟩

/-- A draft that renames the Experiment. -/
def renamedExperiment : GraphSyncRequest .plain where
  baseRevision := 1
  nodes :=
    [ { nodeId := "exp/a"
        baseUpdatedRev := 1
        changes := .ofList [("title", .str "Renamed")] } ]

def plainSyncEnv : SyncEnv .plain where
  utcNow := "2026-01-01T00:00:00Z"
  textOf := fun _ => ""
  modelError := fun _ _ => none

/-- The removal of the governing edge. -/
def ungoverning : GraphOperation .plain :=
  .removeEdges [derivedEdgeId "exp/a" "governed_by" "dec/a"]

/-- The patches of a request, as the server stamps them, prepared for commit. -/
def syncedCommit (s : GraphState .plain) (request : GraphSyncRequest .plain) :
    Option (List (Patch .plain) × PreparedTransition .plain) :=
  (buildSyncPatches plainSyncEnv s request).toOption.bind fun patches =>
    let raws := patches.map fun p => syncPatch p.ops
    (nextAppend Project.solo s raws).map fun prepared => (raws, prepared)

/-- The removal of the governing edge could trigger; the renaming stays local and commits. -/
theorem manifest_covers_guidance_renamed :
    ∃ s : GraphState .plain, filedWell s = true ∧
      (∃ t, applyValidOperation s (syncPatch [ungoverning]) ungoverning = .ok t ∧
        couldTrigger guidanceTriggers (ungoverning.edit s) = true) ∧
      ∃ raws prepared, syncedCommit s renamedExperiment = some (raws, prepared) ∧ raws ≠ [] ∧
        QuietCommit s raws prepared := by
  have hrun : (appendAll Project.solo [[heldExperiment]] [] (.initial .plain ["repo"])).any
      (fun r => filedWell r.2 && decide (humanDraftTransitionRouting
        (some transitionTriggerManifest) (some transitionRulesetTag) r.2 renamedExperiment =
          .localDraft "no_manifest_trigger") &&
        (syncedCommit r.2 renamedExperiment).any (fun c => decide (c.1 ≠ [])) &&
        (r.2.typed? .experiment "exp/a").isSome &&
        (applyValidOperation r.2 (syncPatch [ungoverning]) ungoverning).toOption.any fun t =>
          (t.typed? .experiment "exp/a").isSome && decide (experimentDependencySignature t "exp/a" ≠
            experimentDependencySignature r.2 "exp/a")) = true := by
    decide +kernel
  obtain ⟨r, hr, hall⟩ := (Option.any_eq_true _ _).mp hrun
  simp only [Bool.and_eq_true, decide_eq_true_eq] at hall
  obtain ⟨⟨⟨⟨hfiled, hrouting⟩, hcommit⟩, hbefore⟩, hmoves⟩ := hall
  have happended := appended_appendAll _ [] r.1 _ r.2 (.initial ["repo"]) hr
  obtain ⟨hmatched, hquiet⟩ := manifest_covers_guidance Project.solo r.2
    (wellFiled_of_filedWell r.2 (keyed_of_appended r.2 happended) hfiled)
  refine ⟨r.2, hfiled, ?_, ?_⟩
  · obtain ⟨t, ht, hmoves⟩ := (Option.any_eq_true _ _).mp hmoves
    rw [Bool.and_eq_true, decide_eq_true_eq] at hmoves
    have hstep := (toOption_eq_some _ _).mp ht
    exact ⟨t, hstep, hmatched _ _ t "exp/a" trivial hstep ⟨hbefore, hmoves.1, .inl hmoves.2⟩⟩
  · obtain ⟨⟨raws, prepared⟩, hsynced, hraws⟩ := (Option.any_eq_true _ _).mp hcommit
    refine ⟨raws, prepared, hsynced, by simpa using hraws, ?_⟩
    obtain ⟨patches, hpatches, hprepared⟩ := Option.bind_eq_some_iff.mp hsynced
    obtain ⟨prepared', happend, heq⟩ := Option.map_eq_some_iff.mp hprepared
    cases heq
    refine (hquiet _ _ _ hrouting).2 plainSyncEnv patches _ prepared
      ((toOption_eq_some _ _).mp hpatches) ?_ happend
    rw [List.map_map]
    rfl

/-- Removals and retirements of the Decision and of the Blocker. -/
def heldRetirements : List (GraphOperation .plain) :=
  [("dec/a", "dec/b"), ("blk/a", "blk/b")].flatMap fun pair =>
    [ .removeNodes [pair.1],
      .supersedeNodes [{ id := pair.1, supersededBy := some pair.2 }],
      .mergeNodes [{ duplicate := pair.1, canonical := pair.2 }] ]

/-- Applying the operation moves the signature, and no trigger could match it. -/
def unmatchedMove (s : GraphState .plain) (op : GraphOperation .plain) : Bool :=
  !couldTrigger guidanceTriggers (op.edit s) &&
    (applyValidOperation s (syncPatch [op]) op).toOption.any fun t =>
      (s.typed? .experiment "exp/a").isSome && (t.typed? .experiment "exp/a").isSome &&
        decide (experimentDependencySignature t "exp/a" ≠ experimentDependencySignature s "exp/a")

theorem retirements_unmatched :
    ¬∃ op ∈ heldRetirements, ∀ s : GraphState .plain, Appended Project.solo (fun _ _ => True) s →
      ∀ p t id, applyValidOperation s p op = .ok t → op.ConcernsGuidance s t id →
        couldTrigger guidanceTriggers (op.edit s) = true := by
  rintro ⟨op, hop, hcovers⟩
  have hrun : (appendAll Project.solo [[heldExperiment]] [] (.initial .plain ["repo"])).any
      (fun r => heldRetirements.all (unmatchedMove r.2)) = true := by
    decide +kernel
  obtain ⟨r, hr, hall⟩ := (Option.any_eq_true _ _).mp hrun
  have hmove := List.all_eq_true.mp hall op hop
  simp only [unmatchedMove, Bool.and_eq_true, Bool.not_eq_true', Option.any_eq_true,
    toOption_eq_some, decide_eq_true_eq] at hmove
  obtain ⟨hno, t, hstep, ⟨hbefore, hafter⟩, hmoves⟩ := hmove
  have hcould := hcovers r.2 (appended_appendAll _ [] r.1 _ r.2 (.initial ["repo"]) hr) _ t "exp/a"
    hstep ⟨hbefore, hafter, .inl hmoves⟩
  rw [hno] at hcould
  cases hcould

end Concrete

end RcpGraph
