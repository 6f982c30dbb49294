import RcpGraph.Graph.Triggers
import RcpGraph.Sync.Build

/-!
Which drafts the browser previews by itself. A draft whose edits no trigger of the manifest
could match is shown without asking the backend, so committing it must not change what the
guidance rule says of any Experiment.
-/

namespace RcpGraph

variable {rt : Runtime}

/-- `TransitionTriggerManifest`. -/
structure TransitionTriggerManifest where
  rulesetTag : String
  triggers : List TransitionTrigger

/-- `transition_trigger_manifest`. -/
def transitionTriggerManifest : TransitionTriggerManifest :=
  ⟨transitionRulesetTag, guidanceTriggers⟩

/-- `TransitionPreviewRouting`. -/
inductive TransitionPreviewRouting where
  | backendPreview (reason : String)
  | localDraft (reason : String)
  deriving DecidableEq, Repr

/-- `transitionPreviewRouting`. -/
def transitionPreviewRouting (manifest : Option TransitionTriggerManifest)
    (projectRulesetTag : Option String) (edit : StagedTransitionEdit) : TransitionPreviewRouting :=
  match manifest, projectRulesetTag.filter (· ≠ "") with
  | none, _ => .backendPreview "missing_manifest"
  | some _, none => .backendPreview "missing_ruleset_tag"
  | some manifest, some tag =>
      if manifest.rulesetTag ≠ tag then .backendPreview "ruleset_mismatch"
      else if edit.operation.filter (· ≠ "") = none then .backendPreview "possible_trigger"
      else if couldTrigger manifest.triggers edit then .backendPreview "possible_trigger"
      else .localDraft "no_manifest_trigger"

/-- The edit that one staged node item is routed by. -/
def nodeItemEdit (s : GraphState rt) (item : GraphSyncNodeChange) : StagedTransitionEdit where
  operation := some "update_nodes"
  nodeTypes := (s.nodeType? item.nodeId).map fun type => [type.name]
  nodeFields := some (item.changes.keys ++ (if item.standing.isSome then ["standing"] else []) ++
    if item.cancelAttemptIds ≠ [] then ["attempts"] else [])
  relations := some []

/-- `isControlNode` of the node an item stages. -/
def stagesControlNode (s : GraphState rt) (item : GraphSyncNodeChange) : Bool :=
  decide (s.nodeType? item.nodeId = some .experiment)

def StagedTransitionEdit.untagged : StagedTransitionEdit where

/-- The edits of a draft, as `humanDraftTransitionRouting` lists them. Removals, creations,
connections and judgments are left without tags. -/
def draftEdits (s : GraphState rt) (request : GraphSyncRequest rt) : List StagedTransitionEdit :=
  let changesExperimentControl :=
    (request.nodes.any fun item =>
      stagesControlNode s item && decide ("invocation_ceiling" ∈ item.changes)) ||
      request.customNodes.any fun raw => decide (raw.type = .experiment)
  request.nodes.map (nodeItemEdit s) ++
    (if request.customNodes ≠ [] then
      [{ operation := some "create_nodes"
         nodeTypes := some (request.customNodes.map fun raw => raw.type.name)
         nodeFields := some []
         relations := some [] }]
    else []) ++
    (if request.ontology.isSome then
      [{ operation := some "set_ontology"
         nodeTypes := some []
         nodeFields := some []
         relations := some [] }]
    else []) ++
    if request.removedNodeIds ≠ [] ∨ request.customNodes ≠ [] ∨ request.addedEdges ≠ [] ∨
        request.removedEdgeIds ≠ [] ∨ request.proposals ≠ [] ∨ changesExperimentControl then [.untagged]
    else []

/-- `humanDraftTransitionRouting`: the first edit that needs the backend decides. -/
def humanDraftTransitionRouting (manifest : Option TransitionTriggerManifest)
    (rulesetTag : Option String) (s : GraphState rt) (request : GraphSyncRequest rt) :
    TransitionPreviewRouting :=
  match ((draftEdits s request).map (transitionPreviewRouting manifest rulesetTag)).find? fun
      | .backendPreview _ => true
      | .localDraft _ => false with
  | some routing => routing
  | none => .localDraft "no_manifest_trigger"

/-- The fields the guidance rule writes or reads, and a Decision's options. -/
def guidedFields : List String :=
  [ "status", "selected_option", "options", "validity", "current_summary", "next_action",
    "current_summary_stale", "next_action_stale" ]

/-- An operation that writes nothing the guidance rule reads, and no guidance. -/
def GraphOperation.QuietIn (s : GraphState rt) : GraphOperation rt → Prop
  | .updateNodes updates => ∀ u ∈ updates,
      (∀ type, s.nodeType? u.id = some type → type = .researchQuestion) ∨
        ∀ f ∈ guidedFields, f ∉ u.changes.keys
  | .setStanding _ _ | .setOntology _ => True
  | _ => False

/-- The Experiments of one graph are in the other, with the guidance they had. -/
def GuidanceKept (s t : GraphState rt) : Prop :=
  ∀ id n, s.typed? .experiment id = some n → ∃ m, t.typed? .experiment id = some m ∧
    ∀ f ∈ ["current_summary", "next_action", "current_summary_stale", "next_action_stale"],
      m.field? f = n.field? f

/-- A graph on the way of a quiet run. -/
structure QuietAt (s u : GraphState rt) : Prop where
  keyed : u.Keyed
  guiding : GuidingAlike s u
  kept : GuidanceKept s u

section Quiet

variable {s u v : GraphState rt}

/-- Rewriting one node keeps the guidance of the Experiments when it keeps its own. -/
theorem GuidanceKept.rewrite (h : GuidanceKept s u) (id : String) (n m : ProjectNode rt)
    (hn : u.nodes.get? id = some n) (htype : m.type = n.type)
    (hfields : n.type = .experiment → ∀ f ∈ ["current_summary", "next_action",
      "current_summary_stale", "next_action_stale"], m.field? f = n.field? f)
    (hnodes : v.nodes = u.nodes.insert id m) : GuidanceKept s v := by
  intro x n₀ hn₀
  obtain ⟨k, hk, hsame⟩ := h x n₀ hn₀
  obtain ⟨hget, hktype⟩ := (typed?_iff u .experiment x k).mp hk
  by_cases hx : x = id
  · subst hx
    rw [hn] at hget
    cases hget
    refine ⟨m, (typed?_iff v .experiment x m).mpr ⟨?_, htype.trans hktype⟩, fun f hf => ?_⟩
    · rw [hnodes, Dict.get?_insert_self]
    · rw [hfields hktype f hf, hsame f hf]
  · refine ⟨k, (typed?_iff v .experiment x k).mpr ⟨?_, hktype⟩, hsame⟩
    rw [hnodes, Dict.get?_insert, if_neg hx, hget]

theorem QuietAt.refl (hs : s.Keyed) : QuietAt s s where
  keyed := hs
  guiding := .refl s
  kept _ n hn := ⟨n, hn, fun _ _ => rfl⟩

theorem QuietAt.update (h : QuietAt s u) (p : Patch rt) (generated : Bool) (up : NodeUpdate)
    (hquiet : (∀ type, s.nodeType? up.id = some type → type = .researchQuestion) ∨
      ∀ f ∈ guidedFields, f ∉ up.changes.keys)
    (hstep : updateNode p generated up u = .ok v) : QuietAt s v where
  keyed := (updateNode_rewrites p generated up u v h.keyed hstep).1.keyed h.keyed
  guiding := by
    refine h.guiding.updateNode h.keyed p generated up ?_ hstep
    rcases hquiet with htypes | hfields
    · left
      intro type htype
      rw [htypes type htype]
      rfl
    · right
      intro f hf
      exact hfields f (by revert f; decide)
  kept := by
    obtain ⟨n, m, hn, -, hm, rfl⟩ := updateNode_ok p generated up u v hstep
    obtain ⟨-, -, htype, -⟩ := ProjectNode.revise_ok _ _ _ _ _ _ hm
    refine h.kept.rewrite up.id n m hn htype (fun hexperiment f hf => ?_)
      (by simp [h.keyed up.id n hn])
    have hold : s.nodeType? up.id = some .experiment := by
      rw [← h.guiding.types _ trivial, GraphState.nodeType?, hn, Option.map_some, hexperiment]
    rcases hquiet with htypes | hfields
    · cases htypes _ hold
    · refine ProjectNode.field?_revise n m _ _ _ _ hm f (hfields f (by revert f; decide))
        fun hceiling => ?_
      subst hceiling
      exact absurd hf (by decide)

/-- A quiet operation keeps the view of the rule and the guidance. -/
theorem QuietAt.step (h : QuietAt s u) (p : Patch rt) (generated : Bool) (op : GraphOperation rt)
    (hquiet : op.QuietIn s) (hstep : applyOp p generated op u = .ok v) : QuietAt s v := by
  cases op with
  | updateNodes updates =>
      exact Steps.run_invariant (updateNode p generated) (QuietAt s) updates
        (fun up hup w w' hw hf => hw.update p generated up (hquiet up hup) hf) u v h hstep
  | setStanding id standing =>
      obtain ⟨n, hn, rfl⟩ := setStanding_ok p.revision id standing u v hstep
      have hkey := h.keyed id n hn
      refine ⟨(setStanding_rewrites p.revision id standing u _ h.keyed hstep).1.keyed h.keyed, ?_, ?_⟩
      · exact h.guiding.rewrite id n (n.withStanding standing p.revision) hn rfl (fun _ _ _ => rfl)
          (by simp [hkey]) rfl rfl
      · exact h.kept.rewrite id n (n.withStanding standing p.revision) hn rfl (fun _ _ _ => rfl)
          (by simp [hkey])
  | setOntology ontology =>
      cases hstep
      exact ⟨h.keyed, h.guiding.unseen rfl rfl rfl, h.kept⟩
  | _ => exact absurd hquiet id

/-- Staging quiet operations moves no signature at any point of the timeline. -/
theorem quiet_timeline (actions : List (Patch rt × GraphOperation rt)) (index : Nat)
    (w final : GraphState rt) (timeline : List (TimelineEntry rt))
    (hquiet : ∀ a ∈ actions, a.2.QuietIn s) (ha : Alike w u) (hu : QuietAt s u)
    (h : applyTimeline index actions w = .ok (timeline, final)) :
    (∀ e ∈ timeline, ∀ id, experimentDependencySignature e.before id =
      experimentDependencySignature e.after id) ∧ ∃ v, Alike final v ∧ QuietAt s v := by
  induction actions generalizing index w u timeline with
  | nil =>
      cases h
      exact ⟨fun e he => absurd he List.not_mem_nil, u, ha, hu⟩
  | cons a actions ih =>
      obtain ⟨p, op⟩ := a
      simp only [applyTimeline, bind, Except.bind, pure, Except.pure] at h
      cases hw : applyValidOperation w p op with
      | error text => simp [hw] at h
      | ok w' =>
          simp only [hw] at h
          cases hrest : applyTimeline (index + 1) actions w' with
          | error e => simp [hrest] at h
          | ok r =>
              obtain ⟨rest, last⟩ := r
              simp only [hrest, Except.ok.injEq, Prod.mk.injEq] at h
              obtain ⟨rfl, rfl⟩ := h
              obtain ⟨v, hv, hwv⟩ := applyValidOperation_ok w p op w' hw
              obtain ⟨u', hu', hvu⟩ := (blind_applyOp p _ op).alike ha hv
              have hstep := hu.step p _ op (hquiet _ List.mem_cons_self) hu'
              obtain ⟨htail, hend⟩ := ih (index + 1) w' rest
                (fun a ha => hquiet a (List.mem_cons_of_mem _ ha)) (hwv.trans hvu) hstep hrest
              refine ⟨fun e he id => ?_, hend⟩
              rcases List.mem_cons.mp he with rfl | he
              · rw [ha.signature, hu.guiding.signature, (hwv.trans hvu).signature,
                  hstep.guiding.signature]
              · exact htail e he id

end Quiet

end RcpGraph
