import RcpGraph.Graph.Decisions
import RcpGraph.Schedule.Expression
import RcpGraph.Sync.Routing

/-!
What a draft that was shown without the backend commits. Its patches hold quiet operations
only, the gates pass them on as they are, and the transition generates nothing.
-/

namespace RcpGraph

variable {rt : Runtime}

section Commit

variable {s : GraphState rt}

/-- Bookkeeping leaves quiet operations alone. -/
theorem prepareOperations_quiet (here : GraphState rt) (p : Patch rt)
    (ops : List (GraphOperation rt)) (spellings : Dict String String)
    (h : ∀ op ∈ ops, op.QuietIn s) : prepareOperations here p ops spellings = ops := by
  induction ops generalizing spellings with
  | nil => rfl
  | cons op ops ih =>
      have htail := fun sp => ih sp fun o ho => h o (List.mem_cons_of_mem _ ho)
      cases op with
      | upsertGlossary terms => exact absurd (h _ List.mem_cons_self) id
      | createProposals proposals => exact absurd (h _ List.mem_cons_self) id
      | _ => exact congrArg (_ :: ·) (htail spellings)

theorem finalizeOperation_quiet (staged : GraphState rt) (op : GraphOperation rt)
    (h : op.QuietIn s) : finalizeOperation staged op = op := by
  cases op with
  | createProposals proposals => exact absurd h id
  | _ => rfl

/-- The gates pass quiet operations on as they are. -/
theorem admitSources_quiet (project : Project rt) (base revision : Nat) (raws : List (Patch rt))
    (staged : GraphState rt) (sources : AdmittedSources rt)
    (hquiet : ∀ raw ∈ raws, ∀ op ∈ raw.ops, op.QuietIn s)
    (h : admitSources project base revision raws staged = .ok sources) :
    sources.patches.flatMap (·.ops) = raws.flatMap (·.ops) := by
  induction raws generalizing staged sources with
  | nil =>
      cases h
      rfl
  | cons raw raws ih =>
      simp only [admitSources] at h
      split at h
      next => cases h
      next =>
        split at h
        next => cases h
        next candidate _ =>
          split at h
          next => cases h
          next =>
            split at h
            next => cases h
            next tail htail =>
              cases h
              have hraw := hquiet raw List.mem_cons_self
              rw [List.flatMap_cons, List.flatMap_cons,
                ih _ _ (fun r hr => hquiet r (List.mem_cons_of_mem _ hr)) htail]
              congr 1
              change (prepareOperations _ _ raw.ops _).map (finalizeOperation candidate) = raw.ops
              rw [prepareOperations_quiet _ _ _ _ hraw, List.map_congr_left fun op hop =>
                finalizeOperation_quiet candidate op (hraw op hop), List.map_id']

/-- Where no signature moves and no guidance is written, the rule has nothing to say. -/
theorem guidanceActions_nil (u : GraphState rt) (timeline : List (TimelineEntry rt))
    (ops : List (GraphOperation rt))
    (hmoved : ∀ e ∈ timeline, ∀ id, experimentDependencySignature e.before id =
      experimentDependencySignature e.after id)
    (hwritten : ∀ id, u.nodeType? id = some .experiment → ∀ field ∈ guidanceFields, ∀ op ∈ ops,
      op.writesField id field.1 = false) : guidanceActions u timeline ops = [] := by
  rw [guidanceActions, List.flatMap_eq_nil_iff]
  intro id hid
  rw [mem_idsOf, GraphState.nodeType?, Option.map_eq_some_iff] at hid
  obtain ⟨n, hn, htype⟩ := hid
  have hcause : dependencyChangeCause timeline id = none := by
    rw [← Option.not_isSome_iff_eq_none, dependencyChangeCause_isSome]
    rintro ⟨e, he, -, -, hne⟩
    exact hne (hmoved e he id)
  have hexplicit : ∀ field ∈ guidanceFields, explicitGuidanceUpdate ops id field.1 = none := by
    intro field hfield
    rw [← Option.not_isSome_iff_eq_none, explicitGuidanceUpdate_isSome]
    rintro ⟨op, hop, hwrites⟩
    rw [hwritten id (by rw [GraphState.nodeType?, hn, Option.map_some, htype]) field hfield op
      hop] at hwrites
    cases hwrites
  have hsummary := hexplicit ("current_summary", "current_summary_stale") (by decide)
  have hnext := hexplicit ("next_action", "next_action_stale") (by decide)
  simp only at hsummary hnext
  simp [experimentGuidanceActions, hn, hcause, hsummary, hnext, wantedStale, sortedCauses]

/-- A quiet operation writes no guidance of an Experiment. -/
theorem quiet_writes_no_guidance (op : GraphOperation rt) (h : op.QuietIn s) (id : String)
    (hid : s.nodeType? id = some .experiment) (field : String × String)
    (hfield : field ∈ guidanceFields) : op.writesField id field.1 = false := by
  cases op with
  | updateNodes updates =>
      rw [GraphOperation.writesField, List.any_eq_false]
      intro u hu
      simp only [Bool.and_eq_true, decide_eq_true_eq, not_and]
      rintro rfl hin
      rcases h u hu with htypes | hfields
      · cases htypes _ hid
      · have hguided : ∀ f ∈ guidanceFields, f.1 ∈ guidedFields := by decide
        exact hfields field.1 (hguided field hfield) hin
  | _ => rfl

/-- What a commit of quiet patches leaves of the graph it starts from. -/
structure QuietCommit (s : GraphState rt) (raws : List (Patch rt))
    (prepared : PreparedTransition rt) : Prop where
  ops : prepared.patch.ops = raws.flatMap (·.ops)
  signature : ∀ id, experimentDependencySignature prepared.graph id =
    experimentDependencySignature s id
  guidance : GuidanceKept s prepared.graph

/-- Committing quiet patches moves no signature, and marks and writes no guidance. -/
theorem quiet_commit (project : Project rt) (raws : List (Patch rt))
    (prepared : PreparedTransition rt) (hs : s.Keyed)
    (hquiet : ∀ raw ∈ raws, ∀ op ∈ raw.ops, op.QuietIn s)
    (h : nextAppend project s raws = some prepared) : QuietCommit s raws prepared := by
  obtain ⟨sources, hgates, hprepared⟩ := nextAppend_ok project s raws prepared h
  obtain ⟨first, rest, staged, w, admitted, u, v, hsources, -, hinitiating, hgenerated, hwu, -, -,
    hops, hrun⟩ := appended_staged project s _ raws sources none _ prepared hgates hprepared
  have hsame := admitSources_quiet project _ _ raws s sources hquiet hgates
  have hactions : ∀ a ∈ sourceActions sources.patches, a.2.QuietIn s := by
    intro a ha
    have hin : a.2 ∈ raws.flatMap (·.ops) := by
      rw [← hsame, ← sourceActions_ops]
      exact List.mem_map.mpr ⟨a, ha, rfl⟩
    obtain ⟨raw, hraw, hop⟩ := List.mem_flatMap.mp hin
    exact hquiet raw hraw _ hop
  obtain ⟨hmoved, q, hwq, hq⟩ := quiet_timeline (sourceActions sources.patches) 0 s w
    staged.initiating hactions (.refl s) (.refl hs) hinitiating
  have hnothing : staged.generatedOps = [] := by
    rw [hgenerated]
    refine guidanceActions_nil _ _ _ hmoved fun id hid field hfield op hop => ?_
    rw [hsame] at hop
    obtain ⟨raw, hraw, hop⟩ := List.mem_flatMap.mp hop
    refine quiet_writes_no_guidance op (hquiet raw hraw op hop) id ?_ field hfield
    rw [← hq.guiding.types _ trivial, GraphState.nodeType?, ← hwq.nodes]
    exact hid
  have hmarked := hrun.marked
  rw [hnothing] at hmarked
  cases hmarked
  -- The stamp moves the revision, which no signature reads.
  have hgraph : Alike { prepared.graph with revision := u.revision } q := by
    rw [hrun.graph]
    exact (staged_alike prepared.patch _ u u rfl).trans (hwu.symm.trans hwq)
  refine ⟨by rw [hops, hnothing, hsame]; simp, fun id => ?_, fun id n hn => ?_⟩
  · exact (hgraph.signature id).trans (hq.guiding.signature id)
  · obtain ⟨m, hm, hkept⟩ := hq.kept id n hn
    refine ⟨m, ?_, hkept⟩
    rw [← hm, GraphState.typed?, GraphState.typed?, ← hgraph.nodes]

end Commit

section Routing

variable {s : GraphState rt}

/-- A draft goes its local way only when no edit of it needs the backend. -/
theorem local_edits (manifest : Option TransitionTriggerManifest) (tag : Option String)
    (request : GraphSyncRequest rt) (reason : String)
    (h : humanDraftTransitionRouting manifest tag s request = .localDraft reason) :
    ∀ edit ∈ draftEdits s request, ∀ why, transitionPreviewRouting manifest tag edit ≠
      .backendPreview why := by
  intro edit hedit why hrouting
  unfold humanDraftTransitionRouting at h
  split at h
  next routing hfind =>
    have hbackend := List.find?_some hfind
    rw [h] at hbackend
    cases hbackend
  next hnone =>
    rw [List.find?_eq_none] at hnone
    refine hnone _ (List.mem_map.mpr ⟨edit, hedit, rfl⟩) ?_
    rw [hrouting]

/-- An edit that is drafted locally has a known operation, and no trigger could match it. -/
theorem local_edit (manifest : TransitionTriggerManifest) (tag : Option String)
    (edit : StagedTransitionEdit)
    (h : ∀ why, transitionPreviewRouting (some manifest) tag edit ≠ .backendPreview why) :
    edit.operation.isSome = true ∧ couldTrigger manifest.triggers edit = false := by
  unfold transitionPreviewRouting at h
  cases htag : tag.filter (· ≠ "") with
  | none => exact absurd (by rw [htag]) (h "missing_ruleset_tag")
  | some tag =>
      simp only [htag] at h
      by_cases hruleset : manifest.rulesetTag ≠ tag
      · exact absurd (if_pos hruleset) (h "ruleset_mismatch")
      · rw [if_neg hruleset] at h
        by_cases hoperation : edit.operation.filter (· ≠ "") = none
        · exact absurd (if_pos hoperation) (h "possible_trigger")
        · rw [if_neg hoperation] at h
          cases hcould : couldTrigger manifest.triggers edit with
          | true => exact absurd (if_pos hcould) (h "possible_trigger")
          | false =>
              refine ⟨?_, rfl⟩
              cases ho : edit.operation with
              | none => exact absurd (by rw [ho]; rfl) hoperation
              | some op => rfl

/-- A draft of the local way creates, connects, removes and judges nothing. -/
theorem local_editsOnly (manifest : TransitionTriggerManifest) (tag : Option String)
    (request : GraphSyncRequest rt)
    (h : ∀ edit ∈ draftEdits s request, ∀ why,
      transitionPreviewRouting (some manifest) tag edit ≠ .backendPreview why) :
    request.EditsOnly := by
  by_contra hmore
  have huntagged : StagedTransitionEdit.untagged ∈ draftEdits s request := by
    refine List.mem_append_right _ ?_
    rw [if_pos]
    · exact List.mem_singleton_self _
    · unfold GraphSyncRequest.EditsOnly at hmore
      tauto
  have hknown := (local_edit manifest tag _ (h _ huntagged)).1
  cases hknown

/-- What the checks on a node item have established. -/
structure CheckedItem (s : GraphState rt) (item : GraphSyncNodeChange) (i : SyncedItem rt) :
    Prop where
  node : s.nodes.get? item.nodeId = some i.node
  same : i.item = item
  direct : i.directChoice = (i.node.type.isChooser && isDecisionChoice item.changes)
  fields : ∀ f ∈ item.changes.keys, f ∈ humanEditableNodeFields i.node.type ++
    (if i.directChoice then ["selected_option", "status"] else []) ++ ["extension_fields"]

theorem allowed_of_inside (changes : Dict String Json) (allowed : List String)
    (h : outsideFields changes allowed = []) (f : String) (hf : f ∈ changes.keys) : f ∈ allowed := by
  by_contra hout
  have hin : f ∈ outsideFields changes allowed := by
    rw [outsideFields, Text.mem_sortedSet, List.mem_filter]
    exact ⟨hf, decide_eq_true hout⟩
  rw [h] at hin
  cases hin

theorem checkItem_ok (env : SyncEnv rt) (item : GraphSyncNodeChange) (i : SyncedItem rt)
    (h : checkItem env s item = .ok i) : CheckedItem s item i := by
  simp only [checkItem, bind, Except.bind, pure, Except.pure, throw, throwThe, MonadExceptOf.throw]
    at h
  cases hnode : nodeAt s item.nodeId with
  | error e => simp [hnode] at h
  | ok node =>
      simp only [hnode] at h
      rw [nodeAt_ok] at hnode
      split at h
      next => cases h
      next =>
        split at h
        next hempty =>
          cases h
          refine ⟨hnode, rfl, rfl, fun f hf => ?_⟩
          rw [Dict.keys, hempty] at hf
          cases hf
        next =>
          split at h
          next => cases h
          next selected _ =>
            split at h
            next => cases h
            next =>
              generalize hallowed : humanEditableNodeFields node.type ++
                (if (node.type.isChooser && isDecisionChoice item.changes) = true then
                  ["selected_option", "status"] else []) ++
                  (if "extension_fields" ∈ item.changes then ["extension_fields"] else []) =
                    allowed at h
              split at h
              next => cases h
              next hinside =>
                have checked : ∀ title chosen fields, CheckedItem s item
                    ⟨node, item, title, node.type.isChooser && isDecisionChoice item.changes, chosen,
                      fields⟩ := by
                  refine fun title chosen fields => ⟨hnode, rfl, rfl, fun f hf => ?_⟩
                  have hall := allowed_of_inside _ _ (not_not.mp hinside) f hf
                  rw [← hallowed] at hall
                  rcases List.mem_append.mp hall with hf | hf
                  · exact List.mem_append_left _ hf
                  · refine List.mem_append_right _ ?_
                    split at hf
                    · exact hf
                    · cases hf
                split at h
                next => cases h
                next =>
                  split at h
                  next =>
                    split at h
                    next => cases h
                    next =>
                      cases h
                      exact checked _ _ _
                  next =>
                    cases h
                    exact checked _ _ _

/-- The fields the builder accepts hold no stale mark, and nothing that decides a Decision
outside a direct choice. -/
theorem CheckedItem.unguided {item : GraphSyncNodeChange} {i : SyncedItem rt}
    (h : CheckedItem s item i)
    (hfields : ∀ f ∈ ["status", "selected_option", "options", "current_summary", "next_action",
      "validity"], f ∉ item.changes.keys) :
    i.directChoice = false ∧ ∀ f ∈ guidedFields, f ∉ item.changes.keys := by
  have hdirect : i.directChoice = false := by
    rw [h.direct, isDecisionChoice]
    have hselected : "selected_option" ∉ item.changes := hfields _ (by decide)
    have hstatus : item.changes.get? "status" = none :=
      (Dict.not_mem_iff _ _).mp (hfields "status" (by decide))
    simp [hselected, changed, Dict.getD, hstatus]
  refine ⟨hdirect, fun f hf hin => ?_⟩
  have hallowed := h.fields f hin
  rw [hdirect] at hallowed
  by_cases hstale : f ∈ ["current_summary_stale", "next_action_stale"]
  · have hno : ∀ type : NodeType, ∀ f ∈ ["current_summary_stale", "next_action_stale"],
        f ∉ humanEditableNodeFields type ++ [] ++ ["extension_fields"] := by
      intro type
      cases type <;> decide
    exact hno i.node.type f hstale (by simpa using hallowed)
  · refine hfields f ?_ hin
    revert hf hstale
    simp only [guidedFields, List.mem_cons, List.not_mem_nil, or_false]
    tauto

theorem map_ok {α β : Type} (f : α → β) (x : Except String α) (b : β) (h : x.map f = .ok b) :
    ∃ a, x = .ok a ∧ f a = b := by
  cases x with
  | error e => cases h
  | ok a =>
      cases h
      exact ⟨a, rfl, rfl⟩

/-- What the manifest leaves to an item that is drafted locally. -/
theorem local_item (item : GraphSyncNodeChange) (i : SyncedItem rt) (h : CheckedItem s item i)
    (hno : couldTrigger guidanceTriggers (nodeItemEdit s item) = false) :
    i.directChoice = false ∧ ((∀ type, s.nodeType? item.nodeId = some type →
      type = .researchQuestion) ∨ ∀ f ∈ guidedFields, f ∉ item.changes.keys) := by
  have htype : s.nodeType? item.nodeId = some i.node.type := by
    rw [GraphState.nodeType?, h.node, Option.map_some]
  have hcannot := cannot_match guidanceTriggers _ hno
    { operation := "update_nodes"
      nodeTypes := ["blocker", "decision", "evidence", "experiment", "hypothesis"]
      nodeFields :=
        ["status", "selected_option", "options", "current_summary", "next_action", "validity"] }
    (by decide) rfl
  simp only [dimension_nil, Bool.false_eq_true, or_false] at hcannot
  rcases hcannot with htypes | hfields
  · rw [nodeItemEdit, htype, Option.map_some] at htypes
    have hname := fun v hv => List.mem_singleton.not.mp (not_tagged _ _ htypes v hv)
    have hquestion : i.node.type = .researchQuestion := by
      revert hname
      cases i.node.type <;> decide
    refine ⟨?_, .inl fun type hin => ?_⟩
    · rw [h.direct, hquestion]
      rfl
    · rw [htype, Option.some.injEq] at hin
      rw [← hin, hquestion]
  · have hunwritten := not_tagged _ _ hfields
    obtain ⟨hdirect, hkept⟩ := h.unguided fun f hf hin =>
      hunwritten f hf (List.mem_append_left _ (List.mem_append_left _ hin))
    exact ⟨hdirect, .inr hkept⟩

/-- The patch of an item that is drafted locally is quiet. -/
theorem itemPatch_quiet (env : SyncEnv rt) (item : GraphSyncNodeChange) (patches : List (Patch rt))
    (hs : s.Keyed) (hno : couldTrigger guidanceTriggers (nodeItemEdit s item) = false)
    (h : itemPatch env s item = .ok patches) (p : Patch rt) (hp : p ∈ patches)
    (op : GraphOperation rt) (hop : op ∈ p.ops) : op.QuietIn s := by
  simp only [itemPatch, bind, Except.bind, pure, Except.pure] at h
  cases hchecked : checkItem env s item with
  | error e => simp [hchecked] at h
  | ok i =>
      simp only [hchecked] at h
      have hi := checkItem_ok env item i hchecked
      have hid : i.node.id = item.nodeId := hs _ _ hi.node
      obtain ⟨hdirect, hwritten⟩ := local_item item i hi hno
      cases hreleases : i.releaseOps env with
      | error e => simp [hreleases] at h
      | ok releases =>
          simp only [hreleases] at h
          split at h
          next =>
            cases h
            cases hp
          next =>
            cases h
            rw [List.mem_singleton.mp hp] at hop
            simp only [humanPatch, List.mem_append] at hop
            rcases hop with ((hop | hop) | hop) | hop
            · rw [SyncedItem.editOps] at hop
              split at hop
              next =>
                rw [List.mem_singleton.mp hop]
                intro u hu
                rw [List.mem_singleton.mp hu]
                simpa only [hid, hi.same] using hwritten
              next => cases hop
            · simp [SyncedItem.withdrawalOps, SyncedItem.withdrawals, hdirect] at hop
            · rw [SyncedItem.releaseOps] at hreleases
              split at hreleases
              next =>
                cases hreleases
                cases hop
              next =>
                obtain ⟨attempts, -, rfl⟩ := map_ok _ _ _ hreleases
                rw [List.mem_singleton.mp hop]
                intro u hu
                rw [List.mem_singleton.mp hu]
                have hunguided : ∀ f ∈ guidedFields, f ∉ ["attempts"] := by decide
                exact .inr hunguided
            · rw [SyncedItem.standingOps] at hop
              split at hop
              next => cases hop
              next =>
                split at hop
                next => cases hop
                next =>
                  rw [List.mem_singleton.mp hop]
                  trivial

/-- A draft that goes its local way builds quiet patches. -/
theorem buildSyncPatches_quiet (env : SyncEnv rt) (tag : Option String)
    (request : GraphSyncRequest rt) (patches : List (Patch rt)) (hs : s.Keyed)
    (hlocal : ∀ edit ∈ draftEdits s request, ∀ why,
      transitionPreviewRouting (some transitionTriggerManifest) tag edit ≠ .backendPreview why)
    (h : buildSyncPatches env s request = .ok patches) (p : Patch rt) (hp : p ∈ patches)
    (op : GraphOperation rt) (hop : op ∈ p.ops) : op.QuietIn s := by
  simp only [buildSyncPatches, bind, Except.bind, pure, Except.pure] at h
  cases hitems : request.nodes.mapM (itemPatch env s) with
  | error e => simp [hitems] at h
  | ok items =>
      simp only [hitems, Except.ok.injEq] at h
      subst h
      rcases List.mem_append.mp hp with hp | hp
      · unfold ontologyPatches at hp
        split at hp
        next => cases hp
        next =>
          split at hp
          next => cases hp
          next =>
            rw [List.mem_singleton.mp hp, humanPatch] at hop
            rw [List.mem_singleton.mp hop]
            trivial
      · obtain ⟨built, hbuilt, hp⟩ := List.mem_flatten.mp hp
        obtain ⟨item, hitem, hok⟩ := Steps.mem_of_mapM hitems built hbuilt
        have hedit : nodeItemEdit s item ∈ draftEdits s request := by
          refine List.mem_append_left _ (List.mem_append_left _ (List.mem_append_left _ ?_))
          exact List.mem_map.mpr ⟨item, hitem, rfl⟩
        exact itemPatch_quiet env item built hs
          (local_edit transitionTriggerManifest tag _ (hlocal _ hedit)).2 hok p hp op hop

end Routing

end RcpGraph
