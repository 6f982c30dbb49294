import RcpGraph.Graph.GuidanceClosure

/-!
The gate of an Experiment's automatic wakes against the pending changes of the
Decisions that govern it. The gate looks for pending Proposals that name such a
Decision; what approving a Proposal does is decided by its operations.
-/

namespace RcpGraph

variable {rt : Runtime}

/-- What `admit_experiment_watcher_invocation` is asked. -/
structure WakeRequest where
  episodeId : Option String
  invocationsUsed : Int
  invocationCeiling : Option Int
  decisionBundle : Option (List DecisionPin)
  taskActive : Bool := false
  episodeExited : Bool := false
  stopRequested : Bool := false

/-- `ExperimentInvocationAdmission`. -/
structure ExperimentInvocationAdmission where
  episodeId : String
  invocation : Int
  invocationCeiling : Int
  decisionBundle : List DecisionPin

/-- `admit_experiment_watcher_invocation`. -/
def admitExperimentWatcherInvocation (s : GraphState rt) (experimentId : String)
    (w : WakeRequest) : Except String (Option ExperimentInvocationAdmission) :=
  match w.episodeId, w.invocationCeiling with
  | none, _ => .error "An Experiment watcher cannot wake without an authorized episode."
  | _, none => .error "An Experiment watcher cannot wake without its pinned ceiling."
  | some episodeId, some ceiling =>
      if w.invocationsUsed < 1 then
        .error "An Experiment watcher cannot wake before invocation 1."
      else
        match w.decisionBundle with
        | none => .error "An Experiment watcher cannot wake without pinned decisions."
        | some bundle =>
            if w.taskActive || w.episodeExited || w.stopRequested then .ok none
            else if ceiling ≤ w.invocationsUsed then .ok none
            else if (s.typed? .experiment experimentId).isNone then
              .error ("Node " ++ Text.quoted experimentId ++ " is not an Experiment.")
            else if experimentGraphPreconditionReasons s experimentId ≠ [] then .ok none
            else .ok (some ⟨episodeId, w.invocationsUsed + 1, ceiling, bundle⟩)

/-- A reason to wait admits no wake. -/
theorem admit_ne_some (s : GraphState rt) (experimentId : String) (w : WakeRequest)
    (hreasons : experimentGraphPreconditionReasons s experimentId ≠ [])
    (a : ExperimentInvocationAdmission) :
    admitExperimentWatcherInvocation s experimentId w ≠ .ok (some a) := by
  unfold admitExperimentWatcherInvocation
  split
  · simp
  · simp
  · split
    · simp
    · split
      · simp
      · split
        · simp
        · split
          · simp
          · split <;> simp

/-- `_proposal_judgment_patch` of an approval, as the space stamps it. -/
def approvalPatch (s : GraphState rt) (q : Proposal rt) (ops : List (GraphOperation rt))
    (authorizedBy : Option AuthorizedHuman) (createdAt : String) : Patch rt where
  kind := .approval
  author := some .human
  producer := .human
  createdAt := createdAt
  summary := "Approved proposal “" ++ q.title ++ "”."
  changeSummary := ["The proposal “" ++ q.title ++ "” was approved."]
  humanAction := if writesDecisionOutcome s ops then some .decisionChoice else none
  authorizedBy := authorizedBy
  ops := ops

/-- Approving a Proposal, which both gates let through, leads to a graph. -/
def Approves (project : Project rt) (s : GraphState rt) (q : Proposal rt) (t : GraphState rt) :
    Prop :=
  ∃ reason ops authorizedBy createdAt prepared,
    proposalApprovalOperations s q reason = .ok ops ∧
      nextAppend project s [approvalPatch s q ops authorizedBy createdAt] = some prepared ∧
      t = prepared.graph

/-- The status and the selected option of a Decision; `none` once it is gone. -/
def GraphState.outcomeAt (s : GraphState rt) (id : String) :
    Option (Option String × Option Json) :=
  (s.typed? .decision id).map fun d => (d.status?, d.field? "selected_option")

def GraphState.Governs (s : GraphState rt) (decisionId experimentId : String) : Prop :=
  ∃ e ∈ s.edges.values, e.source = experimentId ∧ e.relation = "governed_by" ∧
    e.target = decisionId

def GraphState.Blocks (s : GraphState rt) (blockerId experimentId : String) : Prop :=
  ∃ e ∈ s.edges.values, e.source = experimentId ∧ e.relation = "blocked_by" ∧ e.target = blockerId

/-- The nodes a Proposal operation removes. -/
def ProposalOperation.removedIds : ProposalOperation rt → List String
  | .removal _ ids => ids
  | _ => []

def Proposal.RemovesNode (q : Proposal rt) (id : String) : Prop :=
  ∃ op ∈ q.ops, id ∈ op.removedIds

/-- A pending Proposal updates, supersedes or merges a Decision, or names it as the node
that replaces another. -/
def GraphState.PendingNames (s : GraphState rt) (decisionId : String) : Prop :=
  ∃ q ∈ s.proposals.values, q.status = .pending ∧ ∃ op ∈ q.ops, decisionId ∈ opTargetIds op

/-- A Decision that settles what its Experiments do. -/
def GraphState.Settled (s : GraphState rt) (decisionId : String) : Prop :=
  ∃ d, s.typed? .decision decisionId = some d ∧ d.text "status" = "decided" ∧
    d.text "selected_option" ≠ ""

/-- A reason to wait that is read off the graph: a governing Decision that is not settled
or that a pending Proposal names, or a Blocker that is open or missing. -/
def GraphState.HoldsBack (s : GraphState rt) (experimentId : String) : Prop :=
  (∃ d, s.Governs d experimentId ∧ (¬s.Settled d ∨ s.PendingNames d)) ∨
    ∃ b, s.Blocks b experimentId ∧
      ∀ n, s.typed? .blocker b = some n → n.text "status" = "open"

/-- The experiment waits: the gate has a reason, and no wake is admitted. -/
def Waits (s : GraphState rt) (experimentId : String) : Prop :=
  experimentGraphPreconditionReasons s experimentId ≠ [] ∧
    ∀ w a, admitExperimentWatcherInvocation s experimentId w ≠ .ok (some a)

section Reasons

theorem mem_relatedTargets (s : GraphState rt) (source relation target : String) :
    target ∈ relatedTargets s source relation ↔
      ∃ e ∈ s.edges.values, e.source = source ∧ e.relation = relation ∧ e.target = target := by
  simp only [relatedTargets, Text.mem_sortedSet, List.mem_map, List.mem_filter,
    Bool.and_eq_true, decide_eq_true_eq]
  constructor
  · intro h
    obtain ⟨e, ⟨he, hs, hr⟩, ht⟩ := h
    exact ⟨e, he, hs, hr, ht⟩
  · intro h
    obtain ⟨e, he, hs, hr, ht⟩ := h
    exact ⟨e, ⟨he, hs, hr⟩, ht⟩

theorem hasPendingProposal_iff (s : GraphState rt) (decisionId : String) :
    hasPendingProposal s decisionId = true ↔ s.PendingNames decisionId := by
  simp only [hasPendingProposal, GraphState.PendingNames, List.any_eq_true, Bool.and_eq_true,
    decide_eq_true_eq]

theorem decisionReasons_ne_nil (s : GraphState rt) (decisionId : String) :
    decisionReasons s decisionId ≠ [] ↔ ¬s.Settled decisionId ∨ s.PendingNames decisionId := by
  rw [← hasPendingProposal_iff, decisionReasons]
  cases hd : s.typed? .decision decisionId with
  | none =>
      have hopen : ¬s.Settled decisionId := by
        intro h
        obtain ⟨d, hd', -⟩ := h
        rw [hd] at hd'
        cases hd'
      simp [hopen]
  | some d =>
      have hsettled : s.Settled decisionId ↔
          d.text "status" = "decided" ∧ d.text "selected_option" ≠ "" := by
        constructor
        · intro h
          obtain ⟨d', hd', hdecided⟩ := h
          rw [hd] at hd'
          cases hd'
          exact hdecided
        · exact fun h => ⟨d, hd, h⟩
      by_cases hopen : d.text "status" ≠ "decided" ∨ d.text "selected_option" = ""
      · have : ¬s.Settled decisionId := by
          rw [hsettled]
          grind
        simp [hopen, this]
      · have : s.Settled decisionId := by
          rw [hsettled]
          grind
        simp [hopen, this]

theorem blockerReasons_ne_nil (s : GraphState rt) (blockerId : String) :
    blockerReasons s blockerId ≠ [] ↔
      ∀ n, s.typed? .blocker blockerId = some n → n.text "status" = "open" := by
  rw [blockerReasons]
  cases hb : s.typed? .blocker blockerId with
  | none => simp
  | some n => by_cases hopen : n.text "status" = "open" <;> simp [hopen]

/-- The gate has a reason exactly when the graph holds the Experiment back. -/
theorem reasons_ne_nil (s : GraphState rt) (experimentId : String) :
    experimentGraphPreconditionReasons s experimentId ≠ [] ↔ s.HoldsBack experimentId := by
  have hflat : ∀ (f : String → List String) (xs : List String),
      xs.flatMap f ≠ [] ↔ ∃ x ∈ xs, f x ≠ [] := by
    intro f xs
    simp [List.flatMap_eq_nil_iff]
  rw [experimentGraphPreconditionReasons, ne_eq, List.append_eq_nil_iff, not_and_or,
    ← ne_eq, ← ne_eq, hflat, hflat]
  simp only [mem_relatedTargets, decisionReasons_ne_nil, blockerReasons_ne_nil]
  rfl

theorem waits_iff (s : GraphState rt) (experimentId : String) :
    Waits s experimentId ↔ s.HoldsBack experimentId := by
  rw [← reasons_ne_nil]
  constructor
  · exact fun h => h.1
  · exact fun h => ⟨h, fun w => admit_ne_some s experimentId w h⟩

end Reasons

section Spared

/-- An operation that neither updates, retires nor removes a node. -/
def GraphOperation.Bypasses (id : String) : GraphOperation rt → Prop
  | .updateNodes updates => id ∉ updates.map (·.id)
  | .removeNodes ids => id ∉ ids
  | .supersedeNodes items => id ∉ items.map (·.id)
  | .mergeNodes merges => id ∉ merges.map (·.duplicate)
  | _ => True

theorem outcomeAt_congr {s t : GraphState rt} {id : String}
    (h : t.nodes.get? id = s.nodes.get? id) : t.outcomeAt id = s.outcomeAt id := by
  rw [GraphState.outcomeAt, GraphState.outcomeAt, GraphState.typed?, GraphState.typed?, h]

/-- An accepted operation that spares a node keeps it and its outcome. -/
theorem outcomeAt_applyOp (ctx : OpContext rt) (p : Patch rt) (op : GraphOperation rt) (id : String)
    (hop : op.Bypasses id) (s t : GraphState rt) (ha : Alike ctx.state s) (hs : s.Keyed)
    (hid : id ∈ s.nodes) (hr : refused (patchRules ctx op) = false)
    (h : applyOp p false op s = .ok t) : id ∈ t.nodes ∧ t.outcomeAt id = s.outcomeAt id := by
  have hkept : id ∉ op.nodeTargets → id ∈ t.nodes ∧ t.outcomeAt id = s.outcomeAt id := by
    intro hnot
    have hget := get?_nodes_applyOp p false op s t hs h id hnot
    refine ⟨?_, outcomeAt_congr hget⟩
    rw [Dict.mem_iff_isSome, hget, ← Dict.mem_iff_isSome]
    exact hid
  cases op with
  | createNodes nodes =>
      refine hkept fun hmem => ?_
      obtain ⟨raw, hraw, rfl⟩ := List.mem_map.mp hmem
      refine created_new ctx nodes hr raw hraw ?_
      rw [ha.nodes]
      exact hid
  | setStanding nodeId standing =>
      by_cases hne : id = nodeId
      · -- A judgment writes standing and revision, which the outcome does not show.
        subst hne
        obtain ⟨n, hn, rfl⟩ := setStanding_ok p.revision id standing s t h
        have hkey := hs id n hn
        refine ⟨?_, ?_⟩
        · simp [hkey]
        · simp only [GraphState.outcomeAt, GraphState.typed?, hkey, Dict.get?_insert_self, hn,
            Option.filter_some]
          by_cases htype : n.type = .decision
          · simp only [ProjectNode.withStanding, htype, decide_true, if_true, Option.map_some]
            rfl
          · simp [ProjectNode.withStanding, htype]
      · exact hkept (by simpa [GraphOperation.nodeTargets] using hne)
  | updateNodes _ | removeNodes _ | supersedeNodes _ | mergeNodes _ => exact hkept hop
  | _ => exact hkept (by simp [GraphOperation.nodeTargets])

/-- What an approval writes spares every node that the Proposal neither names nor removes. -/
theorem spares_of_approval (s : GraphState rt) (q : Proposal rt) (reason : Option String)
    (ops : List (GraphOperation rt)) (id : String)
    (hops : proposalApprovalOperations s q reason = .ok ops)
    (hnamed : ∀ op ∈ q.ops, id ∉ opTargetIds op) (hremoved : ¬q.RemovesNode id) :
    ∀ op ∈ ops, op.Bypasses id := by
  unfold proposalApprovalOperations at hops
  cases htargets : approvalStandingTargets q with
  | error e =>
      rw [htargets] at hops
      cases hops
  | ok targets =>
      rw [htargets] at hops
      cases hops
      intro op hop
      rcases List.mem_append.mp hop with hop | hop
      · rcases List.mem_append.mp hop with hop | hop
        · obtain ⟨proposed, hproposed, rfl⟩ := List.mem_map.mp hop
          have hname := hnamed proposed hproposed
          have hremove : id ∉ proposed.removedIds := fun hin => hremoved ⟨proposed, hproposed, hin⟩
          have hids : ∀ updates : List NodeUpdate,
              (updates.map (normalizedDecisionUpdate s)).map (·.id) = updates.map (·.id) := by
            intro updates
            rw [List.map_map]
            refine List.map_congr_left fun u _ => ?_
            simp only [Function.comp_apply, normalizedDecisionUpdate]
            split
            · rfl
            · split <;> rfl
          cases proposed with
          | contentChange _ nodes | statusChange _ nodes =>
              simp only [ProposalOperation.toGraphOperation, GraphOperation.Bypasses, hids]
              exact hname
          | removal _ ids => exact hremove
          | supersede _ nodes =>
              intro hin
              obtain ⟨item, hitem, rfl⟩ := List.mem_map.mp hin
              exact hname (List.mem_flatMap.mpr ⟨item, hitem, List.mem_cons_self⟩)
          | merge _ merges =>
              intro hin
              obtain ⟨m, hm, rfl⟩ := List.mem_map.mp hin
              exact hname (List.mem_flatMap.mpr ⟨m, hm, List.mem_cons_self⟩)
          | _ => trivial
        · rw [List.mem_singleton] at hop
          subst hop
          trivial
      · obtain ⟨target, -, rfl⟩ := List.mem_map.mp hop
        trivial

/-- An approval that neither names nor removes a Decision leaves its outcome as it was. -/
theorem outcomeAt_of_approves (project : Project rt) (s t : GraphState rt) (q : Proposal rt)
    (id : String) (hs : s.Keyed) (hid : (s.typed? .decision id).isSome)
    (happroves : Approves project s q t) (hnamed : ∀ op ∈ q.ops, id ∉ opTargetIds op)
    (hremoved : ¬q.RemovesNode id) : t.outcomeAt id = s.outcomeAt id := by
  obtain ⟨reason, ops, authorizedBy, createdAt, prepared, hops, happend, rfl⟩ := happroves
  have hspares := spares_of_approval s q reason ops id hops hnamed hremoved
  obtain ⟨sources, hgates, hprepared⟩ := nextAppend_ok _ _ _ prepared happend
  obtain ⟨admitted, generated, u, v, hrun⟩ :=
    appended_run project s _ _ sources none _ prepared hgates hprepared
  obtain ⟨d, hd⟩ := Option.isSome_iff_exists.mp hid
  obtain ⟨hget, htype⟩ := (typed?_iff s _ id d).mp hd
  -- The source operations keep the Decision and its outcome.
  have hkept := hrun.judged.invariant
    (fun _ t => t.Keyed ∧ id ∈ t.nodes ∧ t.outcomeAt id = s.outcomeAt id)
    (fun here a b source rest happ hplain ha hj hsource h => by
      obtain ⟨raw, hraw, hadmitted, -, hissues⟩ := hj.gates hplain
      refine patchIssues_run here source _ _ hissues prepared.patch happ hplain
        (fun _ t => t.Keyed ∧ id ∈ t.nodes ∧ t.outcomeAt id = s.outcomeAt id) ?_ a b ha hsource h
      intro op more ctx x y hop hctx hax hr hxy hx
      have hbypasses : op.Bypasses id := by
        rw [hadmitted] at hop
        rcases mem_prepareOperations here _ _ _ op hop with hop | hop | hop
        · rw [List.mem_singleton] at hraw
          subst hraw
          exact hspares op hop
        · obtain ⟨proposals, rfl⟩ := hop
          trivial
        · obtain ⟨terms, rfl⟩ := hop
          trivial
      obtain ⟨hstays, hsame⟩ := outcomeAt_applyOp ctx prepared.patch op id hbypasses x y hax hx.1
        hx.2.1 hr hxy
      exact ⟨keyed_applyOp _ false op x y hx.1 hxy, hstays, hsame.trans hx.2.2⟩)
    ⟨hs, Dict.mem_of_get? hget, rfl⟩
  -- The guidance rule writes Experiments only.
  obtain ⟨hkeyed, hmem, hsame⟩ := hkept
  have hdecision : u.nodeType? id ≠ some .experiment := by
    intro hexperiment
    have hnone : u.outcomeAt id = none := by
      obtain ⟨n, hn, hn'⟩ := Option.map_eq_some_iff.mp hexperiment
      simp [GraphState.outcomeAt, GraphState.typed?, hn, Option.filter, hn']
    rw [hnone, GraphState.outcomeAt, hd] at hsame
    cases hsame
  obtain ⟨-, -, hmarked⟩ := marks_run prepared.patch generated u v hrun.marks hkeyed hrun.marked
  have hnodes : prepared.graph.nodes = v.nodes := by
    rw [hrun.graph]
    exact (relayer_alike _ v).nodes
  refine (outcomeAt_congr ?_).trans hsame
  rw [hnodes, hmarked id hdecision]

end Spared

/-- A graph that replay rebuilds from validated patches, those of older generations among them,
or that admitted appends reach. -/
def Reached (project : Project rt) (s : GraphState rt) : Prop :=
  Reachable (fun _ _ => True) s ∨ Appended project (fun _ _ => True) s

theorem Reached.keyed {project : Project rt} {s : GraphState rt} (h : Reached project s) :
    s.Keyed := by
  rcases h with hreplayed | happended
  · exact keyed_of_reachable s hreplayed
  · exact keyed_of_appended s happended

/-- The Experiment waits whenever approving some pending Proposal would change the outcome
of a Decision, or take the Decision out of the graph. -/
def GateSees (project : Project rt) (s : GraphState rt) (experimentId decisionId : String) : Prop :=
  (∃ q ∈ s.proposals.values, q.status = .pending ∧
      ∃ t, Approves project s q t ∧ t.outcomeAt decisionId ≠ s.outcomeAt decisionId) →
    Waits s experimentId

/-- The gate sees the pending changes of a governing Decision exactly when each of them
that comes with a removal of the Decision meets another reason to wait. -/
theorem gate_sees_pending_changes (project : Project rt) (s : GraphState rt)
    (hs : Reached project s) (experimentId decisionId : String)
    (hdecision : (s.typed? .decision decisionId).isSome)
    (hgoverns : s.Governs decisionId experimentId) :
    GateSees project s experimentId decisionId ↔
      ∀ q ∈ s.proposals.values, q.status = .pending → q.RemovesNode decisionId →
        (∃ t, Approves project s q t ∧ t.outcomeAt decisionId ≠ s.outcomeAt decisionId) →
        s.HoldsBack experimentId := by
  rw [GateSees, waits_iff]
  constructor
  · exact fun hsees q hq hpending _ hchange => hsees ⟨q, hq, hpending, hchange⟩
  · intro hremovals hpending
    obtain ⟨q, hq, hpending, t, happroves, hchange⟩ := hpending
    by_cases hremoves : q.RemovesNode decisionId
    · exact hremovals q hq hpending hremoves ⟨t, happroves, hchange⟩
    · by_contra hfree
      have hnamed : ∀ op ∈ q.ops, decisionId ∉ opTargetIds op := fun op hop hin =>
        hfree (.inl ⟨decisionId, hgoverns, .inr ⟨q, hq, hpending, op, hop, hin⟩⟩)
      exact hchange (outcomeAt_of_approves project s t q decisionId hs.keyed hdecision happroves
        hnamed hremoves)

section Concrete

/-- An Experiment under a chosen Decision. -/
def settledExperiment : Patch .plain :=
  choosingPatch
    [ .createNodes [experimentDraft "exp/a", decisionDraft "dec/a"], .updateNodes [chooseA],
      .createEdges [governedDraft "exp/a" "dec/a"] ]

def acceptedDecision : Patch .plain := syncPatch [.setStanding "dec/a" .accepted]

/-- A review of a branch merge that asks to remove the Decision. -/
def removalDraft : NewProposal .plain where
  proposal :=
    { id := "prop/a"
      title := "Remove"
      card :=
        { situationCold := "Cold"
          whyHumanNow := "Now"
          consequences := "None"
          decisionNeeded := "Accept" }
      ops := [.removal false ["dec/a"]] }

def mergedRemoval : Patch .plain :=
  { choosingPatch [.createProposals [removalDraft]] with
    agentAction := none
    branchMerge := some
      { mergeId := "merge"
        branchId := "branch"
        episodeId := none
        branchBaseHead := { revision := 1 }
        branchHead := { revision := 2 }
        rebasedMainHead := { revision := 2 }
        mergeTaskId := "task" } }

theorem appended_appendAll {project : Project rt} (batches : List (List (Patch rt)))
    (ops more : List (GraphOperation rt)) (s t : GraphState rt)
    (before : Appended project (fun _ _ => True) s)
    (h : appendAll project batches ops s = some (more, t)) :
    Appended project (fun _ _ => True) t := by
  induction batches generalizing ops s with
  | nil =>
      cases h
      exact before
  | cons raws rest ih =>
      obtain ⟨prepared, hp, hrest⟩ := Option.bind_eq_some_iff.mp h
      obtain ⟨sources, hgates, hprepared⟩ := nextAppend_ok project s raws prepared hp
      exact ih _ _ (.append s _ raws sources none prepared [] before trivial hgates hprepared) hrest

/-- The facts about the Experiment and the Decision that the gate is asked under. -/
def underDecision (s : GraphState .plain) : Bool :=
  (s.typed? .experiment "exp/a").isSome && (s.typed? .decision "dec/a").isSome &&
    s.edges.values.any fun e =>
      decide (e.source = "exp/a" ∧ e.relation = "governed_by" ∧ e.target = "dec/a")

theorem underDecision_iff (s : GraphState .plain) (h : underDecision s = true) :
    (s.typed? .experiment "exp/a").isSome ∧ (s.typed? .decision "dec/a").isSome ∧
      s.Governs "dec/a" "exp/a" := by
  simp only [underDecision, Bool.and_eq_true, List.any_eq_true, decide_eq_true_eq] at h
  exact ⟨h.1.1, h.1.2, h.2⟩

/-- Approving some pending Proposal changes the Decision. -/
def approvalChanges (s : GraphState .plain) : Bool :=
  s.proposals.values.any fun q =>
    decide (q.status = .pending) &&
      (proposalApprovalOperations s q none).toOption.any fun ops =>
        (nextAppend Project.solo s
          [approvalPatch s q ops (some ⟨"space", "user", "User"⟩) "2026-01-02T00:00:00Z"]).any
          fun prepared => decide (prepared.graph.outcomeAt "dec/a" ≠ s.outcomeAt "dec/a")

theorem approvalChanges_spec {s : GraphState .plain} (h : approvalChanges s = true) :
    ∃ q ∈ s.proposals.values, q.status = .pending ∧
      ∃ t, Approves Project.solo s q t ∧ t.outcomeAt "dec/a" ≠ s.outcomeAt "dec/a" := by
  simp only [approvalChanges, Bool.and_eq_true, decide_eq_true_eq, List.any_eq_true,
    Option.any_eq_true, toOption_eq_some] at h
  obtain ⟨q, hq, hpending, ops, hops, prepared, happend, hchange⟩ := h
  exact ⟨q, hq, hpending, prepared.graph, ⟨none, ops, _, _, prepared, hops, happend, rfl⟩, hchange⟩

/-- A Proposal of an older generation to select the other option. -/
def reselectionDraft : NewProposal .plain where
  proposal :=
    { id := "prop/a"
      title := "Select"
      card :=
        { situationCold := "Cold"
          whyHumanNow := "Now"
          consequences := "None"
          decisionNeeded := "Accept" }
      ops :=
        [ .contentChange true
            [{ id := "dec/a", changes := .ofList [("selected_option", .str "b")] }] ] }

def filedReselection : Patch .plain :=
  { choosingPatch [.createProposals [reselectionDraft]] with revision := 2, agentAction := none }

theorem reachable_reselection :
    ∃ s, Reachable (fun _ _ => True) s ∧ underDecision s = true ∧ approvalChanges s = true ∧
      experimentGraphPreconditionReasons s "exp/a" ≠ [] := by
  have hrun : ∃ s t : GraphState .plain,
      applyValidPatch (.initial .plain ["repo"]) settledExperiment = .ok s ∧
      applyValidPatch (s.record []) filedReselection = .ok t ∧
      rejected (validatePatch (s.record []) filedReselection
        { projectTruthScope := ["repo"], mode := .replay } {}) = false ∧
      underDecision (t.record []) = true ∧ approvalChanges (t.record []) = true ∧
      experimentGraphPreconditionReasons (t.record []) "exp/a" ≠ [] :=
    ⟨_, _, rfl, rfl, by decide +kernel, by decide +kernel, by decide +kernel, by decide +kernel⟩
  obtain ⟨s, t, hs, ht, hvalid, hfacts⟩ := hrun
  refine ⟨t.record [], .accept _ t filedReselection _ _ [] ?_ trivial hvalid ht, hfacts⟩
  exact .accept _ s settledExperiment { projectTruthScope := ["repo"] } {} [] (.initial ["repo"])
    trivial (by decide +kernel) hs

theorem gate_sees_pending_changes_reselection :
    ∃ s, underDecision s = true ∧ approvalChanges s = true ∧ Waits s "exp/a" ∧
      (GateSees Project.solo s "exp/a" "dec/a" ↔
        ∀ q ∈ s.proposals.values, q.status = .pending → q.RemovesNode "dec/a" →
          (∃ t, Approves Project.solo s q t ∧ t.outcomeAt "dec/a" ≠ s.outcomeAt "dec/a") →
          s.HoldsBack "exp/a") := by
  obtain ⟨s, hs, hunder, hchanges, hreasons⟩ := reachable_reselection
  obtain ⟨-, hdecision, hgoverns⟩ := underDecision_iff s hunder
  have hsees := gate_sees_pending_changes Project.solo s (.inl hs) "exp/a" "dec/a" hdecision hgoverns
  exact ⟨s, hunder, hchanges, (waits_iff s _).mpr ((reasons_ne_nil s _).mp hreasons), hsees⟩

/-- The gate has no reason, and approving the pending Proposal changes the Decision. -/
def removalUnseen (s : GraphState .plain) : Bool :=
  decide (experimentGraphPreconditionReasons s "exp/a" = []) && approvalChanges s

theorem unseen_removal :
    ¬∀ s : GraphState .plain, Appended Project.solo (fun _ _ => True) s →
      ∀ experimentId decisionId, (s.typed? .experiment experimentId).isSome →
        (s.typed? .decision decisionId).isSome → s.Governs decisionId experimentId →
        GateSees Project.solo s experimentId decisionId := by
  intro hsees
  have hrun : (appendAll Project.solo [[settledExperiment], [acceptedDecision], [mergedRemoval]] []
      (.initial .plain ["repo"])).any (fun r => underDecision r.2 && removalUnseen r.2) = true := by
    decide +kernel
  obtain ⟨r, hr, hboth⟩ := (Option.any_eq_true _ _).mp hrun
  rw [Bool.and_eq_true] at hboth
  have happended := appended_appendAll _ [] r.1 _ r.2 (.initial ["repo"]) hr
  obtain ⟨hexperiment, hdecision, hgoverns⟩ := underDecision_iff r.2 hboth.1
  have hunseen := hboth.2
  rw [removalUnseen, Bool.and_eq_true, decide_eq_true_eq] at hunseen
  exact (hsees r.2 happended "exp/a" "dec/a" hexperiment hdecision hgoverns
    (approvalChanges_spec hunseen.2)).1 hunseen.1

end Concrete

end RcpGraph
