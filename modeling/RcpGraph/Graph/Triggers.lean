import RcpGraph.Graph.Guiding
import RcpGraph.Graph.Proposals

/-!
The manifest by which the browser decides that a staged edit has to be previewed by the
backend. A trigger names an operation, node types, node fields and relations; an edit that
no trigger could match is drafted locally.
-/

namespace RcpGraph

variable {rt : Runtime}

/-- `TransitionTrigger`. -/
structure TransitionTrigger where
  operation : String
  nodeTypes : List String := []
  nodeFields : List String := []
  relations : List String := []
  deriving DecidableEq, Repr

/-- `guidance_triggers`. -/
def guidanceTriggers : List TransitionTrigger :=
  [ { operation := "update_nodes"
      nodeTypes := ["blocker", "decision", "evidence", "experiment", "hypothesis"]
      nodeFields :=
        ["status", "selected_option", "options", "current_summary", "next_action", "validity"] },
    { operation := "supersede_nodes", nodeTypes := ["evidence"] },
    { operation := "merge_nodes", nodeTypes := ["evidence"] },
    { operation := "create_edges"
      relations :=
        [ "blocked_by", "governed_by", "tests", "supports", "weakens", "refutes", "inconclusive",
          "contradicts" ] },
    { operation := "remove_edges"
      relations :=
        [ "blocked_by", "governed_by", "tests", "supports", "weakens", "refutes", "inconclusive",
          "contradicts" ] },
    { operation := "create_proposals", nodeTypes := ["decision"] },
    { operation := "resolve_proposals", nodeTypes := ["decision"] },
    { operation := "withdraw_proposals", nodeTypes := ["decision"] } ]

/-- `StagedTransitionEdit`; `none` is a tag that was left out. -/
structure StagedTransitionEdit where
  operation : Option String := none
  nodeTypes : Option (List String) := none
  nodeFields : Option (List String) := none
  relations : Option (List String) := none
  deriving DecidableEq, Repr

/-- `dimensionCannotMatch`. -/
def dimensionCannotMatch (triggerValues : List String) (editValues : Option (List String)) : Bool :=
  match editValues with
  | none => false
  | some edits => decide (triggerValues ≠ []) && triggerValues.all fun v => decide (v ∉ edits)

/-- `triggerCouldMatch`. -/
def triggerCouldMatch (trigger : TransitionTrigger) (edit : StagedTransitionEdit) : Bool :=
  !(dimensionCannotMatch trigger.nodeTypes edit.nodeTypes ||
    dimensionCannotMatch trigger.nodeFields edit.nodeFields ||
    dimensionCannotMatch trigger.relations edit.relations)

/-- The types of some nodes; left out when one of them is not there. -/
def GraphState.typesOf (s : GraphState rt) (ids : List String) : Option (List String) :=
  if ids.all fun id => decide (id ∈ s.nodes) then
    some (ids.filterMap fun id => (s.nodeType? id).map NodeType.name)
  else none

/-- The nodes that a Proposal stored under an id names. -/
def GraphState.targetsAt (s : GraphState rt) (id : String) : List String :=
  (s.proposals.get? id).toList.flatMap Proposal.targets

/-- The relation of a stored edge. -/
def GraphState.relationsAt (s : GraphState rt) (id : String) : List String :=
  (s.edges.get? id).toList.map Edge.relation

/-- The nodes an operation touches, for the manifest. -/
def GraphOperation.touched (s : GraphState rt) : GraphOperation rt → List String
  | .updateNodes updates => updates.map (·.id)
  | .supersedeNodes items => items.map (·.id)
  | .mergeNodes merges => merges.map (·.duplicate)
  | .removeNodes ids => ids
  | .setStanding id _ => [id]
  | .createProposals raws => raws.flatMap fun raw => raw.proposal.targets ++ s.targetsAt raw.id
  | .resolveProposals resolutions => resolutions.flatMap fun r => s.targetsAt r.id
  | .withdrawProposals withdrawals => withdrawals.flatMap fun w => s.targetsAt w.id
  | _ => []

/-- An operation as the manifest sees it. -/
def GraphOperation.edit (s : GraphState rt) (op : GraphOperation rt) : StagedTransitionEdit where
  operation := some op.op
  nodeTypes :=
    match op with
    | .createNodes nodes => some (nodes.map fun raw => raw.type.name)
    | _ => s.typesOf (op.touched s)
  nodeFields :=
    match op with
    | .updateNodes updates => some (updates.flatMap fun u => u.changes.keys)
    | _ => some []
  relations :=
    match op with
    | .createEdges edges =>
        some (edges.map (·.relation) ++
          (edges.filterMap NewEdge.writtenId).flatMap s.relationsAt)
    | .removeEdges ids => some (ids.flatMap s.relationsAt)
    | _ => some []

/-- Whether some trigger of a manifest could match an edit. -/
def couldTrigger (triggers : List TransitionTrigger) (edit : StagedTransitionEdit) : Bool :=
  (triggers.filter fun trigger => some trigger.operation = edit.operation).any fun trigger =>
    triggerCouldMatch trigger edit

/-- The operations the manifest answers for. A created node is new, a removed one is at no
guiding edge, and a retired node that the rule reads has to be Evidence. -/
def GraphOperation.Listed (s : GraphState rt) : GraphOperation rt → Prop
  | .createNodes raws => ∀ raw ∈ raws, raw.id ∉ s.nodes
  | .removeNodes ids =>
      ∀ e ∈ s.edges.values, e.guides = true → e.source ∉ ids ∧ e.target ∉ ids
  | .supersedeNodes items =>
      (∀ i ∈ items, s.nodeType? i.id ≠ some .decision ∧ s.nodeType? i.id ≠ some .blocker) ∧
        ∀ i ∈ items, ∀ e, i.edge? 0 = some e → ∀ old, s.edges.get? e.id = some old →
          old.guides = false
  | .mergeNodes merges =>
      (∀ m ∈ merges, s.nodeType? m.duplicate ≠ some .decision ∧
        s.nodeType? m.duplicate ≠ some .blocker) ∧
        ∀ m ∈ merges, ∀ old,
          s.edges.get? (derivedEdgeId m.duplicate "duplicate_of" m.canonical) = some old →
            old.guides = false
  | _ => True

/-- Governing edges lead to Decisions. -/
def GraphState.GovernedByDecisions (s : GraphState rt) : Prop :=
  ∀ e ∈ s.edges.values, e.relation = "governed_by" →
    ∀ n, s.nodes.get? e.target = some n → n.type = .decision

section Steps

variable {s u t : GraphState rt}

/-- A rewritten node keeps the view when the rule does not read what was written. -/
theorem GuidingAlike.rewrite (h : GuidingAlike s u) (id : String) (n m : ProjectNode rt)
    (hn : u.nodes.get? id = some n) (htype : m.type = n.type)
    (hfields : n.type.isGuiding → ∀ f ∈ guidingFields, m.field? f = n.field? f)
    (hnodes : t.nodes = u.nodes.insert id m)
    (hedges : t.edges.filter (fun _ e => e.guides) = u.edges.filter fun _ e => e.guides)
    (hproposals : t.proposals = u.proposals) : GuidingAlike s t where
  types x _ := by
    rw [← h.types x trivial, GraphState.nodeType?, GraphState.nodeType?, hnodes, Dict.get?_insert]
    by_cases hx : x = id
    · rw [if_pos hx, hx, hn, Option.map_some, Option.map_some, htype]
    · rw [if_neg hx]
  edges := hedges.trans h.edges
  fields x n₀ m₀ _ hn₀ hm₀ hguiding f hf := by
    rw [hnodes, Dict.get?_insert] at hm₀
    by_cases hx : x = id
    · rw [if_pos hx] at hm₀
      cases hm₀
      subst hx
      have hsame : n.type = n₀.type := by
        have := h.types x trivial
        rw [GraphState.nodeType?, GraphState.nodeType?, hn, hn₀] at this
        simpa using this
      rw [hfields (hsame ▸ hguiding) f hf]
      exact h.fields x n₀ n trivial hn₀ hn hguiding f hf
    · rw [if_neg hx] at hm₀
      exact h.fields x n₀ m₀ trivial hn₀ hm₀ hguiding f hf
  pending e he hrelation := by
    rw [← h.pending e he hrelation, hasPendingProposal, hasPendingProposal, hproposals]

/-- Steps that leave the nodes alone. -/
theorem GuidingAlike.beside (h : GuidingAlike s u) (hnodes : t.nodes = u.nodes)
    (hedges : t.edges.filter (fun _ e => e.guides) = u.edges.filter fun _ e => e.guides)
    (hpending : ∀ e ∈ s.edges.values, e.relation = "governed_by" →
      hasPendingProposal t e.target = hasPendingProposal u e.target) : GuidingAlike s t where
  types x _ := by
    rw [← h.types x trivial, GraphState.nodeType?, GraphState.nodeType?, hnodes]
  edges := hedges.trans h.edges
  fields x n m _ hn hm hguiding f hf := h.fields x n m trivial hn (hnodes ▸ hm) hguiding f hf
  pending e he hrelation := (hpending e he hrelation).trans (h.pending e he hrelation)

theorem GuidingAlike.unseen (h : GuidingAlike s u) (hnodes : t.nodes = u.nodes)
    (hedges : t.edges = u.edges) (hproposals : t.proposals = u.proposals) : GuidingAlike s t :=
  h.beside hnodes (by rw [hedges]) fun e _ _ => by
    rw [hasPendingProposal, hasPendingProposal, hproposals]

/-- An update that writes no guiding field, or a node the rule does not read. -/
theorem GuidingAlike.updateNode (h : GuidingAlike s u) (hu : u.Keyed) (p : Patch rt)
    (generated : Bool) (up : NodeUpdate)
    (hquiet : (∀ type, s.nodeType? up.id = some type → type.isGuiding = false) ∨
      ∀ f ∈ guidingFields, f ∉ up.changes.keys)
    (hstep : updateNode p generated up u = .ok t) : GuidingAlike s t := by
  obtain ⟨n, m, hn, -, hm, rfl⟩ := updateNode_ok p generated up u t hstep
  obtain ⟨-, hid, htype, -⟩ := ProjectNode.revise_ok _ _ _ _ _ _ hm
  have hkey := hu up.id n hn
  refine h.rewrite up.id n m hn htype (fun hguiding f hf => ?_) (by simp [hkey]) (by simp)
    (by simp)
  rcases hquiet with hquiet | hquiet
  · have hold : s.nodeType? up.id = some n.type := by
      rw [← h.types _ trivial, GraphState.nodeType?, hn]
      rfl
    rw [hquiet n.type hold] at hguiding
    cases hguiding
  · refine ProjectNode.field?_revise n m _ _ _ _ hm f (hquiet f hf) fun hceiling => ?_
    subst hceiling
    exact absurd hf (by decide)

theorem GuidingAlike.retireNode (h : GuidingAlike s u) (p : Patch rt) (id : String)
    (cause : Option BeliefCause)
    (hquiet : ∀ type, s.nodeType? id = some type → type.isGuiding = false)
    (hstep : retireNode p id cause u = .ok t) :
    GuidingAlike s t ∧ t.edges = u.edges ∧ t.proposals = u.proposals := by
  obtain ⟨n, m, hn, hm, rfl⟩ := retireNode_ok p id cause u t hstep
  obtain ⟨-, -, htype, -⟩ := ProjectNode.revise_ok _ _ _ _ _ _ hm
  refine ⟨h.rewrite id n m hn htype (fun hguiding => ?_) (by simp) (by simp) (by simp), by simp,
    by simp⟩
  have hold : s.nodeType? id = some n.type := by
    rw [← h.types _ trivial, GraphState.nodeType?, hn]
    rfl
  rw [hquiet n.type hold] at hguiding
  cases hguiding

/-- An edge outside the rule's relations, over none of its edges. -/
theorem GuidingAlike.addEdge (h : GuidingAlike s u) (e : Edge) (hnew : e.guides = false)
    (hold : ∀ old, s.edges.get? e.id = some old → old.guides = false) :
    GuidingAlike s (addEdge e u) := by
  refine h.beside rfl (Dict.filter_insert _ _ _ _ hnew fun old hget => ?_) fun _ _ _ => rfl
  by_contra hguides
  -- A guiding edge of the graph at hand is one of the first graph.
  have hin : (u.edges.filter fun _ e => e.guides).get? e.id = some old := by
    rw [Dict.get?_filter, hget, Option.filter_some, if_pos (by simpa using hguides)]
  rw [h.edges, Dict.get?_filter, Option.filter_eq_some_iff] at hin
  exact hguides (hold old hin.1)

end Steps

section Pending

/-- The Proposals that name a node decide whether one of them is pending. -/
theorem hasPendingProposal_filter (s : GraphState rt) (id : String) :
    hasPendingProposal s id =
      (s.proposals.filter fun _ q => decide (id ∈ q.targets)).values.any fun q =>
        decide (q.status = .pending) := by
  rw [Dict.values_filter, List.any_filter, hasPendingProposal]
  refine congrArg (List.any s.proposals.values) ?_
  funext q
  rw [Bool.and_comm]
  refine congrArg (· && _) ?_
  rw [Bool.eq_iff_iff]
  simp [Proposal.targets]

/-- Storing a Proposal that does not name a node, over none that does. -/
theorem namers_insert (d : Dict String (Proposal rt)) (id key : String) (q : Proposal rt)
    (hnew : id ∉ q.targets) (hold : ∀ q', d.get? key = some q' → id ∉ q'.targets) :
    (d.insert key q).filter (fun _ q => decide (id ∈ q.targets)) =
      d.filter fun _ q => decide (id ∈ q.targets) :=
  Dict.filter_insert d _ key q (by simpa using hnew) fun q' hq' => by simpa using hold q' hq'

/-- A Proposal stored over one that does not name a node moves no pending Proposal over it. -/
theorem pending_insert {s u t : GraphState rt} (id key : String) (q : Proposal rt)
    (hproposals : t.proposals = u.proposals.insert key q) (hnew : id ∉ q.targets)
    (hsame : u.proposals.filter (fun _ q => decide (id ∈ q.targets)) =
      s.proposals.filter fun _ q => decide (id ∈ q.targets))
    (hold : id ∉ s.targetsAt key) :
    t.proposals.filter (fun _ q => decide (id ∈ q.targets)) =
      s.proposals.filter fun _ q => decide (id ∈ q.targets) := by
  rw [hproposals, namers_insert _ id key q hnew, hsame]
  intro q' hq' hin
  have hstored : (s.proposals.filter fun _ q => decide (id ∈ q.targets)).get? key = some q' := by
    rw [← hsame, Dict.get?_filter, hq', Option.filter_some, if_pos (by simpa using hin)]
  rw [Dict.get?_filter, Option.filter_eq_some_iff] at hstored
  refine hold ?_
  rw [GraphState.targetsAt, hstored.1]
  simpa using hin

end Pending

section Unmatched

variable (s : GraphState rt)

theorem typesOf_some (ids types : List String) (h : s.typesOf ids = some types) (id : String)
    (hid : id ∈ ids) : ∃ n, s.nodes.get? id = some n ∧ n.type.name ∈ types := by
  unfold GraphState.typesOf at h
  split at h
  next hall =>
    cases h
    have hmem := List.all_eq_true.mp hall id hid
    obtain ⟨n, hn⟩ := (Dict.mem_iff_exists _ _).mp (of_decide_eq_true hmem)
    refine ⟨n, hn, List.mem_filterMap.mpr ⟨id, hid, ?_⟩⟩
    rw [GraphState.nodeType?, hn]
    rfl
  next => cases h

/-- Touched nodes whose tags no trigger type is among have another type. -/
theorem not_touched (ids triggerTypes : List String)
    (h : dimensionCannotMatch triggerTypes (s.typesOf ids) = true) (id : String) (hid : id ∈ ids) :
    ∃ n, s.nodes.get? id = some n ∧ n.type.name ∉ triggerTypes := by
  unfold dimensionCannotMatch at h
  split at h
  next => cases h
  next types htypes =>
    obtain ⟨n, hn, hin⟩ := typesOf_some s ids types htypes id hid
    rw [Bool.and_eq_true, List.all_eq_true] at h
    exact ⟨n, hn, fun hmem => of_decide_eq_true (h.2 _ hmem) hin⟩

theorem not_tagged (values tags : List String)
    (h : dimensionCannotMatch values (some tags) = true) : ∀ v ∈ values, v ∉ tags := by
  rw [dimensionCannotMatch, Bool.and_eq_true, List.all_eq_true] at h
  exact fun v hv => of_decide_eq_true (h.2 v hv)

/-- A trigger of the manifest for the operation cannot match it. -/
theorem cannot_match (triggers : List TransitionTrigger) (edit : StagedTransitionEdit)
    (h : couldTrigger triggers edit = false) (trigger : TransitionTrigger) (hin : trigger ∈ triggers)
    (hop : edit.operation = some trigger.operation) :
    dimensionCannotMatch trigger.nodeTypes edit.nodeTypes = true ∨
      dimensionCannotMatch trigger.nodeFields edit.nodeFields = true ∨
      dimensionCannotMatch trigger.relations edit.relations = true := by
  have hno := List.any_eq_false.mp h trigger (List.mem_filter.mpr ⟨hin, by simp [hop]⟩)
  grind [triggerCouldMatch]

theorem dimension_nil (edits : Option (List String)) : dimensionCannotMatch [] edits = false := by
  cases edits <;> rfl

end Unmatched

section Operations

variable {s t : GraphState rt}

/-- What a trigger of node types alone says of the touched nodes. -/
theorem untouched_types (op : GraphOperation rt) (name : String) (types : List String)
    (hname : op.op = name)
    (htrigger : ({ operation := name, nodeTypes := types } : TransitionTrigger) ∈ guidanceTriggers)
    (hno : couldTrigger guidanceTriggers (op.edit s) = false)
    (htypes : (op.edit s).nodeTypes = s.typesOf (op.touched s)) (id : String)
    (hid : id ∈ op.touched s) : ∃ n, s.nodes.get? id = some n ∧ n.type.name ∉ types := by
  have hcannot := cannot_match guidanceTriggers (op.edit s) hno _ htrigger (congrArg some hname)
  simp only [dimension_nil, Bool.false_eq_true, or_false, htypes] at hcannot
  exact not_touched s _ _ hcannot id hid

/-- What a trigger of relations alone says of the written and replaced edges. -/
theorem untouched_relations (op : GraphOperation rt) (name : String) (relations : List String)
    (hname : op.op = name)
    (htrigger : ({ operation := name, relations := relations } : TransitionTrigger) ∈
      guidanceTriggers)
    (hno : couldTrigger guidanceTriggers (op.edit s) = false) (tags : List String)
    (htags : (op.edit s).relations = some tags) : ∀ r ∈ relations, r ∉ tags := by
  have hcannot := cannot_match guidanceTriggers (op.edit s) hno _ htrigger (congrArg some hname)
  simp only [dimension_nil, Bool.false_eq_true, false_or, htags] at hcannot
  exact not_tagged _ _ hcannot

/-- Proposals that are filed or settled without being over a Decision leave every governing
Decision's pending Proposals as they are. -/
theorem pending_of_untouched (hgoverned : s.GovernedByDecisions) (ids : List String)
    (huntouched : ∀ id ∈ ids, ∃ n, s.nodes.get? id = some n ∧ n.type.name ∉ ["decision"])
    (e : Edge) (he : e ∈ s.edges.values) (hrelation : e.relation = "governed_by") :
    e.target ∉ ids := by
  intro hin
  obtain ⟨n, hn, htype⟩ := huntouched _ hin
  rw [hgoverned e he hrelation n hn] at htype
  exact htype (by decide)

/-- A step that settles a stored Proposal. -/
def ClosesProposal (id : String) (u v : GraphState rt) : Prop :=
  ∃ q q', u.proposals.get? id = some q ∧ v.proposals = u.proposals.insert q.id q' ∧
    q'.id = q.id ∧ q'.ops = q.ops

theorem resolveProposal_rewrites (p : Patch rt) (r : ProposalResolution) (u v : GraphState rt)
    (h : resolveProposal p r u = .ok v) : ClosesProposal r.id u v := by
  simp only [resolveProposal, bind, Except.bind, pure, Except.pure] at h
  cases hq : proposalAt u r.id with
  | error e => simp [hq] at h
  | ok q =>
      simp only [hq, Except.ok.injEq] at h
      rw [← h]
      exact ⟨q, _, (proposalAt_ok u r.id q).mp hq, rfl, rfl, rfl⟩

theorem withdrawProposal_rewrites (p : Patch rt) (w : ProposalWithdrawal) (u v : GraphState rt)
    (h : withdrawProposal p w u = .ok v) : ClosesProposal w.id u v := by
  simp only [withdrawProposal, bind, Except.bind, pure, Except.pure] at h
  cases hq : proposalAt u w.id with
  | error e => simp [hq] at h
  | ok q =>
      simp only [hq, Except.ok.injEq] at h
      rw [← h]
      exact ⟨q, _, (proposalAt_ok u w.id q).mp hq, rfl, rfl, rfl⟩

theorem ClosesProposal.keyed {id : String} {u v : GraphState rt} (h : ClosesProposal id u v)
    (hu : u.ProposalsKeyed) : v.ProposalsKeyed := by
  obtain ⟨q, q', hq, hv, hid, -⟩ := h
  intro x r hr
  rw [hv, Dict.get?_insert] at hr
  split at hr
  next hx =>
    cases hr
    rw [hid, hx]
  next => exact hu x r hr

/-- A run of settlements, seen from a node that none of the settled Proposals names. -/
theorem pending_settled {α : Type} (hkeyed : s.ProposalsKeyed)
    (f : α → GraphState rt → Except String (GraphState rt)) (as : List α) (id : String)
    (key : α → String) (step : ∀ a u v, f a u = .ok v → ClosesProposal (key a) u v)
    (hold : ∀ a ∈ as, id ∉ s.targetsAt (key a)) (h : Steps.run f as s = .ok t) :
    t.proposals.filter (fun _ q => decide (id ∈ q.targets)) =
      s.proposals.filter fun _ q => decide (id ∈ q.targets) := by
  have hrun := Steps.run_invariant f (fun u : GraphState rt => u.ProposalsKeyed ∧
    u.proposals.filter (fun _ q => decide (id ∈ q.targets)) =
      s.proposals.filter fun _ q => decide (id ∈ q.targets)) as
    (fun a ha u v hu hf => ?_) s t ⟨hkeyed, rfl⟩ h
  · exact hrun.2
  · have hsettles := step a u v hf
    refine ⟨hsettles.keyed hu.1, ?_⟩
    obtain ⟨q, q', hq, hv, -, hops⟩ := hsettles
    rw [hu.1 _ q hq] at hv
    refine pending_insert id (key a) q' hv (fun hin => ?_) hu.2 (hold a ha)
    -- The settled Proposal names what it named, and it would be one of the first graph.
    have hstored : (s.proposals.filter fun _ q => decide (id ∈ q.targets)).get? (key a) =
        some q := by
      rw [← hu.2, Dict.get?_filter, hq, Option.filter_some, if_pos]
      rw [Proposal.targets, hops] at hin
      simpa [Proposal.targets] using hin
    rw [Dict.get?_filter, Option.filter_eq_some_iff] at hstored
    refine hold a ha ?_
    rw [GraphState.targetsAt, hstored.1]
    simpa [Proposal.targets, hops] using hin

theorem untouched_update (updates : List NodeUpdate)
    (hno : couldTrigger guidanceTriggers ((GraphOperation.updateNodes updates).edit s) = false)
    (u : NodeUpdate) (hu : u ∈ updates) :
    (∀ type, s.nodeType? u.id = some type → type = .researchQuestion) ∨
      ∀ f ∈ ["status", "selected_option", "options", "current_summary", "next_action",
        "validity"], f ∉ u.changes.keys := by
  have hcannot := cannot_match guidanceTriggers _ hno
    { operation := "update_nodes"
      nodeTypes := ["blocker", "decision", "evidence", "experiment", "hypothesis"]
      nodeFields :=
        ["status", "selected_option", "options", "current_summary", "next_action", "validity"] }
    (by decide) rfl
  simp only [dimension_nil, Bool.false_eq_true, or_false] at hcannot
  rcases hcannot with htypes | hfields
  · left
    intro type htype
    obtain ⟨n, hn, hname⟩ := not_touched s _ _ htypes u.id (List.mem_map.mpr ⟨u, hu, rfl⟩)
    rw [GraphState.nodeType?, hn, Option.map_some, Option.some.injEq] at htype
    rw [htype] at hname
    revert hname
    cases type <;> decide
  · right
    intro f hf hin
    exact not_tagged _ _ hfields f hf (List.mem_flatMap.mpr ⟨u, hu, hin⟩)

/-- A step that writes only one Proposal. -/
theorem guidingAlike_of_proposals (hnodes : t.nodes = s.nodes) (hedges : t.edges = s.edges)
    (hpending : ∀ e ∈ s.edges.values, e.relation = "governed_by" →
      t.proposals.filter (fun _ q => decide (e.target ∈ q.targets)) =
        s.proposals.filter fun _ q => decide (e.target ∈ q.targets)) : GuidingAlike s t :=
  (GuidingAlike.refl s).beside hnodes (by rw [hedges]) fun e he hrelation => by
    rw [hasPendingProposal_filter, hasPendingProposal_filter, hpending e he hrelation]

/-- Retiring nodes that the rule does not read keeps its view, with the edges that say so. -/
theorem guidingAlike_of_retirements {α : Type} (p : Patch rt)
    (f : α → GraphState rt → Except String (GraphState rt)) (as : List α) (id : α → String)
    (cause : α → Option BeliefCause) (edge? : α → Option Edge)
    (step : ∀ a u v, f a u = .ok v → ∃ w, retireNode p (id a) (cause a) u = .ok w ∧
      v = match edge? a with
        | none => w
        | some e => addEdge e w)
    (hquiet : ∀ a ∈ as, ∀ type, s.nodeType? (id a) = some type → type.isGuiding = false)
    (hedges : ∀ a ∈ as, ∀ e, edge? a = some e → e.guides = false ∧
      ∀ old, s.edges.get? e.id = some old → old.guides = false)
    (h : Steps.run f as s = .ok t) : GuidingAlike s t := by
  refine Steps.run_invariant f (GuidingAlike s) as (fun a ha u v hu hf => ?_) s t
    (.refl s) h
  obtain ⟨w, hw, rfl⟩ := step a u v hf
  obtain ⟨hretired, -, -⟩ := hu.retireNode p (id a) (cause a) (hquiet a ha) hw
  cases he : edge? a with
  | none => exact hretired
  | some e => exact hretired.addEdge e (hedges a ha e he).1 (hedges a ha e he).2

theorem generatedEdge_guides (source relation target explanation : String) (revision : Nat)
    (h : relation ∉ guidingRelations) :
    (generatedEdge source relation target explanation revision).guides = false :=
  decide_eq_false h

/-- Types that are neither of the listed retirements nor Evidence are not read. -/
theorem not_guiding {type : NodeType} (hdecision : type ≠ .decision) (hblocker : type ≠ .blocker)
    (hevidence : type.name ∉ ["evidence"]) : type.isGuiding = false := by
  cases type with
  | decision => exact absurd rfl hdecision
  | blocker => exact absurd rfl hblocker
  | evidence => exact absurd (by decide) hevidence
  | _ => rfl

/-- An operation that no trigger could match keeps everything the guidance rule reads, when it
neither creates nor removes nodes. -/
theorem guidingAlike_of_unmatched (p : Patch rt) (generated : Bool) (op : GraphOperation rt)
    (hs : s.Keyed) (hkeyed : s.ProposalsKeyed) (hgoverned : s.GovernedByDecisions)
    (hlisted : op.Listed s) (hcreates : ∀ raws, op ≠ .createNodes raws)
    (hremoves : ∀ ids, op ≠ .removeNodes ids)
    (hno : couldTrigger guidanceTriggers (op.edit s) = false)
    (h : applyOp p generated op s = .ok t) : GuidingAlike s t := by
  cases op with
  | createNodes raws => exact absurd rfl (hcreates raws)
  | removeNodes ids => exact absurd rfl (hremoves ids)
  | updateNodes updates =>
      have key := Steps.run_invariant (updateNode p generated)
        (fun u : GraphState rt => u.Keyed ∧ GuidingAlike s u) updates
        (fun up hup u v hu hf => by
          refine ⟨(updateNode_rewrites p generated up u v hu.1 hf).1.keyed hu.1,
            hu.2.updateNode hu.1 p generated up ?_ hf⟩
          rcases untouched_update updates hno up hup with htypes | hfields
          · left
            intro type htype
            rw [htypes type htype]
            rfl
          · right
            intro f hf
            exact hfields f (by revert f; decide)) s t ⟨hs, .refl s⟩ h
      exact key.2
  | createEdges edges =>
      have htags := untouched_relations _ "create_edges" guidingRelations rfl (by decide) hno _ rfl
      refine Steps.run_invariant (createEdge p.revision) (GuidingAlike s) edges
        (fun raw hraw u v hu hf => ?_) s t (.refl s) h
      obtain ⟨id, declared, hid, -, rfl⟩ := createEdge_ok p.revision raw u v hf
      refine hu.addEdge _ (decide_eq_false fun hin => ?_) fun old hold =>
        decide_eq_false fun hin => ?_
      · exact htags _ hin (List.mem_append_left _ (List.mem_map.mpr ⟨raw, hraw, rfl⟩))
      · refine htags _ hin (List.mem_append_right _ (List.mem_flatMap.mpr ⟨id, ?_, ?_⟩))
        · exact List.mem_filterMap.mpr ⟨raw, hraw, hid⟩
        · rw [GraphState.relationsAt, show s.edges.get? id = some old from hold]
          exact List.mem_singleton_self _
  | removeEdges ids =>
      have htags := untouched_relations _ "remove_edges" guidingRelations rfl (by decide) hno _ rfl
      cases h
      refine (GuidingAlike.refl s).beside rfl ?_ fun _ _ _ => rfl
      have herased : ∀ (rest : List String) (d : Dict String Edge), (∀ id ∈ rest, id ∈ ids) →
          (∀ id old, d.get? id = some old → s.edges.get? id = some old) →
          (rest.foldl Dict.erase d).filter (fun _ e => e.guides) =
            d.filter fun _ e => e.guides := by
        intro rest
        induction rest with
        | nil => exact fun d _ _ => rfl
        | cons id rest ih =>
            intro d hrest hd
            rw [List.foldl_cons, ih _ (fun x hx => hrest x (List.mem_cons_of_mem _ hx))]
            · refine Dict.filter_erase d _ id fun old hold => decide_eq_false fun hin => ?_
              refine htags _ hin (List.mem_flatMap.mpr ⟨id, hrest id List.mem_cons_self, ?_⟩)
              rw [GraphState.relationsAt, hd id old hold]
              exact List.mem_singleton_self _
            · intro x old hx
              rw [Dict.get?_erase] at hx
              split at hx
              · cases hx
              · exact hd x old hx
      exact herased ids s.edges (fun _ h => h) fun _ _ h => h
  | supersedeNodes items =>
      obtain ⟨hretired, hfree⟩ := hlisted
      refine guidingAlike_of_retirements p (supersedeNode p) items (·.id) (·.cause)
        (·.edge? p.revision) (supersedeNode_ok p) (fun item hitem type htype => ?_)
        (fun item hitem e he => ?_) h
      · obtain ⟨n, hn, hname⟩ := untouched_types _ "supersede_nodes" ["evidence"] rfl (by decide)
          hno rfl item.id (List.mem_map.mpr ⟨item, hitem, rfl⟩)
        obtain ⟨hdecision, hblocker⟩ := hretired item hitem
        rw [GraphState.nodeType?, hn, Option.map_some, Option.some.injEq] at htype
        rw [GraphState.nodeType?, hn, Option.map_some] at hdecision hblocker
        subst htype
        exact not_guiding (fun h => hdecision (by rw [h])) (fun h => hblocker (by rw [h])) hname
      · obtain ⟨target, htarget, rfl⟩ := Option.map_eq_some_iff.mp he
        refine ⟨generatedEdge_guides _ _ _ _ _ (by decide), fun old hold => hfree item hitem
          (generatedEdge item.id "supersedes" target item.explanation 0) ?_ old hold⟩
        rw [SupersedeNode.edge?, htarget]
        rfl
  | mergeNodes merges =>
      obtain ⟨hretired, hfree⟩ := hlisted
      refine guidingAlike_of_retirements p (mergeNode p) merges (·.duplicate) (·.cause)
        (fun m => some (generatedEdge m.duplicate "duplicate_of" m.canonical m.explanation
          p.revision)) (mergeNode_ok p) (fun m hm type htype => ?_) (fun m hm e he => ?_) h
      · obtain ⟨n, hn, hname⟩ := untouched_types _ "merge_nodes" ["evidence"] rfl (by decide)
          hno rfl m.duplicate (List.mem_map.mpr ⟨m, hm, rfl⟩)
        obtain ⟨hdecision, hblocker⟩ := hretired m hm
        rw [GraphState.nodeType?, hn, Option.map_some, Option.some.injEq] at htype
        rw [GraphState.nodeType?, hn, Option.map_some] at hdecision hblocker
        subst htype
        exact not_guiding (fun h => hdecision (by rw [h])) (fun h => hblocker (by rw [h])) hname
      · cases he
        exact ⟨generatedEdge_guides _ _ _ _ _ (by decide), hfree m hm⟩
  | createProposals raws =>
      have huntouched := untouched_types _ "create_proposals" ["decision"] rfl (by decide) hno rfl
      have hnodes := nodes_applyOp_other p generated _ rfl s t h
      have hedges := edges_applyOp_other p generated _ rfl s t hs h
      refine guidingAlike_of_proposals hnodes hedges fun e he hrelation => ?_
      have hfree := pending_of_untouched hgoverned _ huntouched e he hrelation
      cases h
      have hrun : ∀ (rest : List (NewProposal rt)) (u : GraphState rt), (∀ r ∈ rest, r ∈ raws) →
          u.proposals.filter (fun _ q => decide (e.target ∈ q.targets)) =
            s.proposals.filter (fun _ q => decide (e.target ∈ q.targets)) →
          (rest.foldl (fun s raw => createProposal p raw s) u).proposals.filter
              (fun _ q => decide (e.target ∈ q.targets)) =
            s.proposals.filter fun _ q => decide (e.target ∈ q.targets) := by
        intro rest
        induction rest with
        | nil => exact fun u _ hu => hu
        | cons raw rest ih =>
            intro u hrest hu
            have hraw := hrest raw List.mem_cons_self
            refine ih _ (fun r hr => hrest r (List.mem_cons_of_mem _ hr)) ?_
            refine pending_insert e.target raw.id _ rfl (fun hin => hfree ?_) hu fun hin => hfree ?_
            · exact List.mem_flatMap.mpr ⟨raw, hraw, List.mem_append_left _ hin⟩
            · exact List.mem_flatMap.mpr ⟨raw, hraw, List.mem_append_right _ hin⟩
      exact hrun raws s (fun _ h => h) rfl
  | resolveProposals resolutions =>
      have huntouched := untouched_types _ "resolve_proposals" ["decision"] rfl (by decide) hno rfl
      refine guidingAlike_of_proposals (nodes_applyOp_other p generated _ rfl s t h)
        (edges_applyOp_other p generated _ rfl s t hs h) fun e he hrelation => ?_
      have hfree := pending_of_untouched hgoverned _ huntouched e he hrelation
      exact pending_settled hkeyed (resolveProposal p) resolutions e.target (·.id)
        (resolveProposal_rewrites p)
        (fun r hr hin => hfree (List.mem_flatMap.mpr ⟨r, hr, hin⟩)) h
  | withdrawProposals withdrawals =>
      have huntouched := untouched_types _ "withdraw_proposals" ["decision"] rfl (by decide) hno rfl
      refine guidingAlike_of_proposals (nodes_applyOp_other p generated _ rfl s t h)
        (edges_applyOp_other p generated _ rfl s t hs h) fun e he hrelation => ?_
      have hfree := pending_of_untouched hgoverned _ huntouched e he hrelation
      exact pending_settled hkeyed (withdrawProposal p) withdrawals e.target (·.id)
        (withdrawProposal_rewrites p)
        (fun w hw hin => hfree (List.mem_flatMap.mpr ⟨w, hw, hin⟩)) h
  | setStanding id standing =>
      obtain ⟨n, hn, rfl⟩ := setStanding_ok p.revision id standing s t h
      have hkey := hs id n hn
      exact (GuidingAlike.refl s).rewrite id n (n.withStanding standing p.revision) hn rfl
        (fun _ _ _ => rfl) (by simp [hkey]) rfl rfl
  | resolveAmbiguities rs =>
      have hproposals := Steps.run_constant resolveAmbiguity (·.proposals) rs (fun r _ u v hf => by
        obtain ⟨as, rfl⟩ := resolveAmbiguity_ok r u v hf
        rfl) s t h
      exact (GuidingAlike.refl s).unseen (nodes_applyOp_other p generated _ rfl s t h)
        (edges_applyOp_other p generated _ rfl s t hs h) hproposals
  | createAmbiguities as =>
      have hnodes := nodes_applyOp_other p generated _ rfl s t h
      have hedges := edges_applyOp_other p generated _ rfl s t hs h
      cases h
      exact (GuidingAlike.refl s).unseen hnodes hedges
        (foldl_constant (createAmbiguity p.revision) (·.proposals) (fun _ _ => rfl) as s)
  | upsertGlossary terms =>
      have hnodes := nodes_applyOp_other p generated _ rfl s t h
      have hedges := edges_applyOp_other p generated _ rfl s t hs h
      cases h
      exact (GuidingAlike.refl s).unseen hnodes hedges
        (foldl_constant (upsertTerm p.revision) (·.proposals) (fun _ _ => rfl) terms s)
  | setCoverage _ | setProjectTruthScope _ _ | setOntology _ =>
      cases h
      exact (GuidingAlike.refl s).unseen rfl rfl rfl

/-- New nodes are on no guiding edge of a graph whose edges lead to its nodes. -/
theorem guidingOn_of_created (revision : Nat) (raws : List (RawNode rt))
    (hfresh : ∀ raw ∈ raws, raw.id ∉ s.nodes) :
    GuidingOn (· ∈ s.nodes) s (raws.foldl (fun s raw => createNode revision raw s) s) := by
  have hget : ∀ x, x ∈ s.nodes →
      (raws.foldl (fun s raw => createNode revision raw s) s).nodes.get? x = s.nodes.get? x := by
    intro x hx
    have hnone : raws.reverse.find? (fun raw => raw.id = x) = none := by
      rw [List.find?_eq_none]
      intro raw hraw hid
      exact hfresh raw (List.mem_reverse.mp hraw) ((of_decide_eq_true hid) ▸ hx)
    rw [get?_createNodes, hnone]
  have hedges := foldl_constant (createNode revision) (·.edges) (fun _ _ => rfl) raws s
  have hproposals := foldl_constant (createNode revision) (·.proposals) (fun _ _ => rfl) raws s
  refine ⟨fun x hx => ?_, ?_, fun x n m hx hn hm _ f _ => ?_, fun e _ _ => ?_⟩
  · rw [GraphState.nodeType?, GraphState.nodeType?, hget x hx]
  · exact congrArg (fun edges => Dict.filter edges fun _ e => e.guides) hedges
  · rw [hget x hx, hn] at hm
    cases hm
    rfl
  · rw [hasPendingProposal, hasPendingProposal, hproposals]

/-- Nodes that no guiding edge touches are removed behind the rule's back. -/
theorem guidingOn_of_removed (ids : List String)
    (hfree : ∀ e ∈ s.edges.values, e.guides = true → e.source ∉ ids ∧ e.target ∉ ids) :
    GuidingOn (· ∉ ids) s (removeNodes ids s) where
  types x hx := by
    rw [GraphState.nodeType?, GraphState.nodeType?, removeNodes, Dict.get?_filter]
    cases s.nodes.get? x <;> simp [hx]
  edges := by
    refine Dict.ext ?_
    simp only [removeNodes, Dict.filter, List.filter_filter]
    refine List.filter_congr fun e he => ?_
    cases hguides : e.2.guides with
    | false => rfl
    | true =>
        obtain ⟨hsource, htarget⟩ := hfree e.2 (List.mem_map.mpr ⟨e, he, rfl⟩) hguides
        simp [hsource, htarget]
  fields x n m hx hn hm _ f _ := by
    rw [removeNodes, Dict.get?_filter, hn] at hm
    simp only [hx, not_false_eq_true, decide_true, Option.filter_some, if_true] at hm
    cases hm
    rfl
  pending _ _ _ := rfl

/-- An operation that no trigger could match moves no signature. -/
theorem signature_of_unmatched (p : Patch rt) (generated : Bool) (op : GraphOperation rt)
    (hs : s.Keyed) (hkeyed : s.ProposalsKeyed) (hgoverned : s.GovernedByDecisions)
    (hends : s.GuidesWithin (· ∈ s.nodes)) (hlisted : op.Listed s)
    (hno : couldTrigger guidanceTriggers (op.edit s) = false)
    (h : applyOp p generated op s = .ok t) (id : String)
    (hbefore : (s.typed? .experiment id).isSome = true)
    (hafter : (t.typed? .experiment id).isSome = true) :
    experimentDependencySignature t id = experimentDependencySignature s id := by
  have hid : ∀ g : GraphState rt, (g.typed? .experiment id).isSome = true → id ∈ g.nodes := by
    intro g hg
    obtain ⟨n, hn⟩ := Option.isSome_iff_exists.mp hg
    exact Dict.mem_of_get? ((typed?_iff g _ id n).mp hn).1
  cases op with
  | createNodes raws =>
      cases h
      exact (guidingOn_of_created p.revision raws hlisted).signature_on hends id (hid s hbefore)
  | removeNodes ids =>
      cases h
      refine (guidingOn_of_removed ids hlisted).signature_on hlisted id fun hin => ?_
      obtain ⟨n, hn⟩ := Option.isSome_iff_exists.mp hafter
      have hstays := ((typed?_iff _ _ id n).mp hn).1
      rw [removeNodes, Dict.get?_filter, Option.filter_eq_some_iff] at hstays
      simp [hin] at hstays
  | _ =>
      exact (guidingAlike_of_unmatched p generated _ hs hkeyed hgoverned hlisted
        (fun _ heq => by cases heq) (fun _ heq => by cases heq) hno h).signature id

end Operations

end RcpGraph
