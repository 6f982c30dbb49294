import RcpGraph.Graph.Decisions
import RcpGraph.Graph.Endpoints
import RcpGraph.Graph.Sketch

/-!
Staged and whole application. The transition manager applies the operations of a
request one at a time and compares the outcome with the combined patch applied
at once. The two paths run the same operations; they part only in the layer of
an edge that was written before its endpoints, and in the watermark.
-/

namespace RcpGraph

variable {rt : Runtime}

section Staged

theorem Exactly.eq {s t : GraphState rt} (h : Exactly s t) :
    s = { t with lastRefreshAt := s.lastRefreshAt } := by
  have he := h.alike.eq
  have hedges := h.edges
  cases s
  cases t
  simp only [GraphState.erased, GraphState.mk.injEq] at he hedges ⊢
  simp [he, hedges]

/-- Staging source operations one by one is applying them, the watermark aside. -/
theorem timeline_exactly (p : Patch rt) (actions : List (Patch rt × GraphOperation rt))
    (henv : ∀ a ∈ actions, a.1.applies = p.applies ∧ a.1.transition = none)
    (s final : GraphState rt) (hs : s.Keyed)
    (h : Steps.run (fun a s => applyValidOperation s a.1 a.2) actions s = .ok final) :
    ∃ u, Steps.run (applyOp p false) (actions.map Prod.snd) s = .ok u ∧ Exactly final u := by
  rw [Steps.run_map]
  obtain ⟨u, hu, hexact, -⟩ := Steps.run_related _ (fun a => applyOp p false (Prod.snd a))
    (fun s t : GraphState rt => Exactly s t ∧ s.Keyed) actions
    (fun a hmem s t s' ⟨hst, hs⟩ hs' => by
      obtain ⟨happ, hplain⟩ := henv a hmem
      obtain ⟨u, hu, hau, -⟩ := applyValidOperation_exactly s a.1 a.2 s' hs'
      have hgen : decide (0 ∈ a.1.generatedIndexes) = false := by
        simp [Patch.generatedIndexes, hplain]
      rw [hgen, applyOp_congr a.1 p happ] at hu
      obtain ⟨t', ht', hut⟩ := exactly_applyOp p false a.2 s t u hs hst hu
      refine ⟨t', ht', hau.trans hut, ?_⟩
      exact keyed_of_nodes s' u hau.alike.nodes (keyed_applyOp p false a.2 s u hs hu))
    s s final ⟨.refl s, hs⟩ h
  exact ⟨u, hu, hexact⟩

theorem generated_exactly (first p : Patch rt) (happ : first.applies = p.applies)
    (ops : List (GraphOperation rt × Nat)) (s t final : GraphState rt) (hst : Exactly s t)
    (hs : s.Keyed)
    (h : Steps.run (fun (g : GraphOperation rt × Nat) s =>
      applyTransitionGeneratedOperation s first g.1) ops s = .ok final) :
    ∃ u, Steps.run (applyOp p true) (ops.map Prod.fst) t = .ok u ∧ Exactly final u := by
  rw [Steps.run_map]
  obtain ⟨u, hu, hexact, -⟩ := Steps.run_related _ (fun g => applyOp p true (Prod.fst g))
    (fun s t : GraphState rt => Exactly s t ∧ s.Keyed) ops
    (fun g _ s t s' ⟨hst, hs⟩ hs' => by
      obtain ⟨u, hu, hau, -⟩ := applyTransitionGeneratedOperation_exactly s first g.1 s' hs'
      rw [applyOp_congr first p happ] at hu
      obtain ⟨t', ht', hut⟩ := exactly_applyOp p true g.1 s t u hs hst hu
      refine ⟨t', ht', hau.trans hut, ?_⟩
      exact keyed_of_nodes s' u hau.alike.nodes (keyed_applyOp p true g.1 s u hs hu))
    s t final ⟨hst, hs⟩ h
  exact ⟨u, hu, hexact⟩

/-- The watermark of steps that each stamp it. -/
theorem watermark_run {α : Type} (f : α → GraphState rt → Except String (GraphState rt))
    (patch : α → Patch rt) (as : List α)
    (step : ∀ a s t, f a s = .ok t → t.lastRefreshAt = (patch a).watermark s.lastRefreshAt)
    (s t : GraphState rt) (h : Steps.run f as s = .ok t) :
    t.lastRefreshAt = as.foldl (fun last a => (patch a).watermark last) s.lastRefreshAt := by
  induction as generalizing s with
  | nil =>
      cases h
      rfl
  | cons a as ih =>
      obtain ⟨u, hu, hrest⟩ := (Steps.run_cons_ok f a as s t).mp h
      rw [List.foldl_cons, ← step a s u hu]
      exact ih u hrest

def Patch.Ingests (p : Patch rt) : Prop := p.kind = .seed ∨ p.kind = .refresh

instance (p : Patch rt) : Decidable p.Ingests := inferInstanceAs (Decidable (_ ∨ _))

/-- The patch whose stamp is the last one: of the last operation, or of the request. -/
theorem watermark_fold {α : Type} (patch : α → Patch rt) (as : List α)
    (kind : PatchKind) (hkind : ∀ a ∈ as, (patch a).kind = kind) (last : Option String) :
    as.foldl (fun last a => (patch a).watermark last) last =
      if kind = .seed ∨ kind = .refresh then
        (as.getLast?.map fun a => (patch a).createdAt).or last
      else last := by
  induction as generalizing last with
  | nil => simp
  | cons a as ih =>
      rw [List.foldl_cons, ih fun b hb => hkind b (List.mem_cons_of_mem a hb), Patch.watermark,
        hkind a List.mem_cons_self]
      split
      · cases as with
        | nil => rfl
        | cons b bs =>
            rw [List.getLast?_cons_cons]
            cases h : (b :: bs).getLast? with
            | none => simp at h
            | some c => rfl
      · rfl

/-- Marks on guidance do not read the revision of the graph. -/
theorem updateNode_revision (p : Patch rt) (generated : Bool) (u : NodeUpdate) (r : Nat)
    (s t : GraphState rt) (h : updateNode p generated u s = .ok t) :
    updateNode p generated u { s with revision := r } = .ok { t with revision := r } := by
  simp only [updateNode, nodeAt, bind, Except.bind, pure, Except.pure] at h ⊢
  cases hn : s.nodes.get? u.id with
  | none => simp [hn] at h
  | some n =>
      simp only [hn] at h ⊢
      split at h
      next => cases h
      next hf =>
        rw [if_neg hf]
        cases hm : n.revise p.coercions u.changes p.revision
            (if p.kind = .approval then n.standing else .asserted) with
        | error e => simp [hm] at h
        | ok m =>
            simp only [hm, Except.ok.injEq] at h ⊢
            rw [← h]
            unfold recordBeliefTransition
            cases u.cause with
            | none => rfl
            | some c =>
                simp only
                split <;> rfl

theorem marks_revision (p : Patch rt) (ops : List (GraphOperation rt)) (w : GraphState rt)
    (hmarks : ∀ op ∈ ops, op.MarksGuidance w) (r : Nat) (s t : GraphState rt)
    (h : Steps.run (applyOp p true) ops s = .ok t) :
    Steps.run (applyOp p true) ops { s with revision := r } = .ok { t with revision := r } := by
  induction ops generalizing s with
  | nil =>
      cases h
      rfl
  | cons op ops ih =>
      obtain ⟨u, hu, hrest⟩ := (Steps.run_cons_ok _ op ops s t).mp h
      refine (Steps.run_cons_ok _ op ops _ _).mpr ⟨{ u with revision := r }, ?_, ?_⟩
      · obtain ⟨v, rfl, -⟩ := hmarks op List.mem_cons_self
        obtain ⟨u', hu', hnil⟩ := (Steps.run_cons_ok _ v [] s u).mp hu
        cases hnil
        exact (Steps.run_cons_ok _ v [] _ _).mpr ⟨_, updateNode_revision p true v r s u hu', rfl⟩
      · exact ih (fun op' hop' => hmarks op' (List.mem_cons_of_mem op hop')) u hrest

theorem marks_ontology (p : Patch rt) (ops : List (GraphOperation rt)) (w : GraphState rt)
    (hmarks : ∀ op ∈ ops, op.MarksGuidance w) (s t : GraphState rt)
    (h : Steps.run (applyOp p true) ops s = .ok t) : t.ontology = s.ontology := by
  refine Steps.run_constant _ (·.ontology) ops (fun op hop s t hst => ?_) s t h
  obtain ⟨u, rfl, -⟩ := hmarks op hop
  exact ontology_applyOp p true _ (fun _ h => by cases h) s t hst

end Staged

section Agreement

/-- `prepare_validated` up to the comparison: the staged run and the combined patch. -/
def stageRequest (s : GraphState rt) (first : Patch rt) (rest : List (Patch rt))
    (preHead : GraphHeadRef) (maxRuleFirings : Nat) :
    Except TransitionError (StagedTransition rt × Patch rt) := do
  checkRequest s first rest preHead
  let staged ← stageTransition s first rest maxRuleFirings
  let operations := (sourceActions (first :: rest)).map Prod.snd ++
    staged.generatedOps.map Prod.fst
  let combined ← combinedPatch first rest operations (staged.trace preHead (first :: rest))
  pure (staged, combined)

/-- The refusal of a combined patch that does not reproduce the staged run. -/
def equivalenceConflict : TransitionConflictDetail where
  invariant := "expanded operation replay equivalence"
  message := "Recorded expanded operations do not reproduce the prepared state."

theorem stageRequest_ok (s : GraphState rt) (first : Patch rt) (rest : List (Patch rt))
    (preHead : GraphHeadRef) (most : Nat) (staged : StagedTransition rt) (combined : Patch rt)
    (h : stageRequest s first rest preHead most = .ok (staged, combined)) :
    checkRequest s first rest preHead = .ok () ∧ stageTransition s first rest most = .ok staged ∧
      combinedPatch first rest
        ((sourceActions (first :: rest)).map Prod.snd ++ staged.generatedOps.map Prod.fst)
        (staged.trace preHead (first :: rest)) = .ok combined := by
  simp only [stageRequest, bind, Except.bind, pure, Except.pure] at h
  split at h
  next => cases h
  next hrequest =>
    split at h
    next => cases h
    next staged' hstaged =>
      split at h
      next => cases h
      next combined' hcombined =>
        cases h
        exact ⟨hrequest, hstaged, hcombined⟩

theorem prepareValidated_compares (s : GraphState rt) (first : Patch rt) (rest : List (Patch rt))
    (preHead : Option GraphHeadRef) (most : Nat) (staged : StagedTransition rt)
    (combined : Patch rt)
    (h : stageRequest s first rest (preHead.getD { revision := s.revision }) most =
      .ok (staged, combined)) (candidate : GraphState rt)
    (hc : applyValidPatch s combined = .ok candidate) :
    prepareValidated s (first :: rest) preHead most =
      if candidate.same staged.final then .ok ⟨combined, candidate⟩
      else .error (.conflict equivalenceConflict) := by
  obtain ⟨hrequest, hstaged, hcombined⟩ := stageRequest_ok s first rest _ most staged combined h
  simp only [prepareValidated, bind, Except.bind, pure, Except.pure, hrequest, hstaged, hcombined,
    hc]
  rfl

/-- Whether the guidance rule has an operation to add to a request. -/
def GuidanceFires (s : GraphState rt) (first : Patch rt) (rest : List (Patch rt)) : Prop :=
  ∃ initiating u, applyTimeline 0 (sourceActions (first :: rest)) s = .ok (initiating, u) ∧
    guidanceActions { u with revision := first.revision } initiating
      ((sourceActions (first :: rest)).map Prod.snd) ≠ []

/-- A request of ingestion patches whose last patch has the time of the first one, unless
the rule's operations stamp that time anyway. -/
def KeepsWatermark (s : GraphState rt) (first : Patch rt) (rest : List (Patch rt)) : Prop :=
  ¬first.Ingests ∨
    ((first :: rest).getLast (List.cons_ne_nil _ _)).createdAt = first.createdAt ∨
    GuidanceFires s first rest

theorem same_fields (v : GraphState rt) (r : Nat) (edges : Dict String Edge)
    (a b : Option String) :
    ({ v with revision := r, edges := edges, lastRefreshAt := a } : GraphState rt).same
        { v with revision := r, lastRefreshAt := b } = true ↔
      (∀ id, edges.get? id = v.edges.get? id) ∧ a = b := by
  simp [GraphState.same, Dict.same_self, Dict.same_iff]

/-- The last operation of a request belongs to its last patch. -/
theorem getLast?_sourceActions (patches : List (Patch rt)) (h : ∀ p ∈ patches, p.ops ≠ []) :
    ((sourceActions patches).getLast?.map fun a => a.1.createdAt) =
      patches.getLast?.map (·.createdAt) := by
  induction patches with
  | nil => rfl
  | cons p patches ih =>
      have ih := ih fun q hq => h q (List.mem_cons_of_mem p hq)
      have hsplit : sourceActions (p :: patches) =
          p.ops.map (fun op => (p, op)) ++ sourceActions patches := rfl
      rw [hsplit, List.getLast?_append]
      cases patches with
      | nil =>
          obtain ⟨op, hop⟩ := List.getLast?_isSome.mpr (h p List.mem_cons_self) |>
            Option.isSome_iff_exists.mp
          simp [sourceActions, hop]
      | cons q patches =>
          rw [List.getLast?_cons_cons, ← ih]
          cases hlast : (sourceActions (q :: patches)).getLast? with
          | none =>
              rw [hlast] at ih
              simp at ih
          | some a => rfl

/-- The watermark of the staged run is the one of the combined patch. -/
theorem watermark_agrees (s : GraphState rt) (first : Patch rt) (rest : List (Patch rt))
    (preHead : GraphHeadRef) (request : GoodRequest s first rest preHead) (most : Nat)
    (staged : StagedTransition rt) (h : stageTransition s first rest most = .ok staged) :
    first.watermark s.lastRefreshAt = staged.final.lastRefreshAt ↔ KeepsWatermark s first rest := by
  obtain ⟨w, hinitiating, hgenerated, hfinal⟩ := stageTransition_ok s first rest most staged h
  have hkinds : ∀ q ∈ first :: rest, q.kind = first.kind := by
    intro q hq
    exact congrArg (·.2.1) (request.envelope first rfl q hq).1
  have hw := watermark_run _ (fun a : Patch rt × GraphOperation rt => a.1) _
    (fun a s t hst => by
      obtain ⟨u, -, -, hlast⟩ := applyValidOperation_exactly s a.1 a.2 t hst
      exact hlast) s w (applyTimeline_ok _ _ _ _ _ hinitiating)
  have hv := watermark_run _ (fun _ : GraphOperation rt × Nat => first) _
    (fun g s t hst => by
      obtain ⟨u, -, -, hlast⟩ := applyTransitionGeneratedOperation_exactly s first g.1 t hst
      exact hlast) _ staged.final (applyGenerated_ok _ _ _ _ _ _ hfinal)
  rw [watermark_fold _ _ first.kind fun a ha => by
    obtain ⟨q, hq, hop⟩ := List.mem_flatMap.mp ha
    obtain ⟨op, -, rfl⟩ := List.mem_map.mp hop
    exact hkinds q hq, getLast?_sourceActions _ request.nonempty] at hw
  rw [watermark_fold _ _ first.kind fun _ _ => rfl] at hv
  change _ = if _ then _ else w.lastRefreshAt at hv
  rw [hv, hw, Patch.watermark, KeepsWatermark, Patch.Ingests]
  by_cases hi : first.kind = .seed ∨ first.kind = .refresh
  · simp only [hi, if_true, not_true_eq_false, false_or]
    rw [List.getLast?_eq_some_getLast (List.cons_ne_nil first rest)]
    cases hlast : staged.generatedOps.getLast? with
    | some g =>
        have hfires : GuidanceFires s first rest := by
          refine ⟨staged.initiating, w, hinitiating, fun hnil => ?_⟩
          rw [hgenerated, hnil] at hlast
          cases hlast
        simp [hfires]
    | none =>
        have hquiet : ¬GuidanceFires s first rest := by
          rintro ⟨initiating, u, htimeline, hfires⟩
          rw [hinitiating] at htimeline
          cases htimeline
          rw [← hgenerated] at hfires
          exact hfires (List.getLast?_eq_none_iff.mp hlast)
        simp only [hquiet, or_false, Option.map_none, Option.none_or, Option.map_some,
          Option.some_or, Option.some.injEq]
        exact eq_comm
  · simp [hi]

/-- Staged and whole application of an admitted request agree exactly when no edge written
before its endpoints gets another layer from them and the watermark is kept; otherwise
the transition ends in the equivalence conflict. -/
theorem staged_agrees_iff (project : Project rt) (s : GraphState rt)
    (hs : Reachable (fun _ _ => True) s) (revision : Nat) (raws : List (Patch rt))
    (sources : AdmittedSources rt) (first : Patch rt) (rest : List (Patch rt))
    (preHead : Option GraphHeadRef) (most : Nat) (staged : StagedTransition rt)
    (combined : Patch rt)
    (hgates : admitSources project s.revision revision raws s = .ok sources)
    (hsources : sources.patches = first :: rest)
    (hstage : stageRequest s first rest (preHead.getD { revision := s.revision }) most =
      .ok (staged, combined)) :
    ∃ candidate, applyValidPatch s combined = .ok candidate ∧
      (candidate.same staged.final = true ↔
        SettlesLayers s (sources.patches.flatMap (·.ops)) ∧ KeepsWatermark s first rest) ∧
      (prepareValidated s sources.patches preHead most = .error (.conflict equivalenceConflict) ↔
        ¬(SettlesLayers s (sources.patches.flatMap (·.ops)) ∧ KeepsWatermark s first rest)) := by
  have hkeyed := keyed_of_reachable s hs
  obtain ⟨hrequest, hstaged, hcombined⟩ := stageRequest_ok s first rest _ most staged combined hstage
  have request := checkRequest_ok _ _ _ _ hrequest
  obtain ⟨cursors, -, hpatch⟩ := combinedPatch_ok _ _ _ _ _ hcombined
  have hfirst : first.applies = combined.applies := by rw [hpatch]; rfl
  have henv := request.envelope combined hfirst
  obtain ⟨admitted, u, hjudged, hu, -, hfinalized⟩ := judgedRun_of_admitSources project s.revision
    revision combined raws s s sources (.refl s) (hsources ▸ henv) hgates
  obtain ⟨w, hinitiating, hgenerated, hgenerate⟩ := stageTransition_ok s first rest most staged
    hstaged
  -- The source operations lead to `u`, staged or not.
  obtain ⟨u', hu', hexact⟩ := timeline_exactly combined (sourceActions (first :: rest))
    (fun a ha => by
      obtain ⟨q, hq, hop⟩ := List.mem_flatMap.mp ha
      obtain ⟨op, -, rfl⟩ := List.mem_map.mp hop
      exact henv q hq) s w hkeyed (applyTimeline_ok _ _ _ _ _ hinitiating)
  rw [sourceActions_ops, ← hsources, hu] at hu'
  cases hu'
  have hukeyed := keyed_run combined false _ s u hkeyed hu
  have hmarks := marks_of_guidance w u _ _ _ _ hexact.alike.nodes hgenerated
  -- The generated operations lead on to `v`, up to the revision they are staged at.
  obtain ⟨v', hv', hfinal⟩ := generated_exactly first combined hfirst staged.generatedOps
    { w with revision := first.revision } { u with revision := first.revision } staged.final
    (by rw [hexact.eq]; exact ⟨rfl, rfl⟩) (keyed_of_nodes _ u hexact.alike.nodes hukeyed)
    (applyGenerated_ok _ _ _ _ _ _ hgenerate)
  have hrev : v'.revision = first.revision := revision_run combined true _ _ v' hv'
  have hv := marks_revision combined _ u hmarks u.revision _ v' hv'
  generalize hvdef : ({ v' with revision := u.revision } : GraphState rt) = v at hv
  have hops : combined.ops =
      (first :: rest).flatMap (·.ops) ++ staged.generatedOps.map Prod.fst := by
    rw [hpatch, sourceActions_ops]
  have hcandidate := (applyValidPatch_staged staged _ (first :: rest) combined hops
    (by rw [hpatch]) s _).mpr ⟨u, v, by rw [← hsources]; exact hu, hv, rfl⟩
  have hfinal_eq : staged.final =
      { v with revision := first.revision, lastRefreshAt := staged.final.lastRefreshAt } := by
    rw [hfinal.eq, ← hvdef, ← hrev]
  have hvrev : v.revision = s.revision := by
    rw [← hvdef]
    exact revision_run combined false _ s u hu
  have hlast : v.lastRefreshAt = s.lastRefreshAt := by
    have hframes := frame_run combined false _ s u hu
    have hframev := frame_run combined true _ u v hv
    exact (congrArg (·.2.2.2) hframev).trans (congrArg (·.2.2.2) hframes)
  have hcombined_rev : combined.revision = first.revision := by rw [hpatch]
  have hmax : max s.revision first.revision = first.revision :=
    Nat.max_eq_right (Nat.le_of_lt request.ahead)
  have hcandidate_eq : stamp combined (relayer (combined.ops.flatMap createdEdgeIds) v) =
      { v with
        revision := first.revision
        edges := (relayer (combined.ops.flatMap createdEdgeIds) v).edges
        lastRefreshAt := first.watermark s.lastRefreshAt } := by
    have hwatermark : combined.watermark = first.watermark := by
      funext last
      rw [hpatch]
      rfl
    rw [stamp, relayer_eq, hvrev, hcombined_rev, hmax, ← hlast, ← hwatermark]
    rfl
  have hlayers : (∀ id, (relayer (combined.ops.flatMap createdEdgeIds) v).edges.get? id =
      v.edges.get? id) ↔ SettlesLayers s (sources.patches.flatMap (·.ops)) := by
    have hcreated : combined.ops.flatMap createdEdgeIds =
        (admitted.flatMap (·.ops)).flatMap createdEdgeIds := by
      rw [hops, List.flatMap_append, ← hsources, createdEdgeIds_finalized _ _ hfinalized,
        createdEdgeIds_marks u _ hmarks, List.append_nil]
    obtain ⟨hedges, htypes, -⟩ := marks_run combined _ u v hmarks hukeyed hv
    have htracks := (tracks_run project revision raws combined admitted s u hkeyed hjudged).frame
      hedges htypes (marks_ontology combined _ u hmarks u v hv)
    rw [relayer_same_iff, SettlesLayers, Sketch.after_finalized _ _ hfinalized,
      ← htracks.settled_iff, hcreated]
    simp only [settled_iff_rederive]
  have hiff : (stamp combined (relayer (combined.ops.flatMap createdEdgeIds) v)).same
      staged.final = true ↔
        SettlesLayers s (sources.patches.flatMap (·.ops)) ∧ KeepsWatermark s first rest := by
    rw [hcandidate_eq, hfinal_eq, same_fields, hlayers,
      watermark_agrees s first rest _ request most staged hstaged]
  refine ⟨_, hcandidate, hiff, ?_⟩
  rw [hsources, prepareValidated_compares s first rest preHead most staged combined hstage _
    hcandidate, ← hsources, ← hiff]
  cases (stamp combined (relayer (combined.ops.flatMap createdEdgeIds) v)).same staged.final <;>
    simp

/-- The staged run of the next append to a graph, with its source patches and combined patch. -/
def stagedAppend (project : Project rt) (s : GraphState rt) (raws : List (Patch rt)) :
    Option (AdmittedSources rt × Patch rt × List (Patch rt) × StagedTransition rt × Patch rt) :=
  match admitSources project s.revision (s.revision + 1) raws s with
  | .error _ => none
  | .ok sources =>
      match sources.patches with
      | [] => none
      | first :: rest =>
          (stageRequest s first rest { revision := s.revision } defaultMaxRuleFirings).toOption.map
            fun (staged, combined) => (sources, first, rest, staged, combined)

theorem stagedAppend_ok (project : Project rt) (s : GraphState rt) (raws : List (Patch rt))
    (sources : AdmittedSources rt) (first : Patch rt) (rest : List (Patch rt))
    (staged : StagedTransition rt) (combined : Patch rt)
    (h : stagedAppend project s raws = some (sources, first, rest, staged, combined)) :
    admitSources project s.revision (s.revision + 1) raws s = .ok sources ∧
      sources.patches = first :: rest ∧
      stageRequest s first rest { revision := s.revision } defaultMaxRuleFirings =
        .ok (staged, combined) := by
  unfold stagedAppend at h
  split at h
  next => cases h
  next sources' hgates =>
    split at h
    next => cases h
    next first' rest' hpatches =>
      cases hstage : stageRequest s first' rest' { revision := s.revision }
          defaultMaxRuleFirings with
      | error e => simp [hstage, Except.toOption] at h
      | ok r =>
          simp only [hstage, Except.toOption, Option.map_some, Option.some.injEq,
            Prod.mk.injEq] at h
          obtain ⟨rfl, rfl, rfl, hstaged, hcombined⟩ := h
          exact ⟨hgates, hpatches, by rw [hstage, ← hstaged, ← hcombined]⟩

def hypothesisDraft (id : String) : RawNode .plain where
  id := id
  type := .hypothesis
  extensionType := none
  standing := none
  createdRev := none
  updatedRev := none
  content := [("title", .str "Title"), ("statement", .str "Statement")]
  extensionType_ok := RawNode.no_extension
  content_ok := by rfl

def hasDecisionDraft (source target : String) : NewEdge where
  source := source
  target := target
  relation := "has_decision"
  relation_ok := by rfl

/-- One edge comes before the questions it connects, which have the layer it declares; the
other one follows its ends. -/
def settledEdges : Patch .plain :=
  { firstPatch
      [ .createEdges [subquestionDraft "rq/a" "rq/b"],
        .createNodes [questionDraft "rq/a", questionDraft "rq/b"],
        .createNodes [hypothesisDraft "hyp/a", decisionDraft "dec/a"],
        .createEdges [hasDecisionDraft "hyp/a" "dec/a"] ] with
    kind := .refresh }

/-- The edge comes first, and keeps the layer its relation declares while it is staged. -/
def earlyEdge : Patch .plain :=
  firstPatch
    [ .createEdges [hasDecisionDraft "hyp/a" "dec/a"],
      .createNodes [hypothesisDraft "hyp/a", decisionDraft "dec/a"] ]

theorem staged_agrees_settledEdges :
    ∃ sources first rest staged combined candidate,
      stagedAppend Project.solo (.initial .plain ["repo"]) [settledEdges] =
        some (sources, first, rest, staged, combined) ∧
      ((sources.patches.flatMap (·.ops)).foldl Sketch.after
        (.of (.initial .plain ["repo"]))).early.entries ≠ [] ∧
      applyValidPatch (.initial .plain ["repo"]) combined = .ok candidate ∧
      candidate.same staged.final = true := by
  have hsome : (stagedAppend Project.solo (.initial .plain ["repo"]) [settledEdges]).any
      (fun r => decide (SettlesLayers (.initial .plain ["repo"]) (r.1.patches.flatMap (·.ops))) &&
        decide (((r.1.patches.flatMap (·.ops)).foldl Sketch.after
          (.of (.initial .plain ["repo"]))).early.entries ≠ []) &&
        decide (r.2.2.1 = [])) = true := by decide +kernel
  obtain ⟨⟨sources, first, rest, staged, combined⟩, hstaged, hsettles⟩ :=
    (Option.any_eq_true _ _).mp hsome
  simp only [Bool.and_eq_true, decide_eq_true_eq] at hsettles
  obtain ⟨⟨hsettles, hearly⟩, rfl⟩ := hsettles
  obtain ⟨hgates, hpatches, hstage⟩ := stagedAppend_ok _ _ _ _ _ _ _ _ hstaged
  obtain ⟨candidate, hcandidate, hiff, -⟩ := staged_agrees_iff Project.solo _ (.initial ["repo"]) 1
    [settledEdges] sources first [] none _ staged combined hgates hpatches hstage
  exact ⟨sources, first, [], staged, combined, candidate, hstaged, hearly, hcandidate,
    hiff.mpr ⟨hsettles, .inr (.inl rfl)⟩⟩

/-- Whether the combined patch, applied as a whole, reaches the staged graph. -/
def StagedTransition.reproducedBy (staged : StagedTransition rt) (s : GraphState rt)
    (combined : Patch rt) : Bool :=
  match applyValidPatch s combined with
  | .error _ => false
  | .ok candidate => candidate.same staged.final

theorem staged_differs_earlyEdge :
    ¬∀ (s : GraphState .plain) (raws : List (Patch .plain)) sources first rest staged combined,
      Reachable (fun _ _ => True) s →
      stagedAppend Project.solo s raws = some (sources, first, rest, staged, combined) →
      staged.reproducedBy s combined = true := by
  intro h
  have hsome : (stagedAppend Project.solo (.initial .plain ["repo"]) [earlyEdge]).any
      (fun r => !r.2.2.2.1.reproducedBy (.initial .plain ["repo"]) r.2.2.2.2) = true := by
    decide +kernel
  obtain ⟨⟨sources, first, rest, staged, combined⟩, hstaged, hdiffers⟩ :=
    (Option.any_eq_true _ _).mp hsome
  have := h _ [earlyEdge] sources first rest staged combined (.initial ["repo"]) hstaged
  simp [this] at hdiffers

end Agreement

end RcpGraph
