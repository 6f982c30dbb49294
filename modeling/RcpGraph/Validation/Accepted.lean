import RcpGraph.Core.Effects
import RcpGraph.Validation.Patch

/-!
What acceptance says about application. Validation judges every operation on a
staged graph; application runs the operations on the real one. The two graphs
stay alike, so a judgment can be used at the point where its operation is
applied, for a source patch as for the parts of a recorded transition.
-/

namespace RcpGraph

variable {rt : Runtime}

/-- An operation outside a transition has no generated privilege. -/
theorem generatedIndexes_of_source (p : Patch rt) (h : p.transition = none) :
    p.generatedIndexes = [] := by
  simp [Patch.generatedIndexes, h]

/-- Accepted operations run, and what every judged operation preserves, the run preserves. -/
theorem stageOps_run (rules : OpRules rt) (base : OpContext rt) (p : Patch rt)
    (hp : base.patch.applies = p.applies) (hg : base.patch.generatedIndexes = [])
    (P : List (GraphOperation rt) → GraphState rt → Prop)
    (step : ∀ op rest a r s t, Alike a s →
      refused (rules { base with state := a, repositories := r } op) = false →
      (base.admission = true → op.legacyOnly = false) →
      applyOp p false op s = .ok t → P (op :: rest) s → P rest t)
    (ops : List (GraphOperation rt)) (a : GraphState rt) (r : List String) (s : GraphState rt)
    (ha : Alike a s)
    (h : refused (stageOps rules ops { base with state := a, repositories := r }).2 = false) :
    ∃ t, Steps.run (applyOp p false) ops s = .ok t ∧
      (∃ b r', (stageOps rules ops { base with state := a, repositories := r }).1 =
        { base with state := b, repositories := r' } ∧ Alike b t) ∧
      (P ops s → P [] t) := by
  induction ops generalizing a r s with
  | nil => exact ⟨s, rfl, ⟨a, r, rfl, ha⟩, id⟩
  | cons op ops ih =>
      obtain ⟨hop, hrest⟩ := (stageOps_cons_accepted rules op ops _).mp h
      obtain ⟨hrules, hlegacy, a', ha', hnext⟩ := stageOp_accepted rules _ op hop
      obtain ⟨u, hu, hau⟩ := applyValidOperation_ok a base.patch op a' ha'
      rw [hg] at hu
      rw [applyOp_congr base.patch p hp] at hu
      obtain ⟨t, ht, hat⟩ := (blind_applyOp p _ op).alike ha hu
      rw [hnext] at hrest
      obtain ⟨v, hv, hend, hkeep⟩ := ih a' _ t (hau.trans hat) hrest
      refine ⟨v, (Steps.run_cons_ok _ op ops s v).mpr ⟨t, ht, hv⟩, ?_, ?_⟩
      · simpa only [stageOps, hnext] using hend
      · exact fun hP => hkeep (step op ops a r s t ha hrules hlegacy ht hP)

/-- The operations of a patch are judged and staged one by one. -/
theorem patchIssues_accepted (s : GraphState rt) (p : Patch rt) (vc : ValidationContext rt)
    (request : PatchRequest) (h : refused (patchIssues s p vc request) = false) :
    refused (envelopeIssues s p (openContext s p vc request)
        (request.experimentDecisionBundle.getD p.experimentDecisionBundle)) = false ∧
      refused (stageOps patchRules p.ops (openContext s p vc request)).2 = false ∧
      refused (queuedDecisionIssues
        (stageOps patchRules p.ops (openContext s p vc request)).1) = false ∧
      refused (createdProposalIssues
        (stageOps patchRules p.ops (openContext s p vc request)).1) = false := by
  simpa [patchIssues, Bool.or_eq_false_iff, and_assoc] using h

/-- A context in which an accepted patch's operations are judged. -/
def StagedIn (base ctx : OpContext rt) : Prop :=
  ∃ a r, ctx = { base with state := a, repositories := r }

/-- What every judged operation of an accepted patch preserves, its run preserves. -/
theorem patchIssues_run (here : GraphState rt) (source : Patch rt) (vc : ValidationContext rt)
    (request : PatchRequest) (h : refused (patchIssues here source vc request) = false)
    (p : Patch rt) (happ : source.applies = p.applies) (hplain : source.transition = none)
    (P : List (GraphOperation rt) → GraphState rt → Prop)
    (step : ∀ op rest ctx s t, op ∈ source.ops →
      StagedIn (openContext here source vc request) ctx → Alike ctx.state s →
      refused (patchRules ctx op) = false → applyOp p false op s = .ok t →
      P (op :: rest) s → P rest t)
    (s t : GraphState rt) (ha : Alike here s)
    (hrun : Steps.run (applyOp p false) source.ops s = .ok t) (hs : P source.ops s) : P [] t := by
  obtain ⟨-, hstaged, -, -⟩ := patchIssues_accepted here source vc request h
  obtain ⟨t', ht', -, hkeep⟩ := stageOps_run patchRules (openContext here source vc request) p happ
    (generatedIndexes_of_source source hplain)
    (fun rest s => (∀ op ∈ rest, op ∈ source.ops) ∧ P rest s)
    (fun op rest a r s t ha hr _ happ ⟨hops, hP⟩ =>
      ⟨fun o ho => hops o (List.mem_cons_of_mem _ ho),
        step op rest _ s t (hops op List.mem_cons_self) ⟨a, r, rfl⟩ ha hr happ hP⟩)
    source.ops here _ s ha hstaged
  rw [hrun] at ht'
  cases ht'
  exact (hkeep ⟨fun _ h => h, hs⟩).2

theorem created_new (ctx : OpContext rt) (nodes : List (RawNode rt))
    (h : refused (patchRules ctx (.createNodes nodes)) = false) (raw : RawNode rt)
    (hraw : raw ∈ nodes) : raw.id ∉ ctx.state.nodes := by
  simp only [patchRules, effectRules, rulesOf, structuralIssues, refused_append,
    Bool.or_eq_false_iff, createNodesIssues, not_refused_flatMap, newNodeIssues,
    refused_rejectIf] at h
  simpa using (h.1 raw hraw).1.2.1.1.1.1

theorem updates_accepted (ctx : OpContext rt) (updates : List NodeUpdate)
    (h : refused (patchRules ctx (.updateNodes updates)) = false) :
    ∀ u ∈ updates, refused (updateNodeIssues ctx u) = false := by
  simp only [patchRules, effectRules, rulesOf, structuralIssues, refused_append,
    Bool.or_eq_false_iff, updateNodesIssues, not_refused_flatMap] at h
  exact h.1

/-- An accepted update passed every check on its content. -/
theorem updateContent_of_accepted (ctx : OpContext rt) (u : NodeUpdate) (n : ProjectNode rt)
    (hn : ctx.state.nodes.get? u.id = some n) (h : refused (updateNodeIssues ctx u) = false) :
    refused (updateContentIssues ctx n u) = false := by
  simp only [updateNodeIssues, hn, refused_append, Bool.or_eq_false_iff,
    liveLegacyUpdateIssues] at h
  obtain ⟨⟨hphase, hstrength⟩, h⟩ := h
  split at hphase
  next => simp at hphase
  next phase hlegacy =>
    rw [refused_rejectIf] at hphase hstrength
    rw [hphase] at hlegacy
    simp only [hlegacy, hstrength, Bool.false_eq_true, if_false] at h
    split at h
    · simp at h
    · exact h

section Fresh

/-- The head of an accepted `create_edges` payload. -/
theorem createEdgesIssues_cons (ctx : OpContext rt) (hmode : ctx.mode = .admission)
    (seen : List String) (e : NewEdge) (es : List NewEdge)
    (h : refused (createEdgesIssues ctx seen (e :: es)) = false) :
    ∃ id, e.writtenId = some id ∧ id ∉ seen ∧
      refused (createEdgesIssues ctx (id :: seen) es) = false := by
  have hadmission : ctx.admission = true := by simp [OpContext.admission, hmode]
  simp only [createEdgesIssues, refused_append, Bool.or_eq_false_iff] at h
  obtain ⟨-, h⟩ := h
  split at h
  · simp at h
  · simp only [refused_append, Bool.or_eq_false_iff] at h
    obtain ⟨-, h⟩ := h
    split at h
    · simp at h
    next id hid =>
      rw [if_pos hadmission] at h
      split at h
      · simp at h
      next hunseen => exact ⟨id, hid, hunseen, h⟩

theorem createdEdgeIds_unseen (ctx : OpContext rt) (hmode : ctx.mode = .admission)
    (seen : List String) (edges : List NewEdge)
    (h : refused (createEdgesIssues ctx seen edges) = false) (raw : NewEdge) (hraw : raw ∈ edges)
    (id : String) (hid : raw.writtenId = some id) : id ∉ seen := by
  induction edges generalizing seen with
  | nil => cases hraw
  | cons e es ih =>
      obtain ⟨id', hid', hunseen, hrest⟩ := createEdgesIssues_cons ctx hmode seen e es h
      rcases List.mem_cons.mp hraw with rfl | hraw
      · rw [hid] at hid'
        cases hid'
        exact hunseen
      · exact fun hseen => ih _ hrest hraw (List.mem_cons_of_mem _ hseen)

/-- An accepted operation writes no edge under an id the graph has. -/
theorem unwritten_of_accepted (ctx : OpContext rt) (hmode : ctx.mode = .admission)
    (op : GraphOperation rt) (h : refused (patchRules ctx op) = false) (id : String)
    (hid : id ∈ op.edgesWritten.map (·.1)) : id ∉ ctx.state.edges := by
  have hadmission : ctx.admission = true := by simp [OpContext.admission, hmode]
  have generated : ∀ source target relation,
      refused (generatedRelationIssues ctx source target relation) = false →
      derivedEdgeId source relation target ∉ ctx.state.edges := by
    intro source target relation hissues hmem
    unfold generatedRelationIssues at hissues
    by_cases hsame : source = target
    · rw [if_pos hsame] at hissues
      simp at hissues
    · rw [if_neg hsame, if_pos hmem] at hissues
      simp at hissues
  obtain ⟨⟨id', source, target⟩, he, rfl⟩ := List.mem_map.mp hid
  cases op with
  | createEdges edges =>
      simp only [patchRules, effectRules, rulesOf, structuralIssues, refused_append,
        Bool.or_eq_false_iff] at h
      obtain ⟨raw, hraw, hwritten⟩ := List.mem_filterMap.mp he
      obtain ⟨x, hx, hx'⟩ := Option.map_eq_some_iff.mp hwritten
      cases hx'
      exact createdEdgeIds_unseen ctx hmode _ edges h.1 raw hraw _ hx
  | supersedeNodes items =>
      simp only [patchRules, effectRules, rulesOf, structuralIssues, refused_append,
        Bool.or_eq_false_iff, supersedeNodesIssues, not_refused_flatMap] at h
      obtain ⟨i, hi, hedge⟩ := List.mem_filterMap.mp he
      obtain ⟨e, hedge, hid⟩ := Option.map_eq_some_iff.mp hedge
      obtain ⟨target, htarget, rfl⟩ := Option.map_eq_some_iff.mp hedge
      cases hid
      have hitem := (h.1 i hi).2
      simp only [(Option.filter_eq_some_iff.mp htarget).1, hadmission, if_true, refused_append,
        Bool.or_eq_false_iff] at hitem
      exact generated _ _ _ hitem.2
  | mergeNodes merges =>
      simp only [patchRules, effectRules, rulesOf, structuralIssues, refused_append,
        Bool.or_eq_false_iff, mergeNodesIssues, not_refused_flatMap] at h
      obtain ⟨m, hm, hedge⟩ := List.mem_map.mp he
      cases hedge
      have hitem := (h.1 m hm).2
      simp only [hadmission, if_true] at hitem
      exact generated _ _ _ hitem
  | _ => cases he

end Fresh

/-- Source patches run one after another on the real graph, each judged on a graph
alike to the one its operations meet. -/
inductive JudgedRun (J : GraphState rt → Patch rt → Prop) (p : Patch rt) :
    List (Patch rt) → GraphState rt → GraphState rt → Prop
  | nil (s : GraphState rt) : JudgedRun J p [] s s
  | cons (here s t u : GraphState rt) (source : Patch rt) (rest : List (Patch rt))
      (envelope : source.applies = p.applies) (plain : source.transition = none)
      (alike : Alike here s) (judged : J here source)
      (run : Steps.run (applyOp p false) source.ops s = .ok t)
      (tail : JudgedRun J p rest t u) : JudgedRun J p (source :: rest) s u

/-- What every judged source patch preserves, the run preserves. -/
theorem JudgedRun.invariant {J : GraphState rt → Patch rt → Prop} {p : Patch rt}
    (P : List (Patch rt) → GraphState rt → Prop)
    (step : ∀ here s t source rest, source.applies = p.applies → source.transition = none →
      Alike here s → J here source → Steps.run (applyOp p false) source.ops s = .ok t →
      P (source :: rest) s → P rest t)
    {sources : List (Patch rt)} {s u : GraphState rt} (h : JudgedRun J p sources s u)
    (hs : P sources s) : P [] u := by
  induction h with
  | nil s => exact hs
  | cons here s t u source rest envelope plain alike judged run tail ih =>
      exact ih (step here s t source rest envelope plain alike judged run hs)

theorem JudgedRun.run_sources {J : GraphState rt → Patch rt → Prop} {p : Patch rt}
    {sources : List (Patch rt)} {s u : GraphState rt} (h : JudgedRun J p sources s u) :
    Steps.run (applyOp p false) (sources.flatMap (·.ops)) s = .ok u := by
  induction h with
  | nil s => rfl
  | cons here s t u source rest envelope plain alike judged run tail ih =>
      rw [List.flatMap_cons]
      exact (Steps.run_append_ok _ _ _ _ _).mpr ⟨t, run, ih⟩

theorem JudgedRun.mono {J K : GraphState rt → Patch rt → Prop} (hJK : ∀ s q, J s q → K s q)
    {p : Patch rt} {sources : List (Patch rt)} {s u : GraphState rt}
    (h : JudgedRun J p sources s u) : JudgedRun K p sources s u := by
  induction h with
  | nil s => exact .nil s
  | cons here s t u source rest envelope plain alike judged run tail ih =>
      exact .cons here s t u source rest envelope plain alike (hJK here source judged) run ih

section Indexes

theorem checkIndexes_ok (count : Nat) (source generated : List Nat)
    (h : checkIndexes count source generated = .ok ()) :
    source ++ generated = List.range count := by
  unfold checkIndexes at h
  split at h
  next => cases h
  split at h
  next => cases h
  split at h
  next => cases h
  split at h
  next => cases h
  next hall =>
    split at h
    next => cases h
    next hsorted =>
      split at h
      next => cases h
      next horder =>
        rw [not_or, not_not, not_not] at hsorted
        have hs : source.Pairwise (· ≤ ·) := by
          rw [← hsorted.1]
          exact List.pairwise_insertionSort _ source
        have hg : generated.Pairwise (· ≤ ·) := by
          rw [← hsorted.2]
          exact List.pairwise_insertionSort _ generated
        have hboth : (source ++ generated).Pairwise (· ≤ ·) := by
          refine List.pairwise_append.mpr ⟨hs, hg, fun i hi j hj => ?_⟩
          have : ¬j ≤ i := fun hji => horder ⟨i, hi, j, hj, hji⟩
          omega
        rw [not_not] at hall
        rw [← hall, hboth.insertionSort_eq]

theorem filterMap_getElem?_range' {α : Type} (xs : List α) (start n : Nat)
    (h : start + n ≤ xs.length) :
    (List.range' start n).filterMap (fun i => xs[i]?) = (xs.drop start).take n := by
  induction n generalizing start with
  | zero => simp
  | succ n ih =>
      have hlt : start < xs.length := by omega
      rw [List.range'_succ, List.filterMap_cons, List.getElem?_eq_getElem hlt,
        ih (start + 1) (by omega), List.drop_eq_getElem_cons hlt, List.take_succ_cons]

/-- Indexes that enumerate a list in order read its first part and then the rest. -/
theorem split_of_indexes {α : Type} (xs : List α) (source generated : List Nat)
    (h : source ++ generated = List.range xs.length) :
    source.filterMap (fun i => xs[i]?) = xs.take source.length ∧
      generated = List.range' source.length (xs.length - source.length) ∧
      source = List.range source.length := by
  have hlen : source.length + generated.length = xs.length := by
    simpa using congrArg List.length h
  rw [List.range_eq_range', ← hlen, ← List.range'_append_1] at h
  obtain ⟨hs, hg⟩ := List.append_inj h (by simp)
  refine ⟨?_, ?_, ?_⟩
  · rw [hs, filterMap_getElem?_range' xs 0 _ (by omega)]
    simp
  · rw [hg, ← hlen]
    simp
  · rw [List.range_eq_range']
    exact hs

end Indexes

theorem checkGeneratedAction_ok (ops : List (GraphOperation rt)) (a : TransitionGeneratedAction)
    (h : checkGeneratedAction ops a = .ok ()) :
    ∃ op, ops[a.operationIndex]? = some op ∧ validateGuidanceOperation op = .ok () := by
  unfold checkGeneratedAction at h
  split at h
  next => cases h
  split at h
  next => cases h
  split at h
  next => cases h
  split at h
  next => cases h
  next op hop => exact ⟨op, hop, h⟩

/-- How a trace that checks out cuts the operations of its patch. -/
structure TraceSplit (s : GraphState rt) (p : Patch rt) (trace : TransitionTrace)
    (sources : List (Patch rt)) : Prop where
  pre_revision : trace.preHead.revision = s.revision
  sources_eq : sources = trace.initiatingGroups.map (sourcePatchForGroup p)
  source_ops : sources.flatMap (·.ops) = p.ops.take (sources.flatMap (·.ops)).length
  source_indexes : trace.initiatingGroups.flatMap (·.operationIndexes) =
    List.range (sources.flatMap (·.ops)).length
  generated_indexes : trace.generatedActions.map (·.operationIndex) =
    List.range' (sources.flatMap (·.ops)).length
      (p.ops.length - (sources.flatMap (·.ops)).length)
  guidance : ∀ op ∈ p.ops.drop (sources.flatMap (·.ops)).length,
    validateGuidanceOperation op = .ok ()

theorem flatMap_sourcePatchForGroup (p : Patch rt) (groups : List TransitionInitiatingGroup) :
    (groups.map (sourcePatchForGroup p)).flatMap (·.ops) =
      (groups.flatMap (·.operationIndexes)).filterMap fun i => p.ops[i]? := by
  induction groups with
  | nil => rfl
  | cons g groups ih =>
      simp only [List.map_cons, List.flatMap_cons, List.filterMap_append, ih]
      rfl

theorem validateTransitionTrace_ok (s : GraphState rt) (p : Patch rt) (trace : TransitionTrace)
    (sources : List (Patch rt)) (h : validateTransitionTrace s p trace = .ok sources) :
    TraceSplit s p trace sources := by
  simp only [validateTransitionTrace, bind, Except.bind, pure, Except.pure] at h
  split at h
  next => cases h
  next hpre =>
    split at h
    next => cases h
    split at h
    next => cases h
    next hindexes =>
      split at h
      next => cases h
      split at h
      next => cases h
      split at h
      next => cases h
      next hgen =>
        split at h
        next => cases h
        split at h
        next => cases h
        split at h
        next => cases h
        cases h
        obtain ⟨htake, hgenerated, hsource⟩ :=
          split_of_indexes p.ops _ _ (checkIndexes_ok _ _ _ hindexes)
        rw [← flatMap_sourcePatchForGroup] at htake
        have hle : (trace.initiatingGroups.flatMap (·.operationIndexes)).length ≤ p.ops.length := by
          have := congrArg List.length (checkIndexes_ok _ _ _ hindexes)
          simp only [List.length_append, List.length_range] at this
          omega
        have hlen := congrArg List.length htake
        rw [List.length_take, Nat.min_eq_left hle] at hlen
        rw [← hlen] at htake hgenerated hsource
        refine ⟨not_not.mp hpre, rfl, htake, hsource, hgenerated, fun op hop => ?_⟩
        obtain ⟨i, hi, rfl⟩ := List.mem_iff_getElem.mp hop
        have hmem : (List.flatMap (·.ops) (trace.initiatingGroups.map (sourcePatchForGroup p))).length
            + i ∈ trace.generatedActions.map (·.operationIndex) := by
          rw [hgenerated, List.mem_range'_1]
          rw [List.length_drop] at hi
          omega
        obtain ⟨a, ha, hai⟩ := List.mem_map.mp hmem
        obtain ⟨op, hop', hok⟩ :=
          checkGeneratedAction_ok p.ops a ((Steps.run_check _ _).mp hgen a ha)
        rw [hai, ← List.getElem?_drop, List.getElem?_eq_getElem hi] at hop'
        cases hop'
        exact hok

section Whole

/-- Operations whose indexes are all generated, or all not, run with one privilege. -/
theorem run_zipIdx (p : Patch rt) (generated : List Nat) (b : Bool)
    (ops : List (GraphOperation rt)) (start : Nat)
    (h : ∀ i, start ≤ i → i < start + ops.length → decide (i ∈ generated) = b)
    (s : GraphState rt) :
    Steps.run (fun (op, i) => applyOp p (decide (i ∈ generated)) op) (ops.zipIdx start) s =
      Steps.run (applyOp p b) ops s := by
  induction ops generalizing start s with
  | nil => rfl
  | cons op ops ih =>
      have hstart : decide (start ∈ generated) = b := h start (Nat.le_refl _) (by simp)
      rw [List.zipIdx_cons, Steps.run, Steps.run]
      simp only [hstart]
      cases applyOp p b op s with
      | error e => rfl
      | ok t =>
          refine ih (start + 1) (fun i hi hlt => h i (by omega) ?_) t
          simp only [List.length_cons]
          omega

/-- A source patch applied as a whole. -/
theorem applyValidPatch_source (p : Patch rt) (hp : p.transition = none) (s t : GraphState rt)
    (h : applyValidPatch s p = .ok t) :
    ∃ u, Steps.run (applyOp p false) p.ops s = .ok u ∧
      t = stamp p (relayer (p.ops.flatMap createdEdgeIds) u) := by
  obtain ⟨u, hu, ht⟩ := applyPatch_ok p _ s t h
  rw [generatedIndexes_of_source p hp, run_zipIdx p [] false p.ops 0 (by simp)] at hu
  exact ⟨u, hu, ht⟩

/-- The operations of a recorded transition: source operations, then generated ones. -/
theorem run_transition (p : Patch rt) (trace : TransitionTrace) (hp : p.transition = some trace)
    (s v : GraphState rt) (k : Nat) (hk : k ≤ p.ops.length)
    (hg : trace.generatedActions.map (·.operationIndex) = List.range' k (p.ops.length - k)) :
    Steps.run (fun (op, i) => applyOp p (decide (i ∈ p.generatedIndexes)) op) p.ops.zipIdx s = .ok v ↔
      ∃ u, Steps.run (applyOp p false) (p.ops.take k) s = .ok u ∧
        Steps.run (applyOp p true) (p.ops.drop k) u = .ok v := by
  have hgen : p.generatedIndexes = List.range' k (p.ops.length - k) := by
    simp [Patch.generatedIndexes, hp, hg]
  have hzip : p.ops.zipIdx =
      (p.ops.take k).zipIdx ++ (p.ops.drop k).zipIdx (0 + (p.ops.take k).length) := by
    rw [← List.zipIdx_append, List.take_append_drop]
  have hsource : ∀ i, 0 ≤ i → i < 0 + (p.ops.take k).length →
      decide (i ∈ List.range' k (p.ops.length - k)) = false := by
    intro i hi hlt
    simp only [List.length_take, Nat.zero_add] at hlt
    simp only [decide_eq_false_iff_not, List.mem_range'_1]
    omega
  have hgenerated : ∀ i, 0 + (p.ops.take k).length ≤ i →
      i < 0 + (p.ops.take k).length + (p.ops.drop k).length →
      decide (i ∈ List.range' k (p.ops.length - k)) = true := by
    intro i hi hlt
    simp only [List.length_take, List.length_drop, Nat.zero_add] at hi hlt
    simp only [decide_eq_true_eq, List.mem_range'_1]
    omega
  rw [hgen, hzip, Steps.run_append_ok, run_zipIdx p _ false _ _ hsource]
  simp only [run_zipIdx p _ true _ _ hgenerated]

/-- A recorded transition applied as a whole. -/
theorem applyValidPatch_transition (p : Patch rt) (trace : TransitionTrace)
    (hp : p.transition = some trace) (s t : GraphState rt) (k : Nat) (hk : k ≤ p.ops.length)
    (hg : trace.generatedActions.map (·.operationIndex) = List.range' k (p.ops.length - k)) :
    applyValidPatch s p = .ok t ↔
      ∃ u v, Steps.run (applyOp p false) (p.ops.take k) s = .ok u ∧
        Steps.run (applyOp p true) (p.ops.drop k) u = .ok v ∧
        t = stamp p (relayer (p.ops.flatMap createdEdgeIds) v) := by
  constructor
  · intro h
    obtain ⟨v, hv, ht⟩ := applyPatch_ok p _ s t h
    obtain ⟨u, hu, hv⟩ := (run_transition p trace hp s v k hk hg).mp hv
    exact ⟨u, v, hu, hv, ht⟩
  · rintro ⟨u, v, hu, hv, rfl⟩
    have hrun := (run_transition p trace hp s v k hk hg).mpr ⟨u, hu, hv⟩
    simp only [applyValidPatch, applyPatch, hrun, bind, Except.bind, pure, Except.pure]

/-- A patch that some validation accepts on a graph. -/
def Judged (mode : Mode) (here : GraphState rt) (p : Patch rt) : Prop :=
  ∃ vc request, vc.mode = mode ∧ refused (patchIssues here p vc request) = false

theorem frame_run (p : Patch rt) (b : Bool) (ops : List (GraphOperation rt))
    (s t : GraphState rt) (h : Steps.run (applyOp p b) ops s = .ok t) : t.frame = s.frame :=
  Steps.run_constant _ _ ops (fun op _ => frame_applyOp p b op) s t h

theorem revision_run (p : Patch rt) (b : Bool) (ops : List (GraphOperation rt))
    (s t : GraphState rt) (h : Steps.run (applyOp p b) ops s = .ok t) : t.revision = s.revision :=
  Steps.run_constant _ _ ops (fun op _ => revision_applyOp p b op) s t h

/-- A source patch applied to a graph alike to the real one, with the revision put back. -/
theorem applyValidPatch_alike (source p : Patch rt) (hplain : source.transition = none)
    (happ : source.applies = p.applies) (here s next : GraphState rt) (ha : Alike here s)
    (h : applyValidPatch here source = .ok next) :
    ∃ t, Steps.run (applyOp p false) source.ops s = .ok t ∧
      Alike { next with revision := here.revision } t := by
  obtain ⟨w, hw, rfl⟩ := applyValidPatch_source source hplain here next h
  rw [Steps.run_congr _ _ _ fun op _ s => congrFun (applyOp_congr source p happ false op) s] at hw
  obtain ⟨t, ht, hwt⟩ :=
    (blind_run _ source.ops fun op _ => blind_applyOp p false op).alike ha hw
  refine ⟨t, ht, Alike.trans ?_ hwt⟩
  exact staged_alike source _ here w (revision_run p false _ here w hw)

theorem judgedRun_of_validateSources (base : Nat) (p : Patch rt) (vc : ValidationContext rt)
    (sources : List (Patch rt)) (staged s : GraphState rt)
    (hsources : ∀ q ∈ sources, q.applies = p.applies ∧ q.transition = none)
    (ha : Alike { staged with revision := base } s)
    (h : rejected (validateSources base p vc sources staged) = false) :
    ∃ u, JudgedRun (Judged vc.mode) p sources s u := by
  induction sources generalizing staged s with
  | nil => exact ⟨s, .nil s⟩
  | cons source rest ih =>
      obtain ⟨happ, hplain⟩ := hsources source List.mem_cons_self
      simp only [validateSources, rejected_append, Bool.or_eq_false_iff] at h
      obtain ⟨hreport, hrest⟩ := h
      simp only [hreport, Bool.false_eq_true, if_false] at hrest
      rw [validateSourcePatch, rejected_settleIssues] at hreport
      cases hnext : applyValidPatch { staged with revision := base } source with
      | error text => simp [hnext, rejected, transitionInvalid] at hrest
      | ok next =>
          simp only [hnext] at hrest
          obtain ⟨t, ht, hat⟩ := applyValidPatch_alike source p hplain happ _ s next ha hnext
          obtain ⟨u, hu⟩ :=
            ih { next with revision := base } t (fun q hq => hsources q (List.mem_cons_of_mem _ hq))
              hat hrest
          have judged : Judged vc.mode { staged with revision := base } source := by
            refine ⟨_, _, ?_, hreport⟩
            rfl
          exact ⟨u, .cons _ s t u source rest happ hplain ha judged ht hu⟩

/-- A source patch that passes validation is applied: each of its operations was staged. -/
theorem applied_of_accepted (s : GraphState rt) (p : Patch rt) (vc : ValidationContext rt)
    (request : PatchRequest) (hp : p.transition = none)
    (hv : rejected (validatePatch s p vc request) = false) :
    ∃ t, applyValidPatch s p = .ok t := by
  simp only [validatePatch, hp, validateSourcePatch, rejected_settleIssues] at hv
  obtain ⟨-, hstaged, -, -⟩ := patchIssues_accepted s p vc request hv
  obtain ⟨u, hu, -, -⟩ := stageOps_run patchRules (openContext s p vc request) p rfl
    (generatedIndexes_of_source p hp) (fun _ _ => True)
    (fun _ _ _ _ _ _ _ _ _ _ _ => trivial) p.ops s _ s (.refl s) hstaged
  refine ⟨stamp p (relayer (p.ops.flatMap createdEdgeIds) u), ?_⟩
  rw [applyValidPatch, applyPatch, generatedIndexes_of_source p hp,
    run_zipIdx p [] false p.ops 0 (by simp), hu]
  rfl

/-- A patch that passes validation, as application sees it. -/
theorem validatePatch_accepted (s : GraphState rt) (p : Patch rt) (vc : ValidationContext rt)
    (request : PatchRequest) (t : GraphState rt)
    (hv : rejected (validatePatch s p vc request) = false) (ht : applyValidPatch s p = .ok t) :
    ∃ sources generated u v, p.ops = sources.flatMap (·.ops) ++ generated ∧
      JudgedRun (Judged vc.mode) p sources s u ∧
      (∀ op ∈ generated, validateGuidanceOperation op = .ok ()) ∧
      Steps.run (applyOp p true) generated u = .ok v ∧
      t = stamp p (relayer (p.ops.flatMap createdEdgeIds) v) := by
  cases htrace : p.transition with
  | none =>
      simp only [validatePatch, htrace, validateSourcePatch, rejected_settleIssues] at hv
      obtain ⟨u, hu, ht'⟩ := applyValidPatch_source p htrace s t ht
      refine ⟨[p], [], u, u, by simp, ?_, by simp, rfl, ht'⟩
      exact .cons s s u u p [] rfl htrace (.refl s) ⟨vc, request, rfl, hv⟩ hu (.nil u)
  | some trace =>
      simp only [validatePatch, htrace, validateTransitionPatch] at hv
      split at hv
      next => simp [rejected] at hv
      next hmode =>
        cases hsplit : validateTransitionTrace s p trace with
        | error text => simp [hsplit, rejected, transitionInvalid] at hv
        | ok sources =>
            simp only [hsplit] at hv
            have split := validateTransitionTrace_ok s p trace sources hsplit
            have hsources : ∀ q ∈ sources, q.applies = p.applies ∧ q.transition = none := by
              intro q hq
              rw [split.sources_eq] at hq
              obtain ⟨g, -, rfl⟩ := List.mem_map.mp hq
              exact ⟨rfl, rfl⟩
            obtain ⟨u, hu⟩ :=
              judgedRun_of_validateSources s.revision p vc sources s s hsources (.refl s) hv
            have hk : (sources.flatMap (·.ops)).length ≤ p.ops.length := by
              rw [split.source_ops]
              simp
            obtain ⟨u', v, hu', hv', ht'⟩ :=
              (applyValidPatch_transition p trace htrace s t _ hk split.generated_indexes).mp ht
            rw [← split.source_ops, hu.run_sources] at hu'
            cases hu'
            refine ⟨sources, _, u, v, ?_, hu, split.guidance, hv', ht'⟩
            rw [split.source_ops, List.length_take, Nat.min_eq_left hk]
            exact (List.take_append_drop _ _).symm

end Whole

end RcpGraph
