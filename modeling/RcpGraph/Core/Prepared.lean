import RcpGraph.Core.Staging
import RcpGraph.Core.Transitions

/-!
What a prepared transition is made of: source patches of one envelope, the
operations the guidance rule generated from them, and the graph that applying
both in order leads to.
-/

namespace RcpGraph

variable {rt : Runtime}

/-- A generated operation marks guidance of one Experiment, and nothing else. -/
def GraphOperation.MarksGuidance (s : GraphState rt) (op : GraphOperation rt) : Prop :=
  ∃ u : NodeUpdate, op = .updateNodes [u] ∧ s.nodeType? u.id = some .experiment ∧
    u.cause = none ∧ ∀ f ∈ u.changes.keys, f ∈ guidanceStaleFields

theorem mem_idsOf (s : GraphState rt) (type : NodeType) (id : String) :
    id ∈ s.idsOf type ↔ s.nodeType? id = some type := by
  simp only [GraphState.idsOf, Text.mem_sortedSet, List.mem_map, List.mem_filter,
    decide_eq_true_eq, GraphState.nodeType?, Option.map_eq_some_iff]
  constructor
  · rintro ⟨⟨k, n⟩, ⟨hmem, ht⟩, rfl⟩
    exact ⟨n, (Dict.get?_eq_some_iff _ _ _).mpr hmem, ht⟩
  · rintro ⟨n, hn, ht⟩
    exact ⟨(id, n), ⟨(Dict.get?_eq_some_iff _ _ _).mp hn, ht⟩, rfl⟩

theorem keys_ofList {α : Type} (es : List (String × α)) (k : String)
    (h : k ∈ (Dict.ofList es).keys) : k ∈ es.map Prod.fst := by
  have aux : ∀ (es : List (String × α)) (d : Dict String α), k ∈ (d.update es).keys →
      k ∈ d.keys ∨ k ∈ es.map Prod.fst := by
    intro es
    induction es with
    | nil => exact fun d h => .inl h
    | cons e es ih =>
        intro d h
        rcases ih (d.insert e.1 e.2) h with h | h
        · rcases (Assoc.mem_fst_write e.1 k e.2 d.entries).mp h with rfl | h
          · exact .inr (by simp)
          · exact .inl h
        · exact .inr (List.mem_cons_of_mem _ h)
  rcases aux es .empty h with h | h
  · cases h
  · exact h

theorem wantedStale_field (experiment : ProjectNode rt) (invalidation explicit : Option Nat)
    (field staleField : String) (m : Nat × String × Bool)
    (h : wantedStale experiment invalidation explicit field staleField = some m) :
    m.2.1 = staleField := by
  simp only [wantedStale] at h
  obtain ⟨⟨cause, desired⟩, -, h⟩ := Option.bind_eq_some_iff.mp h
  split at h
  next => cases h
  next =>
    cases h
    rfl

theorem marksGuidance_of_mem (s : GraphState rt) (timeline : List (TimelineEntry rt))
    (actions : List (GraphOperation rt)) (g : GraphOperation rt × Nat)
    (h : g ∈ guidanceActions s timeline actions) : g.1.MarksGuidance s := by
  obtain ⟨id, hid, hg⟩ := List.mem_flatMap.mp h
  have htype := (mem_idsOf s .experiment id).mp hid
  unfold experimentGuidanceActions at hg
  cases hn : s.nodes.get? id with
  | none => simp [hn] at hg
  | some experiment =>
      simp only [hn] at hg
      obtain ⟨cause, -, rfl⟩ := List.mem_map.mp hg
      refine ⟨_, rfl, htype, rfl, fun f hf => ?_⟩
      obtain ⟨⟨f', b⟩, hfb, rfl⟩ := List.mem_map.mp (keys_ofList _ f hf)
      obtain ⟨m, hm, hmf⟩ := List.mem_map.mp hfb
      have hmarks := (List.mem_filter.mp hm).1
      have hname : m.2.1 = f' := congrArg Prod.fst hmf
      rcases List.mem_append.mp hmarks with hmark | hmark <;>
        rw [Option.mem_toList] at hmark <;>
        rw [← hname, wantedStale_field _ _ _ _ _ m hmark] <;>
        decide

section Request

/-- What a request to prepare must bring. -/
structure GoodRequest (s : GraphState rt) (first : Patch rt) (rest : List (Patch rt))
    (preHead : GraphHeadRef) : Prop where
  ahead : s.revision < first.revision
  revisions : ∀ p ∈ first :: rest, p.revision = first.revision
  plain : ∀ p ∈ first :: rest, p.transition = none
  provenance : ∀ p ∈ rest, provenanceMismatches first p = []
  pre_revision : preHead.revision = s.revision
  nonempty : ∀ p ∈ first :: rest, p.ops ≠ []

theorem requireCompatibleEnvelopes_ok (first : Patch rt) (rest : List (Patch rt)) :
    requireCompatibleEnvelopes first rest = .ok () ↔
      ∀ p ∈ rest, provenanceMismatches first p = [] := by
  induction rest with
  | nil => simp [requireCompatibleEnvelopes]
  | cons p rest ih =>
      unfold requireCompatibleEnvelopes
      by_cases h : provenanceMismatches first p = []
      · simp [h, ih]
      · simp [h]

theorem checkRequest_ok (s : GraphState rt) (first : Patch rt) (rest : List (Patch rt))
    (preHead : GraphHeadRef) (h : checkRequest s first rest preHead = .ok ()) :
    GoodRequest s first rest preHead := by
  simp only [checkRequest, bind, Except.bind] at h
  split at h
  next => cases h
  next hrev =>
    split at h
    next => cases h
    next hplain =>
      cases henv : requireCompatibleEnvelopes first rest with
      | error e => simp [henv] at h
      | ok x =>
          simp only [henv] at h
          split at h
          next => cases h
          next hpre =>
            split at h
            next => cases h
            next hops =>
              rw [not_or, not_not] at hrev
              refine ⟨Nat.not_le.mp hrev.1, hrev.2, fun p hp => ?_,
                (requireCompatibleEnvelopes_ok first rest).mp henv, not_not.mp hpre,
                fun p hp hnil => hops ⟨p, hp, hnil⟩⟩
              by_contra hsome
              exact hplain ⟨p, hp, Option.isSome_iff_ne_none.mpr hsome⟩

theorem differ_nil (c : Bool) (name : String) :
    (if c = true then [] else [name]) = ([] : List String) ↔ c = true := by
  cases c <;> simp

/-- Patches of one request mean the same by every operation. -/
theorem applies_of_provenance (first p : Patch rt) (hr : p.revision = first.revision)
    (h : provenanceMismatches first p = []) : p.applies = first.applies := by
  unfold provenanceMismatches at h
  simp only [List.append_eq_nil_iff, and_assoc, differ_nil] at h
  obtain ⟨hgen, hkind, hauthor, -, -, -, -, -, hop, -⟩ := h
  rw [decide_eq_true_eq] at hgen hkind hauthor hop
  unfold Patch.applies
  rw [hr, hgen, hkind, hauthor, hop]

/-- Every source patch of a request is a plain patch of one envelope. -/
theorem GoodRequest.envelope {s : GraphState rt} {first : Patch rt} {rest : List (Patch rt)}
    {preHead : GraphHeadRef} (h : GoodRequest s first rest preHead) (p : Patch rt)
    (hp : first.applies = p.applies) :
    ∀ q ∈ first :: rest, q.applies = p.applies ∧ q.transition = none := by
  intro q hq
  refine ⟨?_, h.plain q hq⟩
  rw [← hp]
  rcases List.mem_cons.mp hq with rfl | hq'
  · rfl
  · exact applies_of_provenance first q (h.revisions q hq) (h.provenance q hq')

end Request

theorem sourceActions_ops (patches : List (Patch rt)) :
    (sourceActions patches).map Prod.snd = patches.flatMap (·.ops) := by
  simp [sourceActions, List.map_flatMap, Function.comp_def]

section Staged

/-- The timeline of source operations: each is staged where the one before it ended. -/
theorem applyTimeline_ok (actions : List (Patch rt × GraphOperation rt)) (index : Nat)
    (s final : GraphState rt) (timeline : List (TimelineEntry rt))
    (h : applyTimeline index actions s = .ok (timeline, final)) :
    Steps.run (fun a s => applyValidOperation s a.1 a.2) actions s = .ok final := by
  induction actions generalizing index s timeline with
  | nil =>
      cases h
      rfl
  | cons a actions ih =>
      obtain ⟨p, op⟩ := a
      simp only [applyTimeline, bind, Except.bind, pure, Except.pure] at h
      rw [Steps.run_cons_ok]
      cases ht : applyValidOperation s p op with
      | error text => simp [ht] at h
      | ok t =>
          simp only [ht] at h
          cases hr : applyTimeline (index + 1) actions t with
          | error e => simp [hr] at h
          | ok r =>
              simp only [hr, Except.ok.injEq, Prod.mk.injEq] at h
              obtain ⟨-, rfl⟩ := h
              exact ⟨t, rfl, ih (index + 1) t r.1 hr⟩

theorem applyGenerated_ok (p : Patch rt) (ops : List (GraphOperation rt × Nat)) (index : Nat)
    (s final : GraphState rt) (timeline : List (TimelineEntry rt))
    (h : applyGenerated p index ops s = .ok (timeline, final)) :
    Steps.run (fun (g : GraphOperation rt × Nat) s => applyTransitionGeneratedOperation s p g.1)
      ops s = .ok final := by
  induction ops generalizing index s timeline with
  | nil =>
      cases h
      rfl
  | cons g ops ih =>
      obtain ⟨op, cause⟩ := g
      simp only [applyGenerated, bind, Except.bind, pure, Except.pure] at h
      rw [Steps.run_cons_ok]
      cases ht : applyTransitionGeneratedOperation s p op with
      | error text => simp [ht] at h
      | ok t =>
          simp only [ht] at h
          cases hr : applyGenerated p (index + 1) ops t with
          | error e => simp [hr] at h
          | ok r =>
              simp only [hr, Except.ok.injEq, Prod.mk.injEq] at h
              obtain ⟨-, rfl⟩ := h
              exact ⟨t, rfl, ih (index + 1) t r.1 hr⟩

/-- The parts of a staged transition. -/
theorem stageTransition_ok (s : GraphState rt) (first : Patch rt) (rest : List (Patch rt))
    (most : Nat) (staged : StagedTransition rt)
    (h : stageTransition s first rest most = .ok staged) :
    ∃ u, applyTimeline 0 (sourceActions (first :: rest)) s = .ok (staged.initiating, u) ∧
      staged.generatedOps = guidanceActions { u with revision := first.revision }
        staged.initiating ((sourceActions (first :: rest)).map Prod.snd) ∧
      applyGenerated first (sourceActions (first :: rest)).length staged.generatedOps
        { u with revision := first.revision } = .ok (staged.generated, staged.final) := by
  simp only [stageTransition, bind, Except.bind, pure, Except.pure] at h
  cases ht : applyTimeline 0 (sourceActions (first :: rest)) s with
  | error e => simp [ht] at h
  | ok r =>
      obtain ⟨initiating, u⟩ := r
      simp only [ht] at h
      split at h
      next => cases h
      next =>
        split at h
        next => cases h
        next r hr =>
          cases h
          exact ⟨u, rfl, rfl, hr⟩

/-- Staging source operations one by one follows applying them, layers and watermark aside. -/
theorem timeline_alike (p : Patch rt) (actions : List (Patch rt × GraphOperation rt))
    (henv : ∀ a ∈ actions, a.1.applies = p.applies ∧ a.1.transition = none)
    (s t final : GraphState rt) (ha : Alike s t)
    (h : Steps.run (fun a s => applyValidOperation s a.1 a.2) actions s = .ok final) :
    ∃ u, Steps.run (applyOp p false) (actions.map Prod.snd) t = .ok u ∧ Alike final u := by
  rw [Steps.run_map]
  refine Steps.run_related _ _ Alike actions (fun a hmem s t s' hst hs' => ?_) s t final ha h
  obtain ⟨happ, hplain⟩ := henv a hmem
  obtain ⟨u, hu, hau⟩ := applyValidOperation_ok s a.1 a.2 s' hs'
  have hgen : decide (0 ∈ a.1.generatedIndexes) = false := by
    simp [Patch.generatedIndexes, hplain]
  rw [hgen, applyOp_congr a.1 p happ] at hu
  obtain ⟨t', ht', hut⟩ := (blind_applyOp p false a.2).alike hst hu
  exact ⟨t', ht', hau.trans hut⟩

end Staged

/-- The combined patch of a request. -/
theorem combinedPatch_ok (first : Patch rt) (rest : List (Patch rt))
    (operations : List (GraphOperation rt)) (trace : TransitionTrace) (p : Patch rt)
    (h : combinedPatch first rest operations trace = .ok p) :
    ∃ cursors, mergeCursors (first :: rest) .empty = .ok cursors ∧
      p =
        { first with
          summary := if rest = [] then first.summary
            else "Human Sync: " ++ Text.join "; " ((first :: rest).map (·.summary))
          ops := operations
          runTruthScope := Text.stableUnion ((first :: rest).flatMap (·.runTruthScope))
          repositoriesRead := Text.stableUnion ((first :: rest).flatMap (·.repositoriesRead))
          processedCursors := cursors
          changeSummary := (first :: rest).flatMap (·.changeSummary)
          humanAction := none
          agentAction := none
          admission := .accepted
          admissionMessages := []
          transition := some trace } := by
  simp only [combinedPatch, bind, Except.bind, pure, Except.pure] at h
  cases hc : mergeCursors (first :: rest) .empty with
  | error e => simp [hc] at h
  | ok cursors =>
      simp only [hc, Except.ok.injEq] at h
      exact ⟨cursors, rfl, h.symm⟩

/-- The parts of a prepared transition. -/
structure PreparedFrom (s : GraphState rt) (first : Patch rt) (rest : List (Patch rt))
    (preHead : GraphHeadRef) (most : Nat) (staged : StagedTransition rt)
    (prepared : PreparedTransition rt) : Prop where
  request : GoodRequest s first rest preHead
  staged_ok : stageTransition s first rest most = .ok staged
  combined : combinedPatch first rest
    ((first :: rest).flatMap (·.ops) ++ staged.generatedOps.map Prod.fst)
    (staged.trace preHead (first :: rest)) = .ok prepared.patch
  applied : applyValidPatch s prepared.patch = .ok prepared.graph
  same : prepared.graph.same staged.final = true

theorem prepareValidated_ok (s : GraphState rt) (patches : List (Patch rt))
    (preHead : Option GraphHeadRef) (most : Nat) (prepared : PreparedTransition rt)
    (h : prepareValidated s patches preHead most = .ok prepared) :
    ∃ first rest staged, patches = first :: rest ∧
      PreparedFrom s first rest (preHead.getD { revision := s.revision }) most staged prepared := by
  unfold prepareValidated at h
  cases patches with
  | nil => cases h
  | cons first rest =>
      simp only [bind, Except.bind, pure, Except.pure] at h
      split at h
      next => cases h
      next hrequest =>
        split at h
        next => cases h
        next staged hstaged =>
          split at h
          next => cases h
          next combined hcombined =>
            split at h
            next => cases h
            next candidate hcandidate =>
              split at h
              next hsame =>
                cases h
                rw [sourceActions_ops] at hcombined
                exact ⟨first, rest, staged, rfl, checkRequest_ok _ _ _ _ hrequest, hstaged,
                  hcombined, hcandidate, hsame⟩
              next => cases h

end RcpGraph
