import RcpGraph.History.Replay

/-!
The operations of a replayed history one by one, each with the graph before and
after it. Receipts and the stamps at the end of a patch leave the nodes alone, so
the steps of a history are linked from the empty graph to the one that replay
returns.
-/

namespace RcpGraph

variable {rt : Runtime}

/-- One operation of a replayed patch between two graphs. -/
structure OpStep (rt : Runtime) where
  patch : Patch rt
  op : GraphOperation rt
  before : GraphState rt
  after : GraphState rt
  /-- The operation is generated, not one that initiates the patch. -/
  generated : Bool

/-- The operations a patch runs, from one index on. -/
def opSteps (p : Patch rt) (generated : List Nat) :
    List (GraphOperation rt × Nat) → GraphState rt → List (OpStep rt)
  | [], _ => []
  | (op, i) :: rest, s =>
      match applyOp p (decide (i ∈ generated)) op s with
      | .error _ => []
      | .ok t => ⟨p, op, s, t, decide (i ∈ generated)⟩ :: opSteps p generated rest t

/-- The steps of an accepted patch. -/
def Patch.steps (p : Patch rt) (s : GraphState rt) : List (OpStep rt) :=
  opSteps p p.generatedIndexes p.ops.zipIdx s

/-- A replay from an empty project: its accepted patches, their steps and the graph. -/
inductive ReplayRun : List (Patch rt) → List (OpStep rt) → GraphState rt → Prop
  | initial (scope : List String) : ReplayRun [] [] (.initial rt scope)
  | accept (ps : List (Patch rt)) (steps : List (OpStep rt)) (s t : GraphState rt) (p : Patch rt)
      (vc : ValidationContext rt) (messages : List ValidationMessage)
      (before : ReplayRun ps steps s) (valid : rejected (validatePatch s p vc) = false)
      (applied : applyValidPatch s p = .ok t) :
      ReplayRun (ps ++ [p]) (steps ++ p.steps s) (t.record messages)
  | skip (ps : List (Patch rt)) (steps : List (OpStep rt)) (s : GraphState rt) (p : Patch rt)
      (before : ReplayRun ps steps s) : ReplayRun ps steps (s.skip p)

/-- What holds of every step of an accepted patch. -/
structure OpStep.Sound (st : OpStep rt) : Prop where
  runs : applyOp st.patch st.generated st.op st.before = .ok st.after
  keyed : st.before.Keyed
  fresh : ∀ nodes, st.op = .createNodes nodes → ∀ raw ∈ nodes, raw.id ∉ st.before.nodes
  author : st.patch.author = some (if st.patch.kind = .approval then .human else .agent)
  guidance : st.generated = true → validateGuidanceOperation st.op = .ok ()

/-- Steps that follow one another, up to what does not touch nodes. -/
inductive Linked : Dict String (ProjectNode rt) → List (OpStep rt) → Dict String (ProjectNode rt) →
    Prop
  | nil (d : Dict String (ProjectNode rt)) : Linked d [] d
  | cons (st : OpStep rt) (steps : List (OpStep rt)) (d : Dict String (ProjectNode rt))
      (tail : Linked st.after.nodes steps d) : Linked st.before.nodes (st :: steps) d

theorem Linked.append {d e f : Dict String (ProjectNode rt)} {xs ys : List (OpStep rt)}
    (h : Linked d xs e) (h' : Linked e ys f) : Linked d (xs ++ ys) f := by
  induction h with
  | nil d => exact h'
  | cons st steps d tail ih => exact .cons st (steps ++ ys) f (ih h')

section Plain

variable (p : Patch rt)

/-- The steps of operations that are all generated, or none of them. -/
def plainSteps (b : Bool) : List (GraphOperation rt) → GraphState rt → List (OpStep rt)
  | [], _ => []
  | op :: rest, s =>
      match applyOp p b op s with
      | .error _ => []
      | .ok t => ⟨p, op, s, t, b⟩ :: plainSteps b rest t

theorem plainSteps_cons (b : Bool) (op : GraphOperation rt) (rest : List (GraphOperation rt))
    (s t : GraphState rt) (h : applyOp p b op s = .ok t) :
    plainSteps p b (op :: rest) s = ⟨p, op, s, t, b⟩ :: plainSteps p b rest t := by
  simp [plainSteps, h]

theorem opSteps_zipIdx (generated : List Nat) (b : Bool) (ops : List (GraphOperation rt))
    (start : Nat) (h : ∀ i, start ≤ i → i < start + ops.length → decide (i ∈ generated) = b)
    (s : GraphState rt) :
    opSteps p generated (ops.zipIdx start) s = plainSteps p b ops s := by
  induction ops generalizing start s with
  | nil => rfl
  | cons op ops ih =>
      have hstart : decide (start ∈ generated) = b := h start (Nat.le_refl _) (by simp)
      rw [List.zipIdx_cons, opSteps, plainSteps, hstart]
      cases applyOp p b op s with
      | error text => rfl
      | ok t =>
          have htail : ∀ i, start + 1 ≤ i → i < start + 1 + ops.length →
              decide (i ∈ generated) = b := by
            intro i hlow hhigh
            apply h i (by omega)
            rw [List.length_cons]
            omega
          simp only [ih (start + 1) htail t]

theorem opSteps_append (generated : List Nat) (xs ys : List (GraphOperation rt × Nat))
    (s t : GraphState rt)
    (h : Steps.run (fun (op, i) => applyOp p (decide (i ∈ generated)) op) xs s = .ok t) :
    opSteps p generated (xs ++ ys) s = opSteps p generated xs s ++ opSteps p generated ys t := by
  induction xs generalizing s with
  | nil =>
      cases h
      rfl
  | cons x xs ih =>
      obtain ⟨u, hu, hrun⟩ := (Steps.run_cons_ok _ _ _ _ _).mp h
      simp only at hu
      rw [List.cons_append, opSteps, opSteps, hu]
      simp only [ih u hrun, List.cons_append]

/-- The steps of a recorded transition: source operations, then generated ones. -/
theorem steps_transition (trace : TransitionTrace) (hp : p.transition = some trace)
    (s u : GraphState rt) (k : Nat) (hk : k ≤ p.ops.length)
    (hg : trace.generatedActions.map (·.operationIndex) = List.range' k (p.ops.length - k))
    (h : Steps.run (applyOp p false) (p.ops.take k) s = .ok u) :
    p.steps s = plainSteps p false (p.ops.take k) s ++ plainSteps p true (p.ops.drop k) u := by
  have hgen : p.generatedIndexes = List.range' k (p.ops.length - k) := by
    simp [Patch.generatedIndexes, hp, hg]
  have hzip : p.ops.zipIdx =
      (p.ops.take k).zipIdx ++ (p.ops.drop k).zipIdx (0 + (p.ops.take k).length) := by
    rw [← List.zipIdx_append, List.take_append_drop]
  have hsource : ∀ i, 0 ≤ i → i < 0 + (p.ops.take k).length →
      decide (i ∈ List.range' k (p.ops.length - k)) = false := by
    intro i hi hlt
    simp only [List.length_take, Nat.zero_add] at hlt
    simp only [decide_eq_false_iff_not, List.mem_range'_1]
    omega
  have hgenerated : ∀ i, 0 + (p.ops.take k).length ≤ i →
      i < 0 + (p.ops.take k).length + (p.ops.drop k).length →
      decide (i ∈ List.range' k (p.ops.length - k)) = true := by
    intro i hi hlt
    simp only [List.length_take, List.length_drop, Nat.zero_add] at hi hlt
    simp only [decide_eq_true_eq, List.mem_range'_1]
    omega
  have hrun : Steps.run (fun (op, i) => applyOp p (decide (i ∈ List.range' k (p.ops.length - k))) op)
      (p.ops.take k).zipIdx s = .ok u := by
    rw [run_zipIdx p _ false _ _ hsource]
    exact h
  rw [Patch.steps, hgen, hzip, opSteps_append p _ _ _ s u hrun,
    opSteps_zipIdx p _ false _ _ hsource, opSteps_zipIdx p _ true _ _ hgenerated]

/-- The steps of a run are linked. -/
theorem linked_opSteps (generated : List Nat) (ops : List (GraphOperation rt × Nat))
    (s t : GraphState rt)
    (h : Steps.run (fun (op, i) => applyOp p (decide (i ∈ generated)) op) ops s = .ok t) :
    Linked s.nodes (opSteps p generated ops s) t.nodes := by
  induction ops generalizing s with
  | nil =>
      cases h
      exact .nil _
  | cons x ops ih =>
      obtain ⟨u, hu, hrun⟩ := (Steps.run_cons_ok _ _ _ _ _).mp h
      simp only at hu
      rw [opSteps, hu]
      exact .cons ⟨p, x.1, s, u, decide (x.2 ∈ generated)⟩ _ _ (ih u hrun)

end Plain

section Accepted

/-- A trace that checks out names at least one initiating operation. -/
theorem initiating_ne_nil (s : GraphState rt) (p : Patch rt) (trace : TransitionTrace)
    (sources : List (Patch rt)) (h : validateTransitionTrace s p trace = .ok sources) :
    sources.flatMap (·.ops) ≠ [] := by
  simp only [validateTransitionTrace, bind, Except.bind, pure, Except.pure] at h
  split at h
  next => cases h
  split at h
  next => cases h
  split at h
  next => cases h
  split at h
  next => cases h
  next hactions =>
    split at h
    next => cases h
    split at h
    next => cases h
    split at h
    next => cases h
    split at h
    next => cases h
    split at h
    next => cases h
    cases h
    intro hops
    apply hactions
    simp only [List.flatMap_eq_nil_iff] at hops
    simp only [sourceActions, List.flatMap_eq_nil_iff, List.map_eq_nil_iff]
    exact hops

/-- The steps of an accepted patch: those of its judged sources, then generated ones. -/
theorem accepted_steps (s t : GraphState rt) (p : Patch rt) (vc : ValidationContext rt)
    (request : PatchRequest) (hv : rejected (validatePatch s p vc request) = false)
    (ht : applyValidPatch s p = .ok t) :
    ∃ sources generated u v, JudgedRun (Judged vc.mode) p sources s u ∧
      p.steps s =
        plainSteps p false (sources.flatMap (·.ops)) s ++ plainSteps p true generated u ∧
      Steps.run (applyOp p true) generated u = .ok v ∧
      (∀ op ∈ generated, validateGuidanceOperation op = .ok ()) ∧
      (generated ≠ [] → sources.flatMap (·.ops) ≠ []) := by
  cases htrace : p.transition with
  | none =>
      simp only [validatePatch, htrace, validateSourcePatch, rejected_settleIssues] at hv
      obtain ⟨u, hu, -⟩ := applyValidPatch_source p htrace s t ht
      refine ⟨[p], [], u, u, ?_, ?_, rfl, by simp, by simp⟩
      · exact .cons s s u u p [] rfl htrace (.refl s) ⟨vc, request, rfl, hv⟩ hu (.nil u)
      · rw [Patch.steps, generatedIndexes_of_source p htrace,
          opSteps_zipIdx p [] false p.ops 0 (by simp)]
        simp [plainSteps]
  | some trace =>
      simp only [validatePatch, htrace, validateTransitionPatch] at hv
      split at hv
      next => simp [rejected] at hv
      next hmode =>
        cases hsplit : validateTransitionTrace s p trace with
        | error text => simp [hsplit, rejected, transitionInvalid] at hv
        | ok sources =>
            simp only [hsplit] at hv
            have split := validateTransitionTrace_ok s p trace sources hsplit
            have hsources : ∀ q ∈ sources, q.applies = p.applies ∧ q.transition = none := by
              intro q hq
              rw [split.sources_eq] at hq
              obtain ⟨g, -, rfl⟩ := List.mem_map.mp hq
              exact ⟨rfl, rfl⟩
            obtain ⟨u, hu⟩ :=
              judgedRun_of_validateSources s.revision p vc sources s s hsources (.refl s) hv
            have hk : (sources.flatMap (·.ops)).length ≤ p.ops.length := by
              rw [split.source_ops]
              simp
            obtain ⟨u', v, hu', hv', -⟩ :=
              (applyValidPatch_transition p trace htrace s t _ hk split.generated_indexes).mp ht
            have hsteps := steps_transition p trace htrace s u' _ hk split.generated_indexes hu'
            rw [← split.source_ops] at hsteps hu'
            rw [hu.run_sources] at hu'
            cases hu'
            exact ⟨sources, _, u, v, hu, hsteps, hv', split.guidance,
              fun _ => initiating_ne_nil s p trace sources hsplit⟩

/-- An accepted source patch with operations has the author its kind calls for. -/
theorem author_of_judged (mode : Mode) (here : GraphState rt) (q : Patch rt)
    (h : Judged mode here q) (hops : q.ops ≠ []) :
    q.author = some (if q.kind = .approval then .human else .agent) := by
  obtain ⟨vc, request, -, h⟩ := h
  obtain ⟨henvelope, -, -, -⟩ := patchIssues_accepted here q vc request h
  simp only [envelopeIssues, refused_append, Bool.or_eq_false_iff] at henvelope
  have hauthor := henvelope.1.1.1.1.1.1.1.2
  have hidentity := henvelope.1.1.1.1.1.2
  by_cases hkind : q.kind = .identity
  · simp only [identityShapeIssues, hkind, ne_eq, not_true, if_false, refused_append,
      Bool.or_eq_false_iff, refused_rejectIf] at hidentity
    simp [hops] at hidentity
  · simp only [validateAuthorship, hkind, if_false, refused_append, Bool.or_eq_false_iff,
      refused_rejectIf] at hauthor
    simpa using hauthor.1

theorem author_of_judgedRun {mode : Mode} {p : Patch rt} {sources : List (Patch rt)}
    {s u : GraphState rt} (h : JudgedRun (Judged mode) p sources s u)
    (hops : sources.flatMap (·.ops) ≠ []) :
    p.author = some (if p.kind = .approval then .human else .agent) := by
  induction h with
  | nil s => exact absurd rfl hops
  | cons here s t u source rest envelope plain alike judged run tail ih =>
      by_cases hsource : source.ops = []
      · apply ih
        simpa [hsource] using hops
      · have hauthor := author_of_judged mode here source judged hsource
        simp only [Patch.applies, Prod.mk.injEq] at envelope
        rw [← envelope.2.1, ← envelope.2.2.2.1]
        exact hauthor

/-- Created nodes of judged operations are new. -/
theorem fresh_of_judgedRun {mode : Mode} {p : Patch rt} {sources : List (Patch rt)}
    {s u : GraphState rt} (h : JudgedRun (Judged mode) p sources s u) :
    ∀ st ∈ plainSteps p false (sources.flatMap (·.ops)) s, ∀ nodes, st.op = .createNodes nodes →
      ∀ raw ∈ nodes, raw.id ∉ st.before.nodes := by
  -- A step is either still to come or already checked.
  have key := h.invariant
    (fun rest t => ∀ st ∈ plainSteps p false (sources.flatMap (·.ops)) s,
      st ∈ plainSteps p false (rest.flatMap (·.ops)) t ∨
        ∀ nodes, st.op = .createNodes nodes → ∀ raw ∈ nodes, raw.id ∉ st.before.nodes) ?_
    (fun st hst => .inl hst)
  · intro st hst
    rcases key st hst with hnone | hfresh
    · cases hnone
    · exact hfresh
  · intro here s' t' source rest happ hplain ha hj hrun hs st hst
    rcases hs st hst with hcome | hdone
    · obtain ⟨vc, request, -, hissues⟩ := hj
      have hsource := patchIssues_run here source vc request hissues p happ hplain
        (fun ops t => ∀ st ∈ plainSteps p false (source.ops ++ rest.flatMap (·.ops)) s',
          st ∈ plainSteps p false (ops ++ rest.flatMap (·.ops)) t ∨
            ∀ nodes, st.op = .createNodes nodes → ∀ raw ∈ nodes, raw.id ∉ st.before.nodes)
        ?_ s' t' ha hrun (fun st hst => .inl hst)
      · exact hsource st hcome
      · intro op ops ctx s t hop hctx hctxa hrules happly hstep st hst
        rcases hstep st hst with hcome | hdone
        · rw [List.cons_append, plainSteps_cons p false op _ s t happly] at hcome
          rcases List.mem_cons.mp hcome with rfl | hcome
          · refine .inr fun nodes hnodes raw hraw => ?_
            simp only at hnodes
            subst hnodes
            have hnew := created_new ctx nodes hrules raw hraw
            rw [hctxa.nodes] at hnew
            exact hnew
          · exact .inl hcome
        · exact .inr hdone
    · exact .inr hdone

theorem runs_plainSteps (p : Patch rt) (b : Bool) (ops : List (GraphOperation rt))
    (s : GraphState rt) (hs : s.Keyed) :
    ∀ st ∈ plainSteps p b ops s, st.patch = p ∧ st.generated = b ∧
      applyOp p b st.op st.before = .ok st.after ∧ st.before.Keyed ∧ st.op ∈ ops := by
  induction ops generalizing s with
  | nil => intro st hst; cases hst
  | cons op ops ih =>
      intro st hst
      rw [plainSteps] at hst
      cases happly : applyOp p b op s with
      | error text => simp [happly] at hst
      | ok t =>
          simp only [happly] at hst
          rcases List.mem_cons.mp hst with rfl | hst
          · exact ⟨rfl, rfl, happly, hs, List.mem_cons_self⟩
          · obtain ⟨hp, hb, hrun, hkeyed, hop⟩ := ih t (keyed_applyOp p b op s t hs happly) st hst
            exact ⟨hp, hb, hrun, hkeyed, List.mem_cons_of_mem _ hop⟩

/-- A generated operation creates nothing. -/
theorem not_createNodes_of_guidance (op : GraphOperation rt)
    (h : validateGuidanceOperation op = .ok ()) (nodes : List (RawNode rt)) :
    op ≠ .createNodes nodes := by
  intro hop
  subst hop
  simp [validateGuidanceOperation] at h

/-- Every step of an accepted patch is sound, and the steps are linked. -/
theorem steps_sound (s t : GraphState rt) (p : Patch rt) (vc : ValidationContext rt)
    (request : PatchRequest) (hs : s.Keyed)
    (hv : rejected (validatePatch s p vc request) = false) (ht : applyValidPatch s p = .ok t) :
    (∀ st ∈ p.steps s, st.Sound ∧ st.patch = p) ∧ Linked s.nodes (p.steps s) t.nodes := by
  constructor
  · obtain ⟨sources, generated, u, v, hjudged, hsteps, hv, hguidance, hsources⟩ :=
      accepted_steps s t p vc request hv ht
    have hu := keyed_run _ false _ s u hs hjudged.run_sources
    have hauthor : ∀ st ∈ p.steps s,
        p.author = some (if p.kind = .approval then .human else .agent) := by
      intro st hst
      apply author_of_judgedRun hjudged
      intro hnone
      have hgenerated : generated = [] := by
        by_contra h
        exact hsources h hnone
      rw [hsteps, hnone, hgenerated] at hst
      cases hst
    intro st hst
    have ha := hauthor st hst
    rw [hsteps] at hst
    rcases List.mem_append.mp hst with hst | hst
    · obtain ⟨rfl, hsource, hrun, hkeyed, hop⟩ := runs_plainSteps p false _ s hs st hst
      refine ⟨⟨?_, hkeyed, fresh_of_judgedRun hjudged st hst, ha, ?_⟩, rfl⟩
      · rw [hsource]
        exact hrun
      · intro hgenerated
        rw [hsource] at hgenerated
        cases hgenerated
    · obtain ⟨rfl, hgenerated, hrun, hkeyed, hop⟩ := runs_plainSteps p true _ u hu st hst
      refine ⟨⟨?_, hkeyed, fun nodes hnodes => ?_, ha, fun _ => hguidance _ hop⟩, rfl⟩
      · rw [hgenerated]
        exact hrun
      · exact absurd hnodes (not_createNodes_of_guidance st.op (hguidance _ hop) nodes)
  · obtain ⟨v, hrun, rfl⟩ := applyPatch_ok p _ s t ht
    have hlinked := linked_opSteps p _ _ s v hrun
    rw [← (relayer_alike (p.ops.flatMap createdEdgeIds) v).nodes] at hlinked
    exact hlinked

end Accepted

theorem keyed_applyValidPatch (s t : GraphState rt) (p : Patch rt) (hs : s.Keyed)
    (h : applyValidPatch s p = .ok t) : t.Keyed := by
  obtain ⟨v, hrun, rfl⟩ := applyPatch_ok p _ s t h
  have hv := Steps.run_invariant _ GraphState.Keyed p.ops.zipIdx
    (fun x _ s t hs happly => keyed_applyOp p _ x.1 s t hs happly) s v hs hrun
  exact keyed_of_nodes _ v (relayer_alike _ v).nodes hv

/-- The steps of a replayed history are sound and linked from the empty graph. -/
theorem ReplayRun.sound {ps : List (Patch rt)} {steps : List (OpStep rt)} {s : GraphState rt}
    (h : ReplayRun ps steps s) :
    s.Keyed ∧ (∀ st ∈ steps, st.Sound ∧ st.patch ∈ ps) ∧ Linked .empty steps s.nodes := by
  induction h with
  | initial scope =>
      refine ⟨?_, ?_, .nil _⟩
      · intro id n hn
        cases hn
      · intro st hst
        cases hst
  | accept ps steps s t p vc messages before valid applied ih =>
      obtain ⟨hkeyed, hsound, hlinked⟩ := ih
      obtain ⟨hnew, hnext⟩ := steps_sound s t p vc {} hkeyed valid applied
      refine ⟨keyed_applyValidPatch s t p hkeyed applied, ?_, hlinked.append hnext⟩
      intro st hst
      rcases List.mem_append.mp hst with hst | hst
      · exact ⟨(hsound st hst).1, List.mem_append_left _ (hsound st hst).2⟩
      · exact ⟨(hnew st hst).1, by simp [(hnew st hst).2]⟩
  | skip ps steps s p before ih => exact ih

/-- A replay in which every patch has to pass. -/
def replayAll (vc : ValidationContext rt) :
    List (Patch rt) → GraphState rt → Option (List (OpStep rt) × GraphState rt)
  | [], s => some ([], s)
  | p :: ps, s =>
      if rejected (validatePatch s p vc) then none
      else
        match applyValidPatch s p with
        | .error _ => none
        | .ok t => (replayAll vc ps t).map fun r => (p.steps s ++ r.1, r.2)

theorem replayRun_of_replayAll (vc : ValidationContext rt) (ps qs : List (Patch rt))
    (steps : List (OpStep rt)) (s : GraphState rt) (r : List (OpStep rt) × GraphState rt)
    (hs : ReplayRun qs steps s) (h : replayAll vc ps s = some r) :
    ReplayRun (qs ++ ps) (steps ++ r.1) r.2 := by
  induction ps generalizing qs steps s r with
  | nil =>
      cases h
      simpa using hs
  | cons p ps ih =>
      rw [replayAll] at h
      split at h
      next => cases h
      next hvalid =>
        cases happlied : applyValidPatch s p with
        | error text => simp [happlied] at h
        | ok t =>
            simp only [happlied, Option.map_eq_some_iff] at h
            obtain ⟨r', hr', rfl⟩ := h
            have hnext := ReplayRun.accept qs steps s t p vc [] hs (by simpa using hvalid) happlied
            have hrecord : t.record [] = t := by simp [GraphState.record]
            rw [hrecord] at hnext
            have hrest := ih (qs ++ [p]) (steps ++ p.steps s) t r' hnext hr'
            rw [List.append_assoc, List.append_assoc] at hrest
            exact hrest

end RcpGraph
