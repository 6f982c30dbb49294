import RcpGraph.Core.Effects
import RcpGraph.Core.Prepared
import RcpGraph.History.Append
import RcpGraph.History.Replay

/-!
Appends as application sees them. The gates judge each source patch on the graph
its predecessors staged, the transition manager applies all of them at once; the
operations meet alike graphs, so that what the gates refuse cannot happen.
-/

namespace RcpGraph

variable {rt : Runtime}

/-- A source patch both gates let through on a graph, from one of the raw patches. -/
def Admitted (project : Project rt) (revision : Nat) (raws : List (Patch rt))
    (here : GraphState rt) (p : Patch rt) : Prop :=
  ∃ raw ∈ raws, p = (admitPatch project here { raw with revision := revision }).1 ∧
    rejected (admitPatch project here { raw with revision := revision }).2 = false

theorem Admitted.mono {project : Project rt} {revision : Nat} {raws raws' : List (Patch rt)}
    (hsub : ∀ raw ∈ raws, raw ∈ raws') (here : GraphState rt) (p : Patch rt)
    (h : Admitted project revision raws here p) : Admitted project revision raws' here p := by
  obtain ⟨raw, hraw, hp, hok⟩ := h
  exact ⟨raw, hsub raw hraw, hp, hok⟩

theorem mode_admissionContext (project : Project rt) (s : GraphState rt) (p : Patch rt) :
    (project.admissionContext s p).mode = .admission := by
  simp only [Project.admissionContext]
  split
  · split <;> rfl
  · rfl

/-- What the two gates accepted. -/
theorem Admitted.gates {project : Project rt} {revision : Nat} {raws : List (Patch rt)}
    {here : GraphState rt} {p : Patch rt} (h : Admitted project revision raws here p)
    (hplain : p.transition = none) :
    ∃ raw ∈ raws, p = preparePatchBookkeeping here { raw with revision := revision } ∧
      rejected (validatePermissions here { raw with revision := revision }) = false ∧
      refused (patchIssues here p (project.admissionContext here p)
        { writer := some (Writer.ofPatch { raw with revision := revision }) }) = false := by
  obtain ⟨raw, hraw, rfl, hok⟩ := h
  simp only [admitPatch, rejected_append, Bool.or_eq_false_iff] at hok
  obtain ⟨hpermissions, hvalid⟩ := hok
  simp only [validatePatch, show (preparePatchBookkeeping here
    { raw with revision := revision }).transition = none from hplain, validateSourcePatch,
    rejected_settleIssues] at hvalid
  exact ⟨raw, hraw, rfl, hpermissions, hvalid⟩

/-- An admitted patch passed validation in admission. -/
theorem Admitted.judged {project : Project rt} {revision : Nat} {raws : List (Patch rt)}
    {here : GraphState rt} {p : Patch rt} (h : Admitted project revision raws here p)
    (hplain : p.transition = none) : Judged .admission here p := by
  obtain ⟨raw, -, -, -, hvalid⟩ := h.gates hplain
  exact ⟨_, _, mode_admissionContext project here p, hvalid⟩

/-- Bookkeeping rewrites only filed Proposals and glossary terms. -/
theorem mem_prepareOperations (s : GraphState rt) (p : Patch rt) (ops : List (GraphOperation rt))
    (spellings : Dict String String) (op : GraphOperation rt)
    (h : op ∈ prepareOperations s p ops spellings) :
    op ∈ ops ∨ (∃ proposals, op = .createProposals proposals) ∨
      ∃ terms, op = .upsertGlossary terms := by
  induction ops generalizing spellings with
  | nil => cases h
  | cons o ops ih =>
      have tail : ∀ sp, op ∈ prepareOperations s p ops sp →
          op ∈ o :: ops ∨ (∃ proposals, op = .createProposals proposals) ∨
            ∃ terms, op = .upsertGlossary terms := by
        intro sp hop
        rcases ih sp hop with hop | hop
        · exact .inl (List.mem_cons_of_mem _ hop)
        · exact .inr hop
      cases o with
      | upsertGlossary terms =>
          rcases List.mem_cons.mp h with rfl | h
          · exact .inr (.inr ⟨_, rfl⟩)
          · exact tail _ h
      | createProposals proposals =>
          rcases List.mem_cons.mp h with rfl | h
          · exact .inr (.inl ⟨_, rfl⟩)
          · exact tail _ h
      | _ =>
          rcases List.mem_cons.mp h with rfl | h
          · exact .inl List.mem_cons_self
          · exact tail _ h

theorem createProposal_finalize (p : Patch rt) (staged : GraphState rt) (raw : NewProposal rt)
    (s : GraphState rt) :
    createProposal p (finalizeProposal staged raw) s = createProposal p raw s := by
  unfold finalizeProposal
  cases staged.proposals.get? raw.proposal.id <;> rfl

theorem applyOp_finalize (p : Patch rt) (staged : GraphState rt) (op : GraphOperation rt) :
    applyOp p false (finalizeOperation staged op) = applyOp p false op := by
  funext s
  cases op with
  | createProposals proposals =>
      simp only [finalizeOperation, applyOp, List.foldl_map, createProposal_finalize]
  | _ => rfl

/-- Finalizing changes only what filing computes anew. -/
theorem run_finalize (p q : Patch rt) (staged s : GraphState rt) :
    Steps.run (applyOp p false) (finalizePatchBookkeeping q staged).ops s =
      Steps.run (applyOp p false) q.ops s := by
  rw [finalizePatchBookkeeping, Steps.run_map]
  exact Steps.run_congr _ _ q.ops (fun op _ s => by rw [applyOp_finalize]) s

/-- Operations as the gates judged them, and as they are passed on. -/
def Finalized (op final : GraphOperation rt) : Prop :=
  ∃ staged : GraphState rt, final = finalizeOperation staged op

theorem createdEdgeIds_finalized (ops finals : List (GraphOperation rt))
    (h : List.Forall₂ Finalized ops finals) :
    finals.flatMap createdEdgeIds = ops.flatMap createdEdgeIds := by
  induction h with
  | nil => rfl
  | cons hop _ ih =>
      obtain ⟨staged, rfl⟩ := hop
      rw [List.flatMap_cons, List.flatMap_cons, ih]
      congr 1
      cases ‹GraphOperation rt› <;> rfl

/-- The gate loop is a judged run of the patches it passes on. -/
theorem judgedRun_of_admitSources (project : Project rt) (base revision : Nat) (p : Patch rt)
    (raws : List (Patch rt)) (staged s : GraphState rt) (sources : AdmittedSources rt)
    (ha : Alike { staged with revision := base } s)
    (henv : ∀ q ∈ sources.patches, q.applies = p.applies ∧ q.transition = none)
    (h : admitSources project base revision raws staged = .ok sources) :
    ∃ admitted u, JudgedRun (Admitted project revision raws) p admitted s u ∧
      Steps.run (applyOp p false) (sources.patches.flatMap (·.ops)) s = .ok u ∧
      admitted.length = raws.length ∧
      List.Forall₂ Finalized (admitted.flatMap (·.ops)) (sources.patches.flatMap (·.ops)) := by
  induction raws generalizing staged s sources with
  | nil =>
      cases h
      exact ⟨[], s, .nil s, rfl, rfl, .nil⟩
  | cons raw raws ih =>
      simp only [admitSources] at h
      split at h
      next => cases h
      next hok =>
        split at h
        next => cases h
        next candidate hcandidate =>
          split at h
          next => cases h
          next =>
            split at h
            next => cases h
            next tail htail =>
              cases h
              obtain ⟨happ, hplain⟩ := henv _ List.mem_cons_self
              change (admitPatch project { staged with revision := base }
                { raw with revision := revision }).1.applies = p.applies at happ
              change (admitPatch project { staged with revision := base }
                { raw with revision := revision }).1.transition = none at hplain
              obtain ⟨t, ht, hat⟩ := applyValidPatch_alike _ p hplain happ _ s candidate ha
                hcandidate
              obtain ⟨admitted, u, hrun, hops, hlength, hfinal⟩ :=
                ih { candidate with revision := base } t tail hat
                  (fun q hq => henv q (List.mem_cons_of_mem _ hq)) htail
              have hhead : Admitted project revision (raw :: raws) { staged with revision := base }
                  (admitPatch project { staged with revision := base }
                    { raw with revision := revision }).1 :=
                ⟨raw, List.mem_cons_self, rfl, by simpa using hok⟩
              have htail' : JudgedRun (Admitted project revision (raw :: raws)) p admitted t u :=
                hrun.mono fun here q hq => hq.mono (fun r hr => List.mem_cons_of_mem _ hr) here q
              refine ⟨_, u, .cons _ s t u _ admitted happ hplain ha hhead ht htail', ?_, by
                rw [List.length_cons, List.length_cons, hlength], ?_⟩
              · rw [List.flatMap_cons, Steps.run_append_ok]
                exact ⟨t, by rw [run_finalize]; exact ht, hops⟩
              · rw [List.flatMap_cons, List.flatMap_cons]
                refine List.rel_append ?_ hfinal
                rw [finalizePatchBookkeeping, List.forall₂_map_right_iff, List.forall₂_same]
                exact fun op _ => ⟨candidate, rfl⟩

theorem MarksGuidance.congr {s t : GraphState rt} (h : s.nodes = t.nodes) (op : GraphOperation rt)
    (hop : op.MarksGuidance s) : op.MarksGuidance t := by
  obtain ⟨u, hu, htype, hrest⟩ := hop
  refine ⟨u, hu, ?_, hrest⟩
  rw [GraphState.nodeType?, ← h]
  exact htype

/-- Generated operations mark guidance, also on a graph with the same nodes. -/
theorem marks_of_guidance (w u : GraphState rt) (r : Nat) (timeline : List (TimelineEntry rt))
    (actions : List (GraphOperation rt)) (generated : List (GraphOperation rt × Nat))
    (hnodes : w.nodes = u.nodes)
    (h : generated = guidanceActions { w with revision := r } timeline actions) :
    ∀ op ∈ generated.map Prod.fst, op.MarksGuidance u := by
  intro op hop
  obtain ⟨g, hg, rfl⟩ := List.mem_map.mp hop
  rw [h] at hg
  exact MarksGuidance.congr hnodes _ (marksGuidance_of_mem _ _ _ g hg)

theorem createdEdgeIds_marks (s : GraphState rt) (ops : List (GraphOperation rt))
    (h : ∀ op ∈ ops, op.MarksGuidance s) : ops.flatMap createdEdgeIds = [] := by
  rw [List.flatMap_eq_nil_iff]
  intro op hop
  obtain ⟨u, rfl, -⟩ := h op hop
  rfl

theorem generatedActions_indexes (start : Nat) (ops : List (GraphOperation rt × Nat)) :
    (generatedRefs start ops).map (·.operationIndex) = List.range' start ops.length := by
  rw [generatedRefs, List.map_map]
  apply List.ext_getElem
  · simp
  · intro i h1 h2
    simp

/-- The patch of a staged transition, applied as a whole. -/
theorem applyValidPatch_staged (staged : StagedTransition rt) (preHead : GraphHeadRef)
    (patches : List (Patch rt)) (p : Patch rt)
    (hops : p.ops = patches.flatMap (·.ops) ++ staged.generatedOps.map Prod.fst)
    (htrace : p.transition = some (staged.trace preHead patches)) (s t : GraphState rt) :
    applyValidPatch s p = .ok t ↔
      ∃ u v, Steps.run (applyOp p false) (patches.flatMap (·.ops)) s = .ok u ∧
        Steps.run (applyOp p true) (staged.generatedOps.map Prod.fst) u = .ok v ∧
        t = stamp p (relayer (p.ops.flatMap createdEdgeIds) v) := by
  rw [applyValidPatch_transition p _ htrace s t (patches.flatMap (·.ops)).length
    (by rw [hops]; simp) (by
      rw [hops, List.length_append, Nat.add_sub_cancel_left, List.length_map]
      simp only [StagedTransition.trace, sourceActions_ops]
      exact generatedActions_indexes _ _)]
  simp only [hops, List.take_left, List.drop_left]

/-- A committed append: judged source patches, then marks on the guidance of Experiments. -/
structure AppendedRun (project : Project rt) (revision : Nat) (raws : List (Patch rt))
    (prepared : PreparedTransition rt) (admitted : List (Patch rt))
    (generated : List (GraphOperation rt)) (s u v : GraphState rt) : Prop where
  judged : JudgedRun (Admitted project revision raws) prepared.patch admitted s u
  marks : ∀ op ∈ generated, op.MarksGuidance u
  marked : Steps.run (applyOp prepared.patch true) generated u = .ok v
  count : admitted.length = raws.length
  ahead : s.revision < prepared.patch.revision
  finalized : ∃ finals, List.Forall₂ Finalized (admitted.flatMap (·.ops)) finals ∧
    prepared.patch.ops = finals ++ generated
  created : prepared.patch.ops.flatMap createdEdgeIds =
    (admitted.flatMap (·.ops)).flatMap createdEdgeIds
  graph : prepared.graph = stamp prepared.patch
    (relayer (prepared.patch.ops.flatMap createdEdgeIds) v)

/-- A committed append with its staged run: the timeline of the source operations, and the
operations that the guidance rule generates at its end. -/
theorem appended_staged (project : Project rt) (s : GraphState rt) (revision : Nat)
    (raws : List (Patch rt)) (sources : AdmittedSources rt) (preHead : Option GraphHeadRef)
    (most : Nat) (prepared : PreparedTransition rt)
    (hgates : admitSources project s.revision revision raws s = .ok sources)
    (hprepared : prepareValidated s sources.patches preHead most = .ok prepared) :
    ∃ first rest staged w admitted u v, sources.patches = first :: rest ∧
      stageTransition s first rest most = .ok staged ∧
      applyTimeline 0 (sourceActions sources.patches) s = .ok (staged.initiating, w) ∧
      staged.generatedOps = guidanceActions { w with revision := first.revision }
        staged.initiating (sources.patches.flatMap (·.ops)) ∧ Alike w u ∧
      applyGenerated first (sourceActions sources.patches).length staged.generatedOps
        { w with revision := first.revision } = .ok (staged.generated, staged.final) ∧
      first.applies = prepared.patch.applies ∧
      prepared.patch.ops =
        sources.patches.flatMap (·.ops) ++ staged.generatedOps.map Prod.fst ∧
      AppendedRun project revision raws prepared admitted (staged.generatedOps.map Prod.fst)
        s u v := by
  obtain ⟨first, rest, staged, hsources, parts⟩ :=
    prepareValidated_ok s sources.patches preHead most prepared hprepared
  obtain ⟨cursors, -, hpatch⟩ := combinedPatch_ok _ _ _ _ _ parts.combined
  have hfirst : first.applies = prepared.patch.applies := by rw [hpatch]; rfl
  have henv := parts.request.envelope prepared.patch hfirst
  obtain ⟨admitted, u, hjudged, hu, hcount, hfinal⟩ := judgedRun_of_admitSources project
    s.revision revision prepared.patch raws s s sources (.refl s) (hsources ▸ henv) hgates
  obtain ⟨w, hinitiating, hgenerated, happlied⟩ := stageTransition_ok s first rest most staged
    parts.staged_ok
  obtain ⟨u', hu', halike⟩ := timeline_alike prepared.patch (sourceActions (first :: rest))
    (fun a ha => by
      obtain ⟨q, hq, hop⟩ := List.mem_flatMap.mp ha
      obtain ⟨op, -, rfl⟩ := List.mem_map.mp hop
      exact henv q hq) s s w (.refl s) (applyTimeline_ok _ _ _ _ _ hinitiating)
  rw [sourceActions_ops, ← hsources, hu] at hu'
  cases hu'
  -- The combined patch runs its source operations and then the generated ones.
  have hops : prepared.patch.ops =
      (first :: rest).flatMap (·.ops) ++ staged.generatedOps.map Prod.fst := by rw [hpatch]
  obtain ⟨u', v, hu', hv, hgraph⟩ := (applyValidPatch_staged staged _ (first :: rest)
    prepared.patch hops (by rw [hpatch]) s prepared.graph).mp parts.applied
  rw [← hsources, hu] at hu'
  cases hu'
  have hmarks := marks_of_guidance w u _ _ _ _ halike.nodes hgenerated
  have hrevision : prepared.patch.revision = first.revision := by rw [hpatch]
  rw [sourceActions_ops] at hgenerated
  refine ⟨first, rest, staged, w, admitted, u, v, hsources, parts.staged_ok, hsources ▸ hinitiating,
    hsources ▸ hgenerated, halike, hsources ▸ happlied, hfirst, hsources ▸ hops, hjudged, hmarks,
    hv, hcount, hrevision ▸ parts.request.ahead, ⟨_, hfinal, hsources ▸ hops⟩, ?_, hgraph⟩
  rw [hops, List.flatMap_append, ← hsources, createdEdgeIds_finalized _ _ hfinal,
    createdEdgeIds_marks u _ hmarks, List.append_nil]

theorem appended_run (project : Project rt) (s : GraphState rt) (revision : Nat)
    (raws : List (Patch rt)) (sources : AdmittedSources rt) (preHead : Option GraphHeadRef)
    (most : Nat) (prepared : PreparedTransition rt)
    (hgates : admitSources project s.revision revision raws s = .ok sources)
    (hprepared : prepareValidated s sources.patches preHead most = .ok prepared) :
    ∃ admitted generated u v,
      AppendedRun project revision raws prepared admitted generated s u v := by
  obtain ⟨_, _, _, _, admitted, u, v, -, -, -, -, -, -, -, -, hrun⟩ :=
    appended_staged project s revision raws sources preHead most prepared hgates hprepared
  exact ⟨admitted, _, u, v, hrun⟩

/-- Marks on guidance leave every edge alone, and every node that is no Experiment. -/
theorem marks_run (p : Patch rt) (generated : List (GraphOperation rt)) (s t : GraphState rt)
    (hg : ∀ op ∈ generated, op.MarksGuidance s) (hs : s.Keyed)
    (h : Steps.run (applyOp p true) generated s = .ok t) :
    t.edges = s.edges ∧ (∀ x, t.nodeType? x = s.nodeType? x) ∧
      ∀ x, s.nodeType? x ≠ some .experiment → t.nodes.get? x = s.nodes.get? x := by
  have key := Steps.run_invariant (applyOp p true)
    (fun v : GraphState rt => v.Keyed ∧ v.edges = s.edges ∧ (∀ x, v.nodeType? x = s.nodeType? x) ∧
      ∀ x, s.nodeType? x ≠ some .experiment → v.nodes.get? x = s.nodes.get? x) generated
    (fun op hop v w ⟨hv, hedges, htypes, hkept⟩ hf => by
      obtain ⟨u, rfl, htype, -⟩ := hg op hop
      refine ⟨keyed_applyOp p true _ v w hv hf,
        (edges_applyOp_other p true _ rfl v w hv hf).trans hedges, fun x => ?_, fun x hx => ?_⟩
      · exact (nodeType?_applyOp p true _ v w hv hf x (by simp [GraphOperation.createdIds])
          (fun ids h => by cases h)).trans (htypes x)
      · have hne : x ≠ u.id := by
          rintro rfl
          exact hx htype
        exact (get?_nodes_applyOp p true _ v w hv hf x
          (by simpa [GraphOperation.nodeTargets] using hne)).trans (hkept x hx))
    s t ⟨hs, rfl, fun _ => rfl, fun _ _ => rfl⟩ h
  exact key.2

/-- A node of a committed graph that is no Experiment was left by the source patches. -/
theorem AppendedRun.before {project : Project rt} {revision : Nat} {raws : List (Patch rt)}
    {prepared : PreparedTransition rt} {admitted : List (Patch rt)}
    {generated : List (GraphOperation rt)} {s u v : GraphState rt}
    (h : AppendedRun project revision raws prepared admitted generated s u v) (hu : u.Keyed)
    (id : String) (n : ProjectNode rt) (hn : prepared.graph.nodes.get? id = some n)
    (htype : n.type ≠ .experiment) : u.nodes.get? id = some n := by
  obtain ⟨-, htypes, hkept⟩ := marks_run prepared.patch generated u v h.marks hu h.marked
  have hnodes : prepared.graph.nodes = v.nodes := by
    rw [h.graph]
    exact (relayer_alike _ v).nodes
  rw [hnodes] at hn
  rw [← hkept id ?_, hn]
  rw [← htypes id, GraphState.nodeType?, hn]
  simpa using htype

theorem keyed_append (project : Project rt) (s : GraphState rt) (revision : Nat)
    (raws : List (Patch rt)) (sources : AdmittedSources rt) (preHead : Option GraphHeadRef)
    (prepared : PreparedTransition rt)
    (hgates : admitSources project s.revision revision raws s = .ok sources)
    (hprepared : prepareValidated s sources.patches preHead = .ok prepared) (hs : s.Keyed) :
    prepared.graph.Keyed := by
  obtain ⟨admitted, generated, u, v, hrun⟩ :=
    appended_run project s revision raws sources preHead _ prepared hgates hprepared
  have hu := keyed_run _ false _ s u hs hrun.judged.run_sources
  have hv := keyed_run _ true _ u v hu hrun.marked
  rw [hrun.graph]
  exact keyed_of_nodes _ v (relayer_alike _ v).nodes hv

/-- What the next append to a graph prepares, if both gates and the transition let it. -/
def nextAppend (project : Project rt) (s : GraphState rt) (raws : List (Patch rt)) :
    Option (PreparedTransition rt) :=
  match admitSources project s.revision (s.revision + 1) raws s with
  | .error _ => none
  | .ok sources => (prepareValidated s sources.patches).toOption

theorem nextAppend_ok (project : Project rt) (s : GraphState rt) (raws : List (Patch rt))
    (prepared : PreparedTransition rt) (h : nextAppend project s raws = some prepared) :
    ∃ sources, admitSources project s.revision (s.revision + 1) raws s = .ok sources ∧
      prepareValidated s sources.patches = .ok prepared := by
  unfold nextAppend at h
  split at h
  next => cases h
  next sources hsources =>
    refine ⟨sources, hsources, ?_⟩
    cases hp : prepareValidated s sources.patches with
    | error e => simp [hp, Except.toOption] at h
    | ok r => simpa [hp, Except.toOption] using h

/-- Graphs reached from an empty project by appends that both gates admit, each of
which meets a condition on the graph and the raw patches. -/
inductive Appended (project : Project rt) (C : GraphState rt → List (Patch rt) → Prop) :
    GraphState rt → Prop
  | initial (scope : List String) : Appended project C (.initial rt scope)
  | append (s : GraphState rt) (revision : Nat) (raws : List (Patch rt))
      (sources : AdmittedSources rt) (preHead : Option GraphHeadRef)
      (prepared : PreparedTransition rt) (messages : List ValidationMessage)
      (before : Appended project C s) (condition : C s raws)
      (gates : admitSources project s.revision revision raws s = .ok sources)
      (transition : prepareValidated s sources.patches preHead = .ok prepared) :
      Appended project C (prepared.graph.record messages)
  | identity (s t : GraphState rt) (p : Patch rt) (messages : List ValidationMessage)
      (before : Appended project C s) (empty : p.ops = []) (applied : applyValidPatch s p = .ok t) :
      Appended project C (t.record messages)
  | skip (s : GraphState rt) (p : Patch rt) (before : Appended project C s) :
      Appended project C (s.skip p)

/-- A patch without operations changes revision and watermark only. -/
theorem applyValidPatch_empty (s t : GraphState rt) (p : Patch rt) (hp : p.ops = [])
    (h : applyValidPatch s p = .ok t) : t = stamp p s := by
  obtain ⟨u, hu, rfl⟩ := applyPatch_ok p _ s t h
  simp only [hp, List.zipIdx_nil, Steps.run_nil, Except.ok.injEq] at hu
  rw [hp, ← hu]
  rfl

/-- What appends preserve holds of every graph they reach. -/
theorem Appended.invariant {project : Project rt} {C : GraphState rt → List (Patch rt) → Prop}
    (P : GraphState rt → Prop) (hinitial : ∀ scope, P (.initial rt scope))
    (happend : ∀ s revision raws sources preHead prepared, C s raws →
      admitSources project s.revision revision raws s = .ok sources →
      prepareValidated s sources.patches preHead = .ok prepared → P s → P prepared.graph)
    (hrecord : ∀ s messages, P s → P (s.record messages)) (hskip : ∀ s p, P s → P (s.skip p))
    (hstamp : ∀ s p, P s → P (stamp p s)) (s : GraphState rt) (h : Appended project C s) : P s := by
  induction h with
  | initial scope => exact hinitial scope
  | append s revision raws sources preHead prepared messages before condition gates transition ih =>
      exact hrecord _ messages
        (happend s revision raws sources preHead prepared condition gates transition ih)
  | identity s t p messages before empty applied ih =>
      rw [applyValidPatch_empty s t p empty applied]
      exact hrecord _ messages (hstamp s p ih)
  | skip s p before ih => exact hskip s p ih

/-- One append, or a record beside the graph, with the operations it commits. -/
inductive AppendStep (project : Project rt) :
    GraphState rt → List (GraphOperation rt) → GraphState rt → Prop
  | append (s : GraphState rt) (revision : Nat) (raws : List (Patch rt))
      (sources : AdmittedSources rt) (preHead : Option GraphHeadRef)
      (prepared : PreparedTransition rt) (messages : List ValidationMessage)
      (gates : admitSources project s.revision revision raws s = .ok sources)
      (transition : prepareValidated s sources.patches preHead = .ok prepared) :
      AppendStep project s prepared.patch.ops (prepared.graph.record messages)
  | identity (s t : GraphState rt) (p : Patch rt) (messages : List ValidationMessage)
      (empty : p.ops = []) (applied : applyValidPatch s p = .ok t) :
      AppendStep project s [] (t.record messages)
  | skip (s : GraphState rt) (p : Patch rt) : AppendStep project s [] (s.skip p)

/-- A run of appends, with the operations it commits in order. -/
inductive AppendRun (project : Project rt) (s : GraphState rt) :
    List (GraphOperation rt) → GraphState rt → Prop
  | refl : AppendRun project s [] s
  | step (ops more : List (GraphOperation rt)) (t u : GraphState rt)
      (before : AppendRun project s ops t) (last : AppendStep project t more u) :
      AppendRun project s (ops ++ more) u

theorem AppendStep.next (project : Project rt) (s : GraphState rt) (raws : List (Patch rt))
    (prepared : PreparedTransition rt) (h : nextAppend project s raws = some prepared) :
    AppendStep project s prepared.patch.ops (prepared.graph.record []) := by
  obtain ⟨sources, hgates, hprepared⟩ := nextAppend_ok project s raws prepared h
  exact .append s _ raws sources none prepared [] hgates hprepared

/-- Appends of given patches one after the other, with the operations they commit. -/
def appendAll (project : Project rt) :
    List (List (Patch rt)) → List (GraphOperation rt) → GraphState rt →
      Option (List (GraphOperation rt) × GraphState rt)
  | [], ops, s => some (ops, s)
  | raws :: rest, ops, s =>
      (nextAppend project s raws).bind fun prepared =>
        appendAll project rest (ops ++ prepared.patch.ops) (prepared.graph.record [])

theorem appendRun_appendAll (project : Project rt) (batches : List (List (Patch rt)))
    (ops more : List (GraphOperation rt)) (s t u : GraphState rt)
    (before : AppendRun project s ops t) (h : appendAll project batches ops t = some (more, u)) :
    AppendRun project s more u := by
  induction batches generalizing ops t with
  | nil =>
      cases h
      exact before
  | cons raws rest ih =>
      obtain ⟨prepared, hp, hrest⟩ := Option.bind_eq_some_iff.mp h
      exact ih _ _ (.step ops _ t _ before (.next project t raws prepared hp)) hrest

/-- Every node of an appended graph is stored under its own id. -/
theorem keyed_of_appended {project : Project rt} {C : GraphState rt → List (Patch rt) → Prop}
    (s : GraphState rt) (h : Appended project C s) : s.Keyed := by
  refine Appended.invariant GraphState.Keyed (fun scope id n hn => by cases hn) ?_
    (fun _ _ h => h) (fun _ _ h => h) (fun _ _ h => h) s h
  intro s revision raws sources preHead prepared _ hgates hprepared hs
  exact keyed_append project s revision raws sources preHead prepared hgates hprepared hs

end RcpGraph
