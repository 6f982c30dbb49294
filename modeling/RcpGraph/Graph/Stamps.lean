import RcpGraph.Graph.ExperimentGate
import RcpGraph.History.Attribution

/-!
What the stamps of nodes tell. Appends come under revisions that nobody has used yet, so a node
that carries a stamp from before a run of appends is the node that was there before the run.
-/

namespace RcpGraph

variable {rt : Runtime} {project : Project rt}

/-- A later graph: its nodes are those of the earlier one or were stamped in between. -/
structure GraphState.LeadsTo (s t : GraphState rt) : Prop where
  revision : s.revision ≤ t.revision
  nodes : ∀ id n, t.nodes.get? id = some n →
    s.nodes.get? id = some n ∨ s.revision < n.updatedRev ∧ n.updatedRev ≤ t.revision

theorem GraphState.LeadsTo.of_nodes {s t : GraphState rt} (hrevision : s.revision ≤ t.revision)
    (hnodes : t.nodes = s.nodes) : s.LeadsTo t := by
  refine ⟨hrevision, fun id n hn => ?_⟩
  rw [hnodes] at hn
  exact .inl hn

theorem GraphState.LeadsTo.trans {s t u : GraphState rt} (h : s.LeadsTo t) (h' : t.LeadsTo u) :
    s.LeadsTo u := by
  refine ⟨h.revision.trans h'.revision, fun id n hn => ?_⟩
  rcases h'.nodes id n hn with ht | ⟨hlate, hbound⟩
  · rcases h.nodes id n ht with hs | ⟨hlate, hbound⟩
    · exact .inl hs
    · exact .inr ⟨hlate, hbound.trans h'.revision⟩
  · exact .inr ⟨h.revision.trans_lt hlate, hbound⟩

theorem GraphState.LeadsTo.dated {s t : GraphState rt} (h : s.LeadsTo t) (hs : Dated s.revision s) :
    Dated t.revision t := by
  intro id n hn
  rcases h.nodes id n hn with hkept | hlate
  · exact (hs id n hkept).trans h.revision
  · exact hlate.2

/-- A committed append stamps what it writes with its own revision. -/
theorem leadsTo_append (s : GraphState rt) (revision : Nat) (raws : List (Patch rt))
    (sources : AdmittedSources rt) (preHead : Option GraphHeadRef)
    (prepared : PreparedTransition rt)
    (hgates : admitSources project s.revision revision raws s = .ok sources)
    (hprepared : prepareValidated s sources.patches preHead = .ok prepared) :
    s.LeadsTo prepared.graph := by
  obtain ⟨admitted, generated, u, v, hrun⟩ :=
    appended_run project s revision raws sources preHead _ prepared hgates hprepared
  have hsources := Stamped.run _ (fun op _ s t h => stamped_applyOp prepared.patch false op s t h)
    s u hrun.judged.run_sources
  have hmarks := Stamped.run _ (fun op _ s t h => stamped_applyOp prepared.patch true op s t h)
    u v hrun.marked
  have hrevision : prepared.patch.revision ≤ prepared.graph.revision := by
    rw [hrun.graph]
    exact le_max_right _ _
  refine ⟨hrun.ahead.le.trans hrevision, fun id n hn => ?_⟩
  rw [hrun.graph] at hn
  have hv : v.nodes.get? id = some n := by
    rw [← (relayer_alike (prepared.patch.ops.flatMap createdEdgeIds) v).nodes]
    exact hn
  rcases hsources.trans hmarks id n hv with hkept | hstamp
  · exact .inl hkept
  · refine .inr ?_
    rw [hstamp]
    exact ⟨hrun.ahead, hrevision⟩

theorem AppendStep.leadsTo {ops : List (GraphOperation rt)} {s t : GraphState rt}
    (h : AppendStep project s ops t) : s.LeadsTo t := by
  cases h with
  | append revision raws sources preHead prepared messages gates transition =>
      have hgraph := leadsTo_append s revision raws sources preHead prepared gates transition
      exact ⟨hgraph.revision, hgraph.nodes⟩
  | identity t p messages empty applied =>
      rw [applyValidPatch_empty s t p empty applied]
      exact .of_nodes (le_max_left _ _) rfl
  | skip p => exact .of_nodes (le_max_left _ _) rfl

theorem AppendRun.leadsTo {ops : List (GraphOperation rt)} {s t : GraphState rt}
    (h : AppendRun project s ops t) : s.LeadsTo t := by
  induction h with
  | refl => exact .of_nodes le_rfl rfl
  | step ops more t u before last ih => exact ih.trans last.leadsTo

/-- No node of an appended graph carries a stamp past the revision of the graph. -/
theorem dated_of_appended {C : GraphState rt → List (Patch rt) → Prop} (s : GraphState rt)
    (h : Appended project C s) : Dated s.revision s := by
  refine Appended.invariant (fun s => Dated s.revision s) (fun scope id n hn => by cases hn) ?_
    (fun _ _ h => h) (fun s p hs => ?_) (fun s p hs => ?_) s h
  · intro s revision raws sources preHead prepared _ hgates hprepared hs
    exact (leadsTo_append s revision raws sources preHead prepared hgates hprepared).dated hs
  · exact (GraphState.LeadsTo.of_nodes (t := s.skip p) (le_max_left _ _) rfl).dated hs
  · exact (GraphState.LeadsTo.of_nodes (t := stamp p s) (le_max_left _ _) rfl).dated hs

/-- After any run of appends, a node is the one from before the run exactly when its stamp is
no later than the revision the run began at. -/
theorem stamp_identifies {C : GraphState rt → List (Patch rt) → Prop}
    {ops : List (GraphOperation rt)} {s t : GraphState rt} (hs : Appended project C s)
    (hrun : AppendRun project s ops t) (id : String) (n : ProjectNode rt)
    (hn : t.nodes.get? id = some n) :
    s.nodes.get? id = some n ↔ n.updatedRev ≤ s.revision := by
  constructor
  · intro hkept
    exact dated_of_appended s hs id n hkept
  · intro hstamp
    rcases hrun.leadsTo.nodes id n hn with hkept | ⟨hlate, -⟩
    · exact hkept
    · omega

theorem stamp_identifies_settled :
    ∃ (s t : GraphState .plain) (ops : List (GraphOperation .plain)),
      AppendRun Project.solo s ops t ∧ t.nodes.keys ≠ [] ∧
      ∀ id n, t.nodes.get? id = some n →
        (s.nodes.get? id = some n ↔ n.updatedRev ≤ s.revision) := by
  have hrun : (appendAll Project.solo [[settledExperiment]] [] (.initial .plain ["repo"])).any
      (fun r => (appendAll Project.solo [[acceptedDecision]] [] r.2).any
        fun later => decide (later.2.nodes.keys ≠ [])) = true := by decide +kernel
  obtain ⟨r, hr, hlater⟩ := (Option.any_eq_true _ _).mp hrun
  obtain ⟨later, hlater, hnodes⟩ := (Option.any_eq_true _ _).mp hlater
  have happended := appended_appendAll _ [] r.1 _ r.2 (.initial ["repo"]) hr
  have hruns := appendRun_appendAll Project.solo _ [] later.1 r.2 r.2 later.2 .refl hlater
  exact ⟨r.2, later.2, later.1, hruns, of_decide_eq_true hnodes,
    fun id n hn => stamp_identifies happended hruns id n hn⟩

end RcpGraph
