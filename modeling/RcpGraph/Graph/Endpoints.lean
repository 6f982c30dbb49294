import RcpGraph.Core.Effects
import RcpGraph.History.Replay

/-!
Endpoints of edges. Validation looks an endpoint up among the staged nodes and
among everything the whole patch creates, while application meets the nodes that
are there when the operation runs. The two differ for a node that the patch
creates and removes again: an edge to it passes validation and is left without
an endpoint. In runs without such a patch every edge keeps both endpoints.
-/

namespace RcpGraph

variable {rt : Runtime}

/-- Every edge connects two nodes of the graph. -/
def GraphState.NoDangling (s : GraphState rt) : Prop :=
  ∀ id e, s.edges.get? id = some e → e.source ∈ s.nodes ∧ e.target ∈ s.nodes

instance (s : GraphState rt) : Decidable s.NoDangling :=
  decidable_of_iff (∀ e ∈ s.edges.values, e.source ∈ s.nodes ∧ e.target ∈ s.nodes) (by
    simp only [Dict.mem_values]
    exact ⟨fun h id e he => h e ⟨id, he⟩, fun h e ⟨id, he⟩ => h id e he⟩)

/-- What a prefix of a patch removed and wrote. -/
structure Trail where
  /-- Nodes removed and not created again. -/
  gone : List String := []
  /-- Endpoints of the edges written and not removed again, by edge id. -/
  written : Dict String (String × String) := .empty

def Trail.after (trail : Trail) : GraphOperation rt → Trail
  | .createNodes nodes => { trail with gone := trail.gone.filter fun x => x ∉ nodes.map (·.id) }
  | .removeNodes ids =>
      { gone := trail.gone ++ ids
        written := trail.written.filter fun _ e => e.1 ∉ ids && e.2 ∉ ids }
  | .removeEdges ids => { trail with written := ids.foldl Dict.erase trail.written }
  | op => { trail with written := trail.written.update op.edgesWritten }

/-- No edge that the operations leave behind names a node they have removed. -/
def Trail.Sound (trail : Trail) : Prop :=
  ∀ e ∈ trail.written.values, e.1 ∉ trail.gone ∧ e.2 ∉ trail.gone

instance (trail : Trail) : Decidable trail.Sound :=
  inferInstanceAs (Decidable (∀ e ∈ trail.written.values, e.1 ∉ trail.gone ∧ e.2 ∉ trail.gone))

/-- A patch leaves no edge behind that names a node it removed before. -/
def Patch.SparesRemoved (p : Patch rt) : Prop := (p.ops.foldl Trail.after {}).Sound

instance (p : Patch rt) : Decidable p.SparesRemoved :=
  inferInstanceAs (Decidable (p.ops.foldl Trail.after {}).Sound)

/-- Where an endpoint may be found: in the graph, in the rest of the patch, or among
the nodes that are gone. -/
def Within (trail : Trail) (later : List String) (s : GraphState rt) (x : String) : Prop :=
  x ∈ s.nodes ∨ x ∈ later ∨ x ∈ trail.gone

/-- Every edge has its endpoints, except for an edge of this patch to a node that is gone. -/
def Tied (trail : Trail) (later : List String) (s : GraphState rt) : Prop :=
  ∀ id e, s.edges.get? id = some e → ∀ x, x = e.source ∨ x = e.target →
    x ∈ s.nodes ∨ x ∈ later ∨
      (x ∈ trail.gone ∧ trail.written.get? id = some (e.source, e.target))

theorem Tied.mono {trail : Trail} {later : List String} {s t : GraphState rt}
    (h : Tied trail later s) (hnodes : ∀ x, x ∈ s.nodes → x ∈ t.nodes)
    (hedges : t.edges = s.edges) : Tied trail later t := by
  intro id e he x hx
  rw [hedges] at he
  rcases h id e he x hx with hs | hl | hg
  · exact .inl (hnodes x hs)
  · exact .inr (.inl hl)
  · exact .inr (.inr hg)

theorem Tied.of_noDangling {s : GraphState rt} (h : s.NoDangling) (trail : Trail)
    (later : List String) : Tied trail later s := by
  intro id e he x hx
  obtain ⟨hsource, htarget⟩ := h id e he
  rcases hx with rfl | rfl
  · exact .inl hsource
  · exact .inl htarget

/-- At the end of a patch that spares what it removed, every edge has its endpoints. -/
theorem Tied.noDangling {trail : Trail} {s : GraphState rt} (h : Tied trail [] s)
    (hsound : trail.Sound) : s.NoDangling := by
  intro id e he
  have found : ∀ x, x = e.source ∨ x = e.target → x ∈ s.nodes := by
    intro x hx
    rcases h id e he x hx with h | h | ⟨hgone, hwritten⟩
    · exact h
    · cases h
    · have := hsound _ ((Dict.mem_values _ _).mpr ⟨id, hwritten⟩)
      rcases hx with rfl | rfl
      · exact absurd hgone this.1
      · exact absurd hgone this.2
  exact ⟨found _ (.inl rfl), found _ (.inr rfl)⟩

def Trail.write (trail : Trail) (id source target : String) : Trail :=
  { trail with written := trail.written.insert id (source, target) }

/-- Writing one edge whose endpoints can be found. -/
theorem Tied.addEdge {trail : Trail} {later : List String} {s : GraphState rt}
    (h : Tied trail later s) (e : Edge) (hs : Within trail later s e.source)
    (ht : Within trail later s e.target) :
    Tied (trail.write e.id e.source e.target) later (addEdge e s) := by
  intro id f hf x hx
  simp only [RcpGraph.addEdge, Dict.get?_insert] at hf
  simp only [Trail.write, Dict.get?_insert, RcpGraph.addEdge]
  split at hf
  next hid =>
    cases hf
    have hw : Within trail later s x := by
      rcases hx with rfl | rfl
      · exact hs
      · exact ht
    rcases hw with hw | hw | hw
    · exact .inl hw
    · exact .inr (.inl hw)
    · exact .inr (.inr ⟨hw, by simp [hid]⟩)
  next hid =>
    rcases h id f hf x hx with h | h | ⟨hg, hw⟩
    · exact .inl h
    · exact .inr (.inl h)
    · exact .inr (.inr ⟨hg, by simp [hid, hw]⟩)

/-- The trail of a list of written edges. -/
def Trail.writeAll (trail : Trail) (edges : List (String × String × String)) : Trail :=
  { trail with written := trail.written.update edges }

theorem Trail.writeAll_cons (trail : Trail) (e : String × String × String)
    (edges : List (String × String × String)) :
    trail.writeAll (e :: edges) = (trail.write e.1 e.2.1 e.2.2).writeAll edges := rfl

/-- A run of items, each of which writes at most one edge and removes no node. -/
theorem tied_run {α : Type} (f : α → GraphState rt → Except String (GraphState rt))
    (written : α → Option (String × String × String)) (later : List String) (as : List α)
    (step : ∀ a ∈ as, ∀ s t, f a s = .ok t → (∀ x, x ∈ s.nodes → x ∈ t.nodes) ∧
      ((written a = none ∧ t.edges = s.edges) ∨
        ∃ e u, written a = some (e.id, e.source, e.target) ∧ u.edges = s.edges ∧
          (∀ x, x ∈ s.nodes → x ∈ u.nodes) ∧ t = addEdge e u))
    (trail : Trail) (s t : GraphState rt)
    (hw : ∀ e ∈ as.filterMap written, Within trail later s e.2.1 ∧ Within trail later s e.2.2)
    (h : Tied trail later s) (hrun : Steps.run f as s = .ok t) :
    Tied (trail.writeAll (as.filterMap written)) later t := by
  induction as generalizing trail s with
  | nil =>
      cases hrun
      exact h
  | cons a as ih =>
      obtain ⟨s', hs', hrest⟩ := (Steps.run_cons_ok f a as s t).mp hrun
      obtain ⟨hmono, hcase⟩ := step a List.mem_cons_self s s' hs'
      have grow : ∀ (u : GraphState rt), (∀ x, x ∈ s.nodes → x ∈ u.nodes) → ∀ x,
          Within trail later s x → Within trail later u x := by
        rintro u hu x (hx | hx)
        · exact .inl (hu x hx)
        · exact .inr hx
      have ih := ih fun b hb => step b (List.mem_cons_of_mem a hb)
      rcases hcase with ⟨hnone, hedges⟩ | ⟨e, u, hsome, hedges, hu, rfl⟩
      · rw [List.filterMap_cons_none hnone] at hw ⊢
        refine ih trail s' (fun e he => ?_) (h.mono hmono hedges) hrest
        exact ⟨grow s' hmono _ (hw e he).1, grow s' hmono _ (hw e he).2⟩
      · rw [List.filterMap_cons_some hsome] at hw ⊢
        rw [Trail.writeAll_cons]
        have hhead := hw _ List.mem_cons_self
        refine ih (trail.write e.id e.source e.target) _ (fun e' he' => ?_) ?_ hrest
        · have := hw e' (List.mem_cons_of_mem _ he')
          exact ⟨grow u hu _ this.1, grow u hu _ this.2⟩
        · exact (h.mono hu hedges).addEdge e (grow u hu _ hhead.1) (grow u hu _ hhead.2)

theorem tied_createEdges (revision : Nat) (edges : List NewEdge) (later : List String)
    (trail : Trail) (s t : GraphState rt)
    (hw : ∀ e ∈ (.createEdges edges : GraphOperation rt).edgesWritten,
      Within trail later s e.2.1 ∧ Within trail later s e.2.2)
    (h : Tied trail later s) (hrun : Steps.run (createEdge revision) edges s = .ok t) :
    Tied (trail.writeAll (.createEdges edges : GraphOperation rt).edgesWritten) later t := by
  refine tied_run _ _ later edges (fun e _ s t he => ?_) trail s t hw h hrun
  obtain ⟨id, declared, hid, -, rfl⟩ := createEdge_ok revision e s t he
  exact ⟨fun _ hx => hx, .inr ⟨e.edgeIn s id declared revision, s, by simp [hid, NewEdge.edgeIn],
    rfl, fun _ hx => hx, rfl⟩⟩

theorem tied_supersedeNodes (p : Patch rt) (items : List SupersedeNode) (later : List String)
    (trail : Trail) (s t : GraphState rt)
    (hw : ∀ e ∈ (.supersedeNodes items : GraphOperation rt).edgesWritten,
      Within trail later s e.2.1 ∧ Within trail later s e.2.2)
    (h : Tied trail later s) (hrun : Steps.run (supersedeNode p) items s = .ok t) :
    Tied (trail.writeAll (.supersedeNodes items : GraphOperation rt).edgesWritten) later t := by
  refine tied_run _ _ later items (fun i _ s t hi => ?_) trail s t hw h hrun
  have hmem := (supersedeNode_rewrites p i s t hi).mem
  obtain ⟨u, hu, ht⟩ := supersedeNode_ok p i s t hi
  obtain ⟨hr, hedges⟩ := retireNode_rewrites p i.id i.cause s u hu
  refine ⟨fun x => (hmem x).mpr, ?_⟩
  cases hfilter : i.supersededBy.filter (· ≠ "") with
  | none =>
      simp only [SupersedeNode.edge?, hfilter, Option.map_none] at ht ⊢
      exact .inl ⟨trivial, ht ▸ hedges⟩
  | some target =>
      simp only [SupersedeNode.edge?, hfilter, Option.map_some] at ht ⊢
      refine .inr ⟨_, u, ?_, hedges, fun x => (hr.mem x).mpr, ht⟩
      rfl

theorem tied_mergeNodes (p : Patch rt) (merges : List NodeMerge) (later : List String)
    (trail : Trail) (s t : GraphState rt)
    (hw : ∀ e ∈ (.mergeNodes merges : GraphOperation rt).edgesWritten,
      Within trail later s e.2.1 ∧ Within trail later s e.2.2)
    (h : Tied trail later s) (hrun : Steps.run (mergeNode p) merges s = .ok t) :
    Tied (trail.writeAll (.mergeNodes merges : GraphOperation rt).edgesWritten) later t := by
  have hmap : (.mergeNodes merges : GraphOperation rt).edgesWritten =
      merges.filterMap fun m =>
        some (derivedEdgeId m.duplicate "duplicate_of" m.canonical, m.duplicate, m.canonical) := by
    rw [List.filterMap_eq_map']
    rfl
  rw [hmap] at hw ⊢
  refine tied_run _ _ later merges (fun m _ s t hm => ?_) trail s t hw h hrun
  have hmem := (mergeNode_rewrites p m s t hm).mem
  obtain ⟨u, hu, rfl⟩ := mergeNode_ok p m s t hm
  obtain ⟨hr, hedges⟩ := retireNode_rewrites p m.duplicate m.cause s u hu
  exact ⟨fun x => (hmem x).mpr, .inr ⟨_, u, rfl, hedges, fun x => (hr.mem x).mpr, rfl⟩⟩

/-- One operation whose written edges name endpoints that can be found. -/
theorem tied_applyOp (p : Patch rt) (generated : Bool) (op : GraphOperation rt)
    (later : List String) (trail : Trail) (s t : GraphState rt) (hs : s.Keyed)
    (hw : ∀ e ∈ op.edgesWritten, Within trail later s e.2.1 ∧ Within trail later s e.2.2)
    (h : Tied trail (op.createdIds ++ later) s) (happ : applyOp p generated op s = .ok t) :
    Tied (trail.after op) later t := by
  have hnodes := mem_nodes_applyOp p generated op s t hs happ
  cases op with
  | createEdges edges => exact tied_createEdges p.revision edges later trail s t hw h happ
  | supersedeNodes items => exact tied_supersedeNodes p items later trail s t hw h happ
  | mergeNodes merges => exact tied_mergeNodes p merges later trail s t hw h happ
  | createNodes nodes =>
      have hedges := edges_applyOp_other p generated _ rfl s t hs happ
      intro id e he x hx
      rw [hedges] at he
      simp only [hnodes, Trail.after]
      rcases h id e he x hx with h | h | ⟨hg, hwr⟩
      · exact .inl (.inr h)
      · rcases List.mem_append.mp h with h | h
        · exact .inl (.inl h)
        · exact .inr (.inl h)
      · by_cases hc : x ∈ nodes.map (·.id)
        · exact .inl (.inl hc)
        · exact .inr (.inr ⟨List.mem_filter.mpr ⟨hg, by simpa using hc⟩, hwr⟩)
  | removeNodes ids =>
      intro id e he x hx
      cases happ
      simp only [removeNodes, Dict.get?_filter, Option.filter_eq_some_iff, Bool.and_eq_true,
        decide_eq_true_eq] at he
      obtain ⟨he, hsource, htarget⟩ := he
      have hxids : x ∉ ids := by
        rcases hx with rfl | rfl
        · exact hsource
        · exact htarget
      rw [hnodes]
      rcases h id e he x hx with h | h | ⟨hg, hwr⟩
      · exact .inl ⟨hxids, h⟩
      · exact .inr (.inl h)
      · refine .inr (.inr ⟨List.mem_append_left _ hg, ?_⟩)
        simp [Trail.after, hwr, Option.filter, hsource, htarget]
  | removeEdges ids =>
      intro id e he x hx
      cases happ
      simp only [removeEdges, Dict.get?_foldl_erase] at he
      split at he
      next => cases he
      next hid =>
        rcases h id e he x hx with h | h | ⟨hg, hwr⟩
        · exact .inl h
        · exact .inr (.inl h)
        · exact .inr (.inr ⟨hg, by simp [Trail.after, Dict.get?_foldl_erase, hid, hwr]⟩)
  | _ =>
      have hedges := edges_applyOp_other p generated _ rfl s t hs happ
      exact h.mono (fun x => (hnodes x).mpr) hedges

theorem createdIds_of_edgesWritten (op : GraphOperation rt) (e : String × String × String)
    (h : e ∈ op.edgesWritten) : op.createdIds = [] := by
  cases op with
  | createNodes nodes => cases h
  | _ => rfl

/-- Nodes a patch has created are in the graph or gone again. -/
theorem created_applyOp (p : Patch rt) (generated : Bool) (op : GraphOperation rt) (trail : Trail)
    (s t : GraphState rt) (hs : s.Keyed) (happ : applyOp p generated op s = .ok t) (x : String)
    (h : x ∈ op.createdIds ∨ x ∈ s.nodes ∨ x ∈ trail.gone) :
    x ∈ t.nodes ∨ x ∈ (trail.after op).gone := by
  have hnodes := mem_nodes_applyOp p generated op s t hs happ x
  cases op with
  | createNodes nodes =>
      simp only [hnodes, Trail.after, List.mem_filter]
      rcases h with h | h | h
      · exact .inl (.inl h)
      · exact .inl (.inr h)
      · by_cases hc : x ∈ nodes.map (·.id)
        · exact .inl (.inl hc)
        · exact .inr ⟨h, by simpa using hc⟩
  | removeNodes ids =>
      simp only [hnodes, Trail.after, List.mem_append]
      by_cases hx : x ∈ ids
      · exact .inr (.inr hx)
      · rcases h with h | h | h
        · cases h
        · exact .inl ⟨hx, h⟩
        · exact .inr (.inl h)
  | _ =>
      rcases h with h | h | h
      · cases h
      · exact .inl (hnodes.mpr h)
      · exact .inr h

section Judged

/-- An id that a rule finds in the staged graph or in the patch itself. -/
def OpContext.Known (ctx : OpContext rt) (x : String) : Prop :=
  x ∈ ctx.state.nodes ∨ x ∈ ctx.patch.createdNodes.map (·.id)

theorem known_of_createdNodeId (ctx : OpContext rt) (x : String)
    (h : (decide (x ∉ ctx.state.nodes) && !ctx.createdNodeId x) = false) : ctx.Known x := by
  by_cases hx : x ∈ ctx.state.nodes
  · exact .inl hx
  · refine .inr (List.mem_map.mpr ?_)
    simpa [hx, OpContext.createdNodeId] using h

theorem known_of_nodeType? (ctx : OpContext rt) (href : ctx.referencePatch = none) (x : String)
    (h : (ctx.nodeType? x).isSome = true) : ctx.Known x := by
  unfold OpContext.nodeType? at h
  cases hx : ctx.state.nodes.get? x with
  | some n => exact .inl (Dict.mem_of_get? hx)
  | none =>
      right
      simp only [hx, OpContext.patches, href, Option.toList_none, List.findSome?_cons,
        List.findSome?_nil, Patch.createdNodeType] at h
      cases hf : ctx.patch.createdNodes.find? fun raw => raw.id = x with
      | none => simp [hf] at h
      | some raw =>
          exact List.mem_map.mpr
            ⟨raw, List.mem_of_find?_eq_some hf, by simpa using List.find?_some hf⟩

/-- Every edge of an accepted `create_edges` payload is judged as the head of a payload. -/
theorem createEdgesIssues_mem (ctx : OpContext rt) (seen : List String) (edges : List NewEdge)
    (h : refused (createEdgesIssues ctx seen edges) = false) (e : NewEdge) (he : e ∈ edges) :
    ∃ seen' es, refused (createEdgesIssues ctx seen' (e :: es)) = false := by
  induction edges generalizing seen with
  | nil => cases he
  | cons e' es ih =>
      rcases List.mem_cons.mp he with rfl | he
      · exact ⟨seen, es, h⟩
      · suffices ∃ seen, refused (createEdgesIssues ctx seen es) = false by
          obtain ⟨seen, hseen⟩ := this
          exact ih seen hseen he
        simp only [createEdgesIssues, refused_append, Bool.or_eq_false_iff] at h
        obtain ⟨-, hrest⟩ := h
        split at hrest
        · simp at hrest
        · simp only [refused_append, Bool.or_eq_false_iff] at hrest
          obtain ⟨-, hrest⟩ := hrest
          split at hrest
          · simp at hrest
          · split at hrest
            · split at hrest
              · simp at hrest
              · exact ⟨_, hrest⟩
            · exact ⟨_, hrest⟩

theorem edgeContent_of_createEdges (ctx : OpContext rt) (seen : List String)
    (edges : List NewEdge) (h : refused (createEdgesIssues ctx seen edges) = false) (e : NewEdge)
    (he : e ∈ edges) : refused (edgeContentIssues ctx e) = false := by
  obtain ⟨seen', es, hhead⟩ := createEdgesIssues_mem ctx seen edges h e he
  simp only [createEdgesIssues, refused_append, Bool.or_eq_false_iff] at hhead
  exact hhead.1

/-- The endpoints of every edge an accepted operation writes are known. -/
theorem known_of_accepted (ctx : OpContext rt) (href : ctx.referencePatch = none)
    (op : GraphOperation rt) (h : refused (patchRules ctx op) = false) :
    ∀ e ∈ op.edgesWritten, ctx.Known e.2.1 ∧ ctx.Known e.2.2 := by
  intro e he
  cases op with
  | createEdges edges =>
      simp only [patchRules, effectRules, rulesOf, structuralIssues, refused_append,
        Bool.or_eq_false_iff] at h
      obtain ⟨raw, hraw, hid⟩ := List.mem_filterMap.mp he
      obtain ⟨id, -, rfl⟩ := Option.map_eq_some_iff.mp hid
      have hc := edgeContent_of_createEdges ctx _ edges h.1 raw hraw
      simp only [edgeContentIssues, refused_append, Bool.or_eq_false_iff, refused_rejectIf] at hc
      exact ⟨known_of_createdNodeId ctx _ hc.1.1.1.1.1, known_of_createdNodeId ctx _ hc.1.1.1.1.2⟩
  | supersedeNodes items =>
      simp only [patchRules, effectRules, rulesOf, structuralIssues, refused_append,
        Bool.or_eq_false_iff, supersedeNodesIssues, not_refused_flatMap] at h
      obtain ⟨item, hitem, hedge⟩ := List.mem_filterMap.mp he
      obtain ⟨f, hf, rfl⟩ := Option.map_eq_some_iff.mp hedge
      obtain ⟨target, htarget, rfl⟩ := Option.map_eq_some_iff.mp hf
      obtain ⟨htarget, hne⟩ := Option.filter_eq_some_iff.mp htarget
      have hne : target ≠ "" := by simpa using hne
      obtain ⟨hid, hto⟩ := h.1 item hitem
      rw [refused_rejectIf, decide_eq_false_iff_not, not_not] at hid
      refine ⟨.inl hid, ?_⟩
      simp only [htarget, refused_append, Bool.or_eq_false_iff, refused_rejectIf] at hto
      have hto := hto.1
      by_cases hx : target ∈ ctx.state.nodes
      · exact .inl hx
      · by_cases hc : ctx.createdNodeId target = true
        · exact known_of_createdNodeId ctx target (by simp [hc])
        · refine known_of_nodeType? ctx href target ?_
          simpa [hne, hx, hc, Option.isSome_iff_ne_none] using hto
  | mergeNodes merges =>
      simp only [patchRules, effectRules, rulesOf, structuralIssues, refused_append,
        Bool.or_eq_false_iff, mergeNodesIssues, not_refused_flatMap] at h
      obtain ⟨m, hm, rfl⟩ := List.mem_map.mp he
      obtain ⟨⟨hdup, hcanon⟩, -⟩ := h.1 m hm
      rw [refused_rejectIf, decide_eq_false_iff_not, not_not] at hdup
      rw [refused_rejectIf] at hcanon
      refine ⟨.inl hdup, ?_⟩
      by_cases hx : m.canonical ∈ ctx.state.nodes
      · exact .inl hx
      · refine known_of_nodeType? ctx href m.canonical ?_
        simpa [hx, Option.isSome_iff_ne_none] using hcanon
  | _ => cases he

end Judged

section Runs

/-- The ids a list of operations creates. -/
def createdBy (ops : List (GraphOperation rt)) : List String :=
  ops.flatMap GraphOperation.createdIds

theorem createdBy_ops (p : Patch rt) : createdBy p.ops = p.createdNodes.map (·.id) := by
  simp only [createdBy, Patch.createdNodes, List.map_flatMap]
  congr 1
  funext op
  cases op <;> rfl

theorem createdBy_append (ops ops' : List (GraphOperation rt)) :
    createdBy (ops ++ ops') = createdBy ops ++ createdBy ops' := List.flatMap_append

/-- The endpoint invariant at a point of a source patch: `rest` is still to come, then
the operations that create `later`. -/
structure EndpointsAt (source : Patch rt) (final : Trail) (later : List String)
    (rest : List (GraphOperation rt)) (s : GraphState rt) (trail : Trail) : Prop where
  keyed : s.Keyed
  ends : rest.foldl Trail.after trail = final
  tied : Tied trail (createdBy rest ++ later) s
  created : ∀ x ∈ createdBy source.ops, x ∈ createdBy rest ∨ x ∈ s.nodes ∨ x ∈ trail.gone

theorem EndpointsAt.step (source p : Patch rt) (final : Trail) (later : List String)
    (op : GraphOperation rt) (rest : List (GraphOperation rt)) (ctx : OpContext rt)
    (hpatch : ctx.patch = source) (href : ctx.referencePatch = none) (s t : GraphState rt)
    (trail : Trail) (ha : Alike ctx.state s) (hr : refused (patchRules ctx op) = false)
    (happ : applyOp p false op s = .ok t)
    (h : EndpointsAt source final later (op :: rest) s trail) :
    EndpointsAt source final later rest t (trail.after op) := by
  obtain ⟨hkeyed, hends, htied, hcreated⟩ := h
  have hsplit : createdBy (op :: rest) = op.createdIds ++ createdBy rest := List.flatMap_cons
  rw [hsplit, List.append_assoc] at htied
  refine ⟨keyed_applyOp p false op s t hkeyed happ, hends, ?_, ?_⟩
  · refine tied_applyOp p false op _ trail s t hkeyed (fun e he => ?_) htied happ
    have hnone := createdIds_of_edgesWritten op e he
    have within : ∀ x, ctx.Known x → Within trail (createdBy rest ++ later) s x := by
      rintro x (hx | hx)
      · exact .inl (ha.nodes ▸ hx)
      · rw [hpatch, ← createdBy_ops] at hx
        have := hcreated x hx
        rw [hsplit, hnone, List.nil_append] at this
        rcases this with hx | hx | hx
        · exact .inr (.inl (List.mem_append_left _ hx))
        · exact .inl hx
        · exact .inr (.inr hx)
    obtain ⟨hsource, htarget⟩ := known_of_accepted ctx href op hr e he
    exact ⟨within _ hsource, within _ htarget⟩
  · intro x hx
    have := hcreated x hx
    rw [hsplit, List.mem_append, or_assoc] at this
    rcases this with hx | hx | hx
    · exact .inr (created_applyOp p false op trail s t hkeyed happ x (.inl hx))
    · exact .inl hx
    · exact .inr (created_applyOp p false op trail s t hkeyed happ x (.inr hx))

/-- A judged source patch ties every edge to its endpoints, up to the nodes still to come. -/
theorem tied_source (mode : Mode) (source p : Patch rt) (happ : source.applies = p.applies)
    (hplain : source.transition = none) (here s t : GraphState rt) (ha : Alike here s)
    (hj : Judged mode here source) (hrun : Steps.run (applyOp p false) source.ops s = .ok t)
    (later : List String) (trail : Trail) (hs : s.Keyed)
    (h : Tied trail (createdBy source.ops ++ later) s) :
    Tied (source.ops.foldl Trail.after trail) later t := by
  obtain ⟨vc, request, -, hissues⟩ := hj
  obtain ⟨trail', hend⟩ := patchIssues_run here source vc request hissues p happ hplain
    (fun rest s => ∃ trail', EndpointsAt source (source.ops.foldl Trail.after trail) later rest s
      trail')
    (fun op rest ctx s t _ ⟨a, r, hctx⟩ ha hr happ ⟨trail', h⟩ =>
      ⟨_, EndpointsAt.step source p _ later op rest ctx (by rw [hctx]; rfl) (by rw [hctx]; rfl)
        s t trail' ha hr happ h⟩)
    s t ha hrun ⟨trail, hs, rfl, h, fun x hx => .inl hx⟩
  have hends : trail' = source.ops.foldl Trail.after trail := hend.ends
  rw [← hends]
  exact hend.tied

/-- The operations a transition generates touch neither edges nor the set of nodes. -/
theorem guidance_updates (op : GraphOperation rt) (h : validateGuidanceOperation op = .ok ()) :
    ∃ updates, op = .updateNodes updates := by
  cases op with
  | updateNodes updates => exact ⟨updates, rfl⟩
  | _ => cases h

theorem tied_generated (p : Patch rt) (generated : List (GraphOperation rt))
    (hg : ∀ op ∈ generated, validateGuidanceOperation op = .ok ()) (trail : Trail)
    (s t : GraphState rt) (hs : s.Keyed) (h : Tied trail [] s)
    (hrun : Steps.run (applyOp p true) generated s = .ok t) : Tied trail [] t := by
  have key := Steps.run_invariant (applyOp p true)
    (fun u : GraphState rt => u.Keyed ∧ Tied trail [] u) generated
    (fun op hop u v hu hf => by
      obtain ⟨updates, rfl⟩ := guidance_updates op (hg op hop)
      have hedges := edges_applyOp_other p true _ rfl u v hu.1 hf
      have hnodes := mem_nodes_applyOp p true _ u v hu.1 hf
      exact ⟨keyed_applyOp p true _ u v hu.1 hf, hu.2.mono (fun x => (hnodes x).mpr) hedges⟩)
    s t ⟨hs, h⟩ hrun
  exact key.2

theorem foldl_after_generated (generated : List (GraphOperation rt))
    (hg : ∀ op ∈ generated, validateGuidanceOperation op = .ok ()) (trail : Trail) :
    generated.foldl Trail.after trail = trail := by
  induction generated with
  | nil => rfl
  | cons op ops ih =>
      obtain ⟨updates, rfl⟩ := guidance_updates op (hg op List.mem_cons_self)
      exact ih fun op' h => hg op' (List.mem_cons_of_mem _ h)

theorem NoDangling_of_alike (s t : GraphState rt) (h : Alike s t) (ht : t.NoDangling) :
    s.NoDangling := by
  intro id e he
  have hget := h.get?_edges id
  rw [he, Option.map_some] at hget
  obtain ⟨f, hf, hef⟩ := Option.map_eq_some_iff.mp hget.symm
  have hsource : f.source = e.source := show f.erased.source = e.erased.source by rw [hef]
  have htarget : f.target = e.target := show f.erased.target = e.erased.target by rw [hef]
  rw [h.nodes, ← hsource, ← htarget]
  exact ht id f hf

/-- A patch that passes validation and spares what it removed keeps every endpoint. -/
theorem noDangling_step (s : GraphState rt) (p : Patch rt) (vc : ValidationContext rt)
    (request : PatchRequest) (t : GraphState rt) (hspares : p.SparesRemoved)
    (hv : rejected (validatePatch s p vc request) = false) (ht : applyValidPatch s p = .ok t)
    (hs : s.Keyed ∧ s.NoDangling) : t.Keyed ∧ t.NoDangling := by
  obtain ⟨sources, generated, u, v, hops, hjudged, hg, hv', rfl⟩ :=
    validatePatch_accepted s p vc request t hv ht
  -- Over the source patches: what is tied up to the nodes that later sources create.
  have hinv := hjudged.invariant
    (fun rest s => s.Keyed ∧ ∃ trail,
      (rest.flatMap (·.ops)).foldl Trail.after trail = p.ops.foldl Trail.after {} ∧
        Tied trail (createdBy (rest.flatMap (·.ops))) s)
    (fun here s t source rest happ hplain ha hj hrun ⟨hkeyed, trail, hends, htied⟩ => by
      refine ⟨keyed_run p false source.ops s t hkeyed hrun, source.ops.foldl Trail.after trail,
        ?_, ?_⟩
      · rw [← hends, List.flatMap_cons, List.foldl_append]
      · refine tied_source vc.mode source p happ hplain here s t ha hj hrun _ trail hkeyed ?_
        rw [← createdBy_append, ← List.flatMap_cons]
        exact htied)
    ⟨hs.1, {}, ?_, ?_⟩
  · obtain ⟨hkeyed, trail, hends, htied⟩ := hinv
    have hv_keyed := keyed_run p true generated u v hkeyed hv'
    have htied' := tied_generated p generated hg trail u v hkeyed htied hv'
    have halike : Alike (relayer (p.ops.flatMap createdEdgeIds) v) v := relayer_alike _ v
    refine ⟨keyed_of_nodes _ v halike.nodes hv_keyed, ?_⟩
    have hsound : trail.Sound := by
      have : trail = p.ops.foldl Trail.after {} := hends
      rw [this]
      exact hspares
    exact (NoDangling_of_alike _ v halike (htied'.noDangling hsound) :)
  · rw [hops, List.foldl_append, foldl_after_generated generated hg]
  · exact Tied.of_noDangling hs.2 _ _

/-- In every run of validated patches that spare what they removed, no edge dangles. -/
theorem reachable_noDangling (s : GraphState rt)
    (h : Reachable (fun _ p => p.SparesRemoved) s) : s.NoDangling := by
  refine (Reachable.invariant (fun s => s.Keyed ∧ s.NoDangling) ?_ ?_ ?_ ?_ s h).2
  · intro scope
    constructor <;> intro id x hx <;> cases hx
  · intro s p vc request t hspares hv ht hs
    exact noDangling_step s p vc request t hspares hv ht hs
  · exact fun s messages hs => hs
  · exact fun s p hs => hs

/-- A research question as an agent files it. -/
def questionDraft (id : String) : RawNode .plain where
  id := id
  type := .researchQuestion
  extensionType := none
  standing := none
  createdRev := none
  updatedRev := none
  content := [("title", .str "Title"), ("question", .str "Question")]
  extensionType_ok := RawNode.no_extension
  content_ok := by rfl

def subquestionDraft (source target : String) : NewEdge where
  source := source
  target := target
  relation := "has_subquestion"
  relation_ok := by rfl

/-- An agent's first patch of a project. -/
def firstPatch (ops : List (GraphOperation .plain)) : Patch .plain where
  revision := 1
  kind := .work
  author := some .agent
  producer := .agent
  createdAt := "2026-01-01T00:00:00Z"
  summary := "First look."
  runTruthScope := ["repo"]
  ops := ops

/-- Two questions and the edge between them. -/
def relatedQuestions : Patch .plain :=
  firstPatch
    [ .createNodes [questionDraft "rq/a", questionDraft "rq/b"],
      .createEdges [subquestionDraft "rq/a" "rq/b"] ]

/-- The edge names a question that the patch created and has removed again. -/
def relatedToRemoved : Patch .plain :=
  firstPatch
    [ .createNodes [questionDraft "rq/a", questionDraft "rq/b"], .removeNodes ["rq/a"],
      .createEdges [subquestionDraft "rq/a" "rq/b"] ]

theorem noDangling_relatedQuestions :
    ∃ t, applyValidPatch (.initial .plain ["repo"]) relatedQuestions = .ok t ∧
      t.edges.keys = ["rq/a::has_subquestion::rq/b"] ∧ (t.record []).NoDangling := by
  refine ⟨_, rfl, rfl, reachable_noDangling _ ?_⟩
  exact .accept _ _ relatedQuestions { projectTruthScope := ["repo"] } {} [] (.initial ["repo"])
    (by decide) (by decide) rfl

theorem dangling_relatedToRemoved :
    ¬∀ s : GraphState .plain, Reachable (fun _ _ => True) s → s.NoDangling := by
  intro h
  have hd : ∃ t, applyValidPatch (.initial .plain ["repo"]) relatedToRemoved = .ok t ∧
      ¬(t.record []).NoDangling := ⟨_, rfl, by decide⟩
  obtain ⟨t, ht, hdangling⟩ := hd
  exact hdangling (h _ (.accept _ t relatedToRemoved { projectTruthScope := ["repo"] } {} []
    (.initial ["repo"]) trivial (by decide) ht))

end Runs

end RcpGraph
