import RcpGraph.Core.Layers
import RcpGraph.History.Admitted

/-!
Edges written before their endpoints. A fold over the operations of a request
keeps the node types and the edges that were written too early; it follows every
run of operations the gates accept, and says which created edges would get
another layer at the end of the patch.
-/

namespace RcpGraph

variable {rt : Runtime}

section Sketch

/-- What the operations of a request say about edges written before their endpoints:
the node types so far, and such edges with their endpoints and declared layer. -/
structure Sketch where
  types : Dict String NodeType
  ontology : OntologyState
  early : Dict String (String × String × RelationLayer) := .empty

def Sketch.of (s : GraphState rt) : Sketch where
  types := s.nodes.map fun _ n => n.type
  ontology := s.ontology

def Sketch.write (k : Sketch) (raw : NewEdge) : Sketch :=
  if raw.source ∈ k.types ∧ raw.target ∈ k.types then k
  else
    match raw.writtenId, declaredLayer k.ontology raw.relation with
    | some id, some declared =>
        { k with early := k.early.insert id (raw.source, raw.target, declared) }
    | _, _ => k

def Sketch.after (k : Sketch) : GraphOperation rt → Sketch
  | .createNodes nodes =>
      { k with types := nodes.foldl (fun types raw => types.insert raw.id raw.type) k.types }
  | .createEdges edges => edges.foldl Sketch.write k
  | .removeEdges ids => { k with early := ids.foldl Dict.erase k.early }
  | .removeNodes ids =>
      { k with
        types := k.types.filter fun id _ => id ∉ ids
        early := k.early.filter fun _ e => e.1 ∉ ids && e.2.1 ∉ ids }
  | .setOntology ontology => { k with ontology := ontology }
  | _ => k

/-- An edge that is still there without its endpoints' layer has the declared one. -/
def Sketch.Settled (k : Sketch) : Prop :=
  ∀ e ∈ k.early.values,
    typePairLayer (k.types.get? e.1) (k.types.get? e.2.1) e.2.2 = e.2.2

instance (k : Sketch) : Decidable k.Settled :=
  inferInstanceAs (Decidable (∀ e ∈ k.early.values, _))

/-- No edge of these operations that was written before one of its endpoints, and whose
endpoints are there at the end, has a declared layer other than the one of their types. -/
def SettlesLayers (s : GraphState rt) (ops : List (GraphOperation rt)) : Prop :=
  (ops.foldl Sketch.after (.of s)).Settled

instance (s : GraphState rt) (ops : List (GraphOperation rt)) : Decidable (SettlesLayers s ops) :=
  inferInstanceAs (Decidable (Sketch.Settled _))

end Sketch

section Tracks

/-- An edge whose layer no later operation can unsettle. -/
def Edge.Fixed (s : GraphState rt) (e : Edge) : Prop :=
  e.layer = .metaLayer ∨ e.source ∈ s.nodes ∧ e.target ∈ s.nodes ∧ e.Settled s

theorem Edge.Fixed.settled {s : GraphState rt} {e : Edge} (h : e.Fixed s) : e.Settled s := by
  rcases h with h | ⟨-, -, h⟩
  · rw [Edge.Settled, h]
    exact typePairLayer_meta _ _
  · exact h

theorem Edge.Fixed.mono {s t : GraphState rt} {e : Edge} (h : e.Fixed s)
    (hkeep : ∀ x, x = e.source ∨ x = e.target → x ∈ s.nodes → t.nodeType? x = s.nodeType? x) :
    e.Fixed t := by
  rcases h with h | ⟨hsource, htarget, h⟩
  · exact .inl h
  · have there : ∀ x, x = e.source ∨ x = e.target → x ∈ s.nodes → x ∈ t.nodes := by
      intro x hx hmem
      have hsame := hkeep x hx hmem
      rw [Dict.mem_iff_isSome] at hmem ⊢
      simpa [GraphState.nodeType?] using (congrArg Option.isSome hsame).trans (by
        simpa [GraphState.nodeType?] using hmem)
    refine .inr ⟨there _ (.inl rfl) hsource, there _ (.inr rfl) htarget, ?_⟩
    rw [Edge.Settled, edgeLayer, hkeep _ (.inl rfl) hsource, hkeep _ (.inr rfl) htarget]
    exact h

/-- A sketch against the graph its operations lead to; `written` are the ids that
`create_edges` wrote. -/
structure Tracks (k : Sketch) (written : List String) (s : GraphState rt) : Prop where
  types : ∀ x, s.nodeType? x = k.types.get? x
  ontology : s.ontology = k.ontology
  early : ∀ id src tgt d, k.early.get? id = some (src, tgt, d) → id ∈ written ∧
    ∃ e, s.edges.get? id = some e ∧ e.source = src ∧ e.target = tgt ∧ e.layer = d
  late : ∀ id ∈ written, ∀ e, s.edges.get? id = some e → id ∈ k.early ∨ e.Fixed s

theorem tracks_of (s : GraphState rt) : Tracks (.of s) [] s where
  types x := by simp [Sketch.of, GraphState.nodeType?]
  ontology := rfl
  early id src tgt d h := by cases h
  late id h := by cases h

theorem Tracks.mem {k : Sketch} {written : List String} {s : GraphState rt}
    (h : Tracks k written s) (x : String) : x ∈ k.types ↔ x ∈ s.nodes := by
  have := h.types x
  rw [Dict.mem_iff_isSome, Dict.mem_iff_isSome, ← this]
  simp [GraphState.nodeType?]

/-- Both directions of the comparison are read off the sketch. -/
theorem Tracks.settled_iff {k : Sketch} {written : List String} {s : GraphState rt}
    (h : Tracks k written s) :
    (∀ id ∈ written, ∀ e, s.edges.get? id = some e → e.Settled s) ↔ k.Settled := by
  constructor
  · rintro hall ⟨src, tgt, d⟩ hmem
    obtain ⟨id, hid⟩ := (Dict.mem_values _ _).mp hmem
    obtain ⟨hw, e, he, rfl, rfl, rfl⟩ := h.early id src tgt d hid
    have := hall id hw e he
    rw [Edge.Settled, edgeLayer, h.types, h.types] at this
    exact this
  · intro hk id hid e he
    rcases h.late id hid e he with hearly | hfixed
    · obtain ⟨⟨src, tgt, d⟩, hget⟩ := (Dict.mem_iff_exists _ _).mp hearly
      obtain ⟨-, e', he', rfl, rfl, rfl⟩ := h.early id src tgt d hget
      rw [he] at he'
      cases he'
      rw [Edge.Settled, edgeLayer, h.types, h.types]
      exact hk _ ((Dict.mem_values _ _).mpr ⟨id, hget⟩)
    · exact hfixed.settled

/-- A step that leaves edges, types and ontology alone. -/
theorem Tracks.frame {k : Sketch} {written : List String} {s t : GraphState rt}
    (h : Tracks k written s) (hedges : t.edges = s.edges)
    (htypes : ∀ x, t.nodeType? x = s.nodeType? x) (hontology : t.ontology = s.ontology) :
    Tracks k written t := by
  refine ⟨fun x => (htypes x).trans (h.types x), hontology.trans h.ontology, ?_, ?_⟩
  · rw [hedges]
    exact h.early
  · rw [hedges]
    intro id hid e he
    exact (h.late id hid e he).imp_right fun hf => hf.mono fun x _ _ => htypes x

theorem nodeType?_createNodes (revision : Nat) (nodes : List (RawNode rt)) (s : GraphState rt)
    (types : Dict String NodeType) (h : ∀ x, s.nodeType? x = types.get? x) (x : String) :
    (nodes.foldl (fun s raw => createNode revision raw s) s).nodeType? x =
      (nodes.foldl (fun types raw => types.insert raw.id raw.type) types).get? x := by
  induction nodes generalizing s types with
  | nil => exact h x
  | cons raw nodes ih =>
      refine ih _ _ fun y => ?_
      have := h y
      simp only [GraphState.nodeType?, createNode, Dict.get?_insert] at this ⊢
      by_cases hy : y = raw.id
      · simp [hy, RawNode.create]
      · simp [hy, this]

theorem Tracks.createNodes {k : Sketch} {written : List String} {s t : GraphState rt}
    (h : Tracks k written s) (p : Patch rt) (generated : Bool) (nodes : List (RawNode rt))
    (hnew : ∀ raw ∈ nodes, raw.id ∉ s.nodes) (hs : s.Keyed)
    (happ : applyOp p generated (.createNodes nodes) s = .ok t) :
    Tracks (k.after (.createNodes nodes : GraphOperation rt)) written t := by
  have hedges := edges_applyOp_other p generated _ rfl s t hs happ
  refine ⟨fun x => ?_, ?_, ?_, ?_⟩
  · cases happ
    exact nodeType?_createNodes p.revision nodes s k.types h.types x
  · rw [ontology_applyOp p generated _ (fun _ h => by cases h) s t happ]
    exact h.ontology
  · rw [hedges]
    exact h.early
  · rw [hedges]
    intro id hid e he
    refine (h.late id hid e he).imp_right fun hf => hf.mono fun x _ hx => ?_
    refine nodeType?_applyOp p generated _ s t hs happ x (fun hc => ?_) (fun ids hids => by cases hids)
    obtain ⟨raw, hraw, rfl⟩ := List.mem_map.mp hc
    exact hnew raw hraw hx

theorem Tracks.removeNodes {k : Sketch} {written : List String} {s : GraphState rt}
    (h : Tracks k written s) (ids : List String) :
    Tracks (k.after (.removeNodes ids : GraphOperation rt)) written (removeNodes ids s) := by
  have kept : ∀ id e, (RcpGraph.removeNodes ids s).edges.get? id = some e →
      s.edges.get? id = some e ∧ e.source ∉ ids ∧ e.target ∉ ids := by
    intro id e he
    simpa only [RcpGraph.removeNodes, Dict.get?_filter, Option.filter_eq_some_iff,
      Bool.and_eq_true, decide_eq_true_eq] using he
  have types : ∀ x, x ∉ ids → (RcpGraph.removeNodes ids s).nodeType? x = s.nodeType? x := by
    intro x hx
    simp only [GraphState.nodeType?, RcpGraph.removeNodes, Dict.get?_filter]
    cases s.nodes.get? x <;> simp [Option.filter, hx]
  refine ⟨fun x => ?_, h.ontology, fun id src tgt d he => ?_, fun id hid e he => ?_⟩
  · simp only [Sketch.after, Dict.get?_filter]
    by_cases hx : x ∈ ids
    · simp only [GraphState.nodeType?, RcpGraph.removeNodes, Dict.get?_filter]
      cases s.nodes.get? x <;> cases k.types.get? x <;> simp [Option.filter, hx]
    · rw [types x hx, h.types x]
      cases k.types.get? x <;> simp [Option.filter, hx]
  · simp only [Sketch.after, Dict.get?_filter, Option.filter_eq_some_iff, Bool.and_eq_true,
      decide_eq_true_eq] at he
    obtain ⟨he, hsrc, htgt⟩ := he
    obtain ⟨hw, e, hget, rfl, rfl, rfl⟩ := h.early id src tgt d he
    refine ⟨hw, e, ?_, rfl, rfl, rfl⟩
    simp [RcpGraph.removeNodes, hget, Option.filter, hsrc, htgt]
  · obtain ⟨he, hsource, htarget⟩ := kept id e he
    rcases h.late id hid e he with hearly | hfixed
    · left
      obtain ⟨⟨src, tgt, d⟩, hget⟩ := (Dict.mem_iff_exists _ _).mp hearly
      obtain ⟨-, e', he', rfl, rfl, rfl⟩ := h.early id src tgt d hget
      rw [he] at he'
      cases he'
      rw [Dict.mem_iff_exists]
      refine ⟨(e.source, e.target, e.layer), ?_⟩
      simp only [Sketch.after, Dict.get?_filter, hget]
      simp [Option.filter, hsource, htarget]
    · refine .inr (hfixed.mono fun x hx _ => types x ?_)
      rcases hx with rfl | rfl
      · exact hsource
      · exact htarget

theorem Tracks.removeEdges {k : Sketch} {written : List String} {s : GraphState rt}
    (h : Tracks k written s) (ids : List String) :
    Tracks (k.after (.removeEdges ids : GraphOperation rt)) written (removeEdges ids s) := by
  refine ⟨h.types, h.ontology, fun id src tgt d he => ?_, fun id hid e he => ?_⟩
  · simp only [Sketch.after, Dict.get?_foldl_erase] at he
    split at he
    next => cases he
    next hid =>
      obtain ⟨hw, e, hget, hfields⟩ := h.early id src tgt d he
      exact ⟨hw, e, by simp [RcpGraph.removeEdges, Dict.get?_foldl_erase, hid, hget], hfields⟩
  · simp only [RcpGraph.removeEdges, Dict.get?_foldl_erase] at he
    split at he
    next => cases he
    next hmem =>
      refine (h.late id hid e he).imp_left fun hearly => ?_
      rw [Dict.mem_iff_isSome] at hearly ⊢
      simpa [Sketch.after, Dict.get?_foldl_erase, hmem] using hearly

/-- One edge under an id the graph does not have. -/
theorem Tracks.createEdge {k : Sketch} {written : List String} {s t : GraphState rt}
    (h : Tracks k written s) (revision : Nat) (raw : NewEdge) (id : String)
    (hid : raw.writtenId = some id) (hfresh : id ∉ s.edges)
    (happ : createEdge revision raw s = .ok t) :
    Tracks (k.write raw) (written ++ [id]) t := by
  obtain ⟨id', declared, hid', hd, rfl⟩ := createEdge_ok revision raw s t happ
  rw [hid] at hid'
  cases hid'
  have other : ∀ x e, s.edges.get? x = some e → x ≠ id := by
    rintro x e he rfl
    exact hfresh (Dict.mem_of_get? he)
  have old : ∀ x e, s.edges.get? x = some e →
      (addEdge (raw.edgeIn s id declared revision) s).edges.get? x = some e := by
    intro x e he
    simp [addEdge, NewEdge.edgeIn, other x e he, he]
  -- The edge that was written is fixed when both endpoints are there, and early otherwise.
  by_cases hends : raw.source ∈ k.types ∧ raw.target ∈ k.types
  · rw [Sketch.write, if_pos hends]
    refine ⟨h.types, h.ontology, fun x src tgt d hx => ?_, fun x hx e he => ?_⟩
    · obtain ⟨hw, e, he, hfields⟩ := h.early x src tgt d hx
      exact ⟨List.mem_append_left _ hw, e, old x e he, hfields⟩
    · simp only [addEdge, NewEdge.edgeIn, Dict.get?_insert] at he
      split at he
      next =>
        cases he
        exact .inr (.inr ⟨(h.mem _).mp hends.1, (h.mem _).mp hends.2, typePairLayer_idem _ _ _⟩)
      next hne =>
        have hx : x ∈ written := by
          rcases List.mem_append.mp hx with hx | hx
          · exact hx
          · exact absurd (List.mem_singleton.mp hx) hne
        exact h.late x hx e he
  · have hd' : declaredLayer k.ontology raw.relation = some declared := h.ontology ▸ hd
    simp only [Sketch.write, if_neg hends, hid, hd']
    have hmissing : s.nodeType? raw.source = none ∨ s.nodeType? raw.target = none := by
      rw [h.types, h.types, ← Dict.not_mem_iff, ← Dict.not_mem_iff]
      exact Decidable.not_and_iff_or_not.mp hends
    refine ⟨h.types, h.ontology, fun x src tgt d hx => ?_, fun x hx e he => ?_⟩
    · simp only [Dict.get?_insert] at hx
      split at hx
      next heq =>
        cases hx
        refine ⟨by simp [heq], _, by simp [addEdge, NewEdge.edgeIn, heq]; rfl, rfl, rfl, ?_⟩
        exact typePairLayer_missing _ _ _ hmissing
      next =>
        obtain ⟨hw, e, he, hfields⟩ := h.early x src tgt d hx
        exact ⟨List.mem_append_left _ hw, e, old x e he, hfields⟩
    · by_cases heq : x = id
      · exact .inl (by simp [heq])
      · simp only [addEdge, NewEdge.edgeIn, Dict.get?_insert, heq, if_false] at he
        have hx : x ∈ written := by
          rcases List.mem_append.mp hx with hx | hx
          · exact hx
          · exact absurd (List.mem_singleton.mp hx) heq
        exact (h.late x hx e he).imp_left fun hearly => by simp [hearly]

theorem Tracks.createEdges (ctx : OpContext rt) (hmode : ctx.mode = .admission)
    (revision : Nat) (edges : List NewEdge) (seen : List String)
    (hr : refused (createEdgesIssues ctx seen edges) = false) (k : Sketch) (written : List String)
    (s t : GraphState rt) (hseen : ∀ id ∈ s.edges, id ∈ seen) (h : Tracks k written s)
    (hrun : Steps.run (RcpGraph.createEdge revision) edges s = .ok t) :
    Tracks (edges.foldl Sketch.write k) (written ++ edges.filterMap NewEdge.writtenId) t := by
  induction edges generalizing seen k written s with
  | nil =>
      cases hrun
      simpa using h
  | cons raw edges ih =>
      obtain ⟨u, hu, hrest⟩ := (Steps.run_cons_ok _ raw edges s t).mp hrun
      obtain ⟨id, hid, hunseen, hr⟩ := createEdgesIssues_cons ctx hmode seen raw edges hr
      have hstep := h.createEdge revision raw id hid (fun hmem => hunseen (hseen id hmem)) hu
      rw [List.foldl_cons, List.filterMap_cons_some hid,
        show written ++ id :: edges.filterMap NewEdge.writtenId =
          (written ++ [id]) ++ edges.filterMap NewEdge.writtenId by simp]
      refine ih (id :: seen) hr _ _ u (fun x hx => ?_) hstep hrest
      obtain ⟨id', declared, hid', -, rfl⟩ := createEdge_ok revision raw s u hu
      rw [hid] at hid'
      cases hid'
      simp only [addEdge, NewEdge.edgeIn, Dict.mem_insert] at hx
      rcases hx with rfl | hx
      · exact List.mem_cons_self
      · exact List.mem_cons_of_mem _ (hseen x hx)

/-- An operation whose edges are all of the meta layer. -/
theorem Tracks.meta {k : Sketch} {written : List String} {s t : GraphState rt}
    (h : Tracks k written s) (ctx : OpContext rt) (hmode : ctx.mode = .admission) (p : Patch rt)
    (op : GraphOperation rt) (hs : s.Keyed) (ha : Alike ctx.state s)
    (hr : refused (patchRules ctx op) = false) (happ : applyOp p false op s = .ok t)
    (htypes : ∀ x, t.nodeType? x = s.nodeType? x) (hontology : t.ontology = s.ontology)
    (hlinks : ∀ id e, ¬op.Unlinks id e) (hmeta : ∀ e, op.Writes e → e.layer = .metaLayer) :
    Tracks k written t := by
  obtain ⟨hafter, hbefore⟩ := edges_applyOp p false op s t hs happ
  refine ⟨fun x => (htypes x).trans (h.types x), hontology.trans h.ontology,
    fun id src tgt d he => ?_, fun id hid e he => ?_⟩
  · obtain ⟨hw, e, he, hfields⟩ := h.early id src tgt d he
    refine ⟨hw, e, ?_, hfields⟩
    rcases hbefore id e he with he | hunlinks | hwritten
    · exact he
    · exact absurd hunlinks (hlinks id e)
    · exact absurd (ha.mem_edges id |>.mpr (Dict.mem_of_get? he))
        (unwritten_of_accepted ctx hmode op hr id hwritten)
  · rcases hafter id e he with he | ⟨-, hwrites⟩
    · exact (h.late id hid e he).imp_right fun hf => hf.mono fun x _ _ => htypes x
    · exact .inr (.inl (hmeta e hwrites))

/-- The sketch follows every operation the gates accept. -/
theorem Tracks.step (ctx : OpContext rt) (hmode : ctx.mode = .admission) (p : Patch rt)
    (op : GraphOperation rt) (k : Sketch) (written : List String) (s t : GraphState rt)
    (hs : s.Keyed) (ha : Alike ctx.state s) (hr : refused (patchRules ctx op) = false)
    (happ : applyOp p false op s = .ok t) (h : Tracks k written s) :
    Tracks (k.after op) (written ++ createdEdgeIds op) t := by
  have types : (∀ nodes, op ≠ .createNodes nodes) → (∀ ids, op ≠ .removeNodes ids) →
      ∀ x, t.nodeType? x = s.nodeType? x := by
    intro hcreate hremove x
    refine nodeType?_applyOp p false op s t hs happ x (fun hx => ?_)
      (fun ids hids => absurd hids (hremove ids))
    cases op with
    | createNodes nodes => exact hcreate nodes rfl
    | _ => cases hx
  cases op with
  | createNodes nodes =>
      simp only [createdEdgeIds, List.append_nil]
      refine h.createNodes p false nodes (fun raw hraw => ?_) hs happ
      rw [← ha.nodes]
      exact created_new ctx nodes hr raw hraw
  | createEdges edges =>
      simp only [patchRules, effectRules, rulesOf, structuralIssues, refused_append,
        Bool.or_eq_false_iff] at hr
      exact Tracks.createEdges ctx hmode p.revision edges _ hr.1 k written s t
        (fun id hid => (ha.mem_edges id).mpr hid) h happ
  | removeNodes ids =>
      simp only [createdEdgeIds, List.append_nil]
      cases happ
      exact h.removeNodes ids
  | removeEdges ids =>
      simp only [createdEdgeIds, List.append_nil]
      cases happ
      exact h.removeEdges ids
  | setOntology ontology =>
      simp only [createdEdgeIds, List.append_nil]
      cases happ
      exact ⟨h.types, rfl, h.early, h.late⟩
  | supersedeNodes items =>
      simp only [createdEdgeIds, List.append_nil]
      exact h.meta ctx hmode p _ hs ha hr happ
        (types (fun _ h => (by cases h)) (fun _ h => by cases h))
        (ontology_applyOp p false _ (fun _ h => by cases h) s t happ) (fun _ _ h => h)
        (fun e hw => hw.1)
  | mergeNodes merges =>
      simp only [createdEdgeIds, List.append_nil]
      exact h.meta ctx hmode p _ hs ha hr happ
        (types (fun _ h => (by cases h)) (fun _ h => by cases h))
        (ontology_applyOp p false _ (fun _ h => by cases h) s t happ) (fun _ _ h => h)
        (fun e hw => hw.1)
  | _ =>
      simp only [createdEdgeIds, List.append_nil]
      exact h.frame (edges_applyOp_other p false _ rfl s t hs happ)
        (types (fun _ h => (by cases h)) (fun _ h => by cases h))
        (ontology_applyOp p false _ (fun _ h => by cases h) s t happ)

end Tracks

section Sources

theorem Sketch.after_finalized (ops finals : List (GraphOperation rt))
    (h : List.Forall₂ Finalized ops finals) (k : Sketch) :
    finals.foldl Sketch.after k = ops.foldl Sketch.after k := by
  induction h generalizing k with
  | nil => rfl
  | @cons op final _ _ hop _ ih =>
      obtain ⟨staged, rfl⟩ := hop
      have hstep : k.after (finalizeOperation staged op) = k.after op := by cases op <;> rfl
      rw [List.foldl_cons, List.foldl_cons, hstep, ih]

/-- The sketch of judged source patches follows their run. -/
theorem tracks_source (project : Project rt) (revision : Nat) (raws : List (Patch rt))
    (source p : Patch rt) (happ : source.applies = p.applies) (hplain : source.transition = none)
    (here s t : GraphState rt) (ha : Alike here s) (hj : Admitted project revision raws here source)
    (hrun : Steps.run (applyOp p false) source.ops s = .ok t) (hs : s.Keyed) (k : Sketch)
    (written : List String) (h : Tracks k written s) :
    Tracks (source.ops.foldl Sketch.after k) (written ++ source.ops.flatMap createdEdgeIds) t := by
  obtain ⟨raw, -, -, -, hissues⟩ := hj.gates hplain
  obtain ⟨-, k', written', htracks, hk, hw⟩ := patchIssues_run here source _ _ hissues p happ hplain
    (fun rest u => u.Keyed ∧ ∃ k' written', Tracks k' written' u ∧
      rest.foldl Sketch.after k' = source.ops.foldl Sketch.after k ∧
      written' ++ rest.flatMap createdEdgeIds = written ++ source.ops.flatMap createdEdgeIds)
    (by
      rintro op rest ctx u v hop ⟨a, r, rfl⟩ hau hr happlied ⟨hu, k', written', htracks, hk, hw⟩
      refine ⟨keyed_applyOp p false op u v hu happlied, k'.after op,
        written' ++ createdEdgeIds op, ?_, hk, ?_⟩
      · exact Tracks.step _ (mode_admissionContext project here source) p op k' written' u v hu hau
          hr happlied htracks
      · rw [List.append_assoc, ← List.flatMap_cons]
        exact hw)
    s t ha hrun ⟨hs, k, written, h, rfl, rfl⟩
  rw [List.foldl_nil] at hk
  rw [List.flatMap_nil, List.append_nil] at hw
  rw [← hk, ← hw]
  exact htracks

theorem tracks_run (project : Project rt) (revision : Nat) (raws : List (Patch rt)) (p : Patch rt)
    (admitted : List (Patch rt)) (s u : GraphState rt) (hs : s.Keyed)
    (h : JudgedRun (Admitted project revision raws) p admitted s u) :
    Tracks ((admitted.flatMap (·.ops)).foldl Sketch.after (.of s))
      ((admitted.flatMap (·.ops)).flatMap createdEdgeIds) u := by
  obtain ⟨-, k, written, htracks, hk, hw⟩ := h.invariant
    (fun rest v => v.Keyed ∧ ∃ k written, Tracks k written v ∧
      (rest.flatMap (·.ops)).foldl Sketch.after k =
        (admitted.flatMap (·.ops)).foldl Sketch.after (.of s) ∧
      written ++ (rest.flatMap (·.ops)).flatMap createdEdgeIds =
        (admitted.flatMap (·.ops)).flatMap createdEdgeIds)
    (fun here v w source rest happ hplain ha hj hrun ⟨hv, k, written, htracks, hk, hw⟩ => by
      refine ⟨keyed_run p false _ v w hv hrun, source.ops.foldl Sketch.after k,
        written ++ source.ops.flatMap createdEdgeIds, ?_, ?_, ?_⟩
      · exact tracks_source project revision raws source p happ hplain here v w ha hj hrun hv k
          written htracks
      · rw [← hk, List.flatMap_cons, List.foldl_append]
      · rw [← hw, List.flatMap_cons, List.flatMap_append, List.append_assoc])
    ⟨hs, .of s, [], tracks_of s, rfl, rfl⟩
  rw [List.flatMap_nil, List.foldl_nil] at hk
  rw [List.flatMap_nil, List.flatMap_nil, List.append_nil] at hw
  rw [← hk, ← hw]
  exact htracks

end Sources

end RcpGraph
