import RcpGraph.Core.Effects

/-!
Edges under operations. An operation writes the edges of its payload, under ids
it names, and takes away those it removes or whose endpoint it removes; deriving
layers again at the end of a patch rewrites the layer of a created edge and
nothing else.
-/

namespace RcpGraph

variable {rt : Runtime}

/-- An edge with its layer derived again from a graph. -/
def Edge.rederive (s : GraphState rt) (e : Edge) : Edge :=
  { e with layer := edgeLayer s e.source e.target e.layer }

section Relayer

theorem edgeLayer_of_nodes (s t : GraphState rt) (h : s.nodes = t.nodes) :
    edgeLayer s = edgeLayer t := by
  funext source target declared
  simp only [edgeLayer, GraphState.nodeType?, h]

theorem Edge.rederive_rederive (s : GraphState rt) (e : Edge) :
    (e.rederive s).rederive s = e.rederive s := by
  simp [Edge.rederive, edgeLayer, typePairLayer_idem]

theorem nodes_relayerEdge (id : String) (s : GraphState rt) :
    (relayerEdge id s).nodes = s.nodes := (relayerEdge_alike id s).nodes

theorem get?_relayerEdge (id x : String) (s : GraphState rt) :
    (relayerEdge id s).edges.get? x =
      if x = id then (s.edges.get? x).map (Edge.rederive s) else s.edges.get? x := by
  unfold relayerEdge
  cases he : s.edges.get? id with
  | none =>
      by_cases hx : x = id
      · simp [hx, he]
      · simp [hx]
  | some e =>
      by_cases hd : edgeLayer s e.source e.target e.layer = e.layer
      · simp only [hd, if_true]
        by_cases hx : x = id
        · simp [hx, he, Edge.rederive, hd]
        · simp [hx]
      · simp only [hd, if_false, Dict.get?_insert]
        by_cases hx : x = id
        · simp [hx, he, Edge.rederive]
        · simp [hx]

/-- Deriving the layers of some edges again, edge by edge. -/
theorem get?_relayer (ids : List String) (s : GraphState rt) (x : String) :
    (relayer ids s).edges.get? x =
      if x ∈ ids then (s.edges.get? x).map (Edge.rederive s) else s.edges.get? x := by
  have aux : ∀ (xs : List String) (u : GraphState rt), u.nodes = s.nodes →
      (xs.foldl (fun s id => relayerEdge id s) u).edges.get? x =
        if x ∈ xs then (u.edges.get? x).map (Edge.rederive s) else u.edges.get? x := by
    intro xs
    induction xs with
    | nil => simp
    | cons y ys ih =>
        intro u hu
        have hsame : Edge.rederive u = Edge.rederive s := by
          funext e
          simp only [Edge.rederive, edgeLayer_of_nodes u s hu]
        rw [List.foldl_cons, ih _ ((nodes_relayerEdge y u).trans hu), get?_relayerEdge, hsame]
        simp only [List.mem_cons]
        by_cases hy : x = y
        · simp only [hy, true_or, if_true]
          split
          · cases u.edges.get? y <;> simp [Edge.rederive_rederive]
          · rfl
        · simp only [hy, false_or, if_false]
  have := aux (Text.stableUnion ids) s rfl
  simp only [Text.mem_stableUnion] at this
  exact this

theorem relayer_same_iff (ids : List String) (s : GraphState rt) :
    (∀ x, (relayer ids s).edges.get? x = s.edges.get? x) ↔
      ∀ x ∈ ids, ∀ e, s.edges.get? x = some e → e.rederive s = e := by
  simp only [get?_relayer]
  constructor
  · intro h x hx e he
    have := h x
    rw [if_pos hx, he] at this
    exact Option.some.inj this
  · intro h x
    split
    next hx =>
      cases he : s.edges.get? x with
      | none => rfl
      | some e => rw [Option.map_some, h x hx e he]
    next => rfl

theorem relayerEdge_eq (id : String) (s : GraphState rt) :
    ∃ edges, relayerEdge id s = { s with edges := edges } := by
  unfold relayerEdge
  split
  · exact ⟨s.edges, rfl⟩
  · simp only
    split
    · exact ⟨s.edges, rfl⟩
    · exact ⟨_, rfl⟩

theorem relayer_eq (ids : List String) (s : GraphState rt) :
    relayer ids s = { s with edges := (relayer ids s).edges } := by
  have aux : ∀ (xs : List String) (u : GraphState rt), (∃ edges, u = { s with edges := edges }) →
      ∃ edges, xs.foldl (fun s id => relayerEdge id s) u = { s with edges := edges } := by
    intro xs
    induction xs with
    | nil => exact fun u h => h
    | cons x xs ih =>
        rintro u ⟨edges, rfl⟩
        refine ih _ ?_
        obtain ⟨edges', h⟩ := relayerEdge_eq x { s with edges := edges }
        exact ⟨edges', h⟩
  obtain ⟨edges, h⟩ := aux (Text.stableUnion ids) s ⟨s.edges, rfl⟩
  change relayer ids s = _ at h
  rw [h]

end Relayer

section Written

/-- An edge as one item of an operation's payload describes it. -/
def GraphOperation.Writes (op : GraphOperation rt) (e : Edge) : Prop :=
  match op with
  | .createEdges edges =>
      ∃ raw ∈ edges, e.relation = raw.relation ∧ e.source = raw.source ∧ e.target = raw.target
  | .supersedeNodes items =>
      e.layer = .metaLayer ∧
        ∃ i ∈ items, e.relation = "supersedes" ∧ e.source = i.id ∧ i.supersededBy = some e.target
  | .mergeNodes merges =>
      e.layer = .metaLayer ∧
        ∃ m ∈ merges, e.relation = "duplicate_of" ∧ e.source = m.duplicate ∧ e.target = m.canonical
  | _ => False

/-- An edge an operation takes away. -/
def GraphOperation.Unlinks (op : GraphOperation rt) (id : String) (e : Edge) : Prop :=
  match op with
  | .removeEdges ids => id ∈ ids
  | .removeNodes ids => e.source ∈ ids ∨ e.target ∈ ids
  | _ => False

/-- Items that each write at most one edge: what is there afterwards was there before or
was written, and what was there before stays unless its id was written. -/
theorem edges_run {α : Type} (f : α → GraphState rt → Except String (GraphState rt))
    (W : α → Edge → Prop) (as : List α)
    (step : ∀ a ∈ as, ∀ s t, f a s = .ok t → t.edges = s.edges ∨
      ∃ e, W a e ∧ t.edges = s.edges.insert e.id e)
    (s t : GraphState rt) (h : Steps.run f as s = .ok t) :
    (∀ id e, t.edges.get? id = some e → s.edges.get? id = some e ∨ e.id = id ∧ ∃ a ∈ as, W a e) ∧
      ∀ id e, s.edges.get? id = some e →
        t.edges.get? id = some e ∨ ∃ a ∈ as, ∃ e', W a e' ∧ e'.id = id := by
  refine Steps.run_invariant f (fun t : GraphState rt =>
    (∀ id e, t.edges.get? id = some e → s.edges.get? id = some e ∨ e.id = id ∧ ∃ a ∈ as, W a e) ∧
      ∀ id e, s.edges.get? id = some e →
        t.edges.get? id = some e ∨ ∃ a ∈ as, ∃ e', W a e' ∧ e'.id = id) as
    (fun a ha u v hu hv => ?_) s t ⟨fun _ _ he => .inl he, fun _ _ he => .inl he⟩ h
  rcases step a ha u v hv with hsame | ⟨e, he, hsame⟩
  · rw [hsame]
    exact hu
  · rw [hsame]
    constructor
    · intro id e' he'
      rw [Dict.get?_insert] at he'
      split at he'
      next hid =>
        cases he'
        exact .inr ⟨hid.symm, a, ha, he⟩
      next => exact hu.1 id e' he'
    · intro id e' he'
      by_cases hid : id = e.id
      · exact .inr ⟨a, ha, e, he, hid.symm⟩
      · rw [Dict.get?_insert, if_neg hid]
        exact hu.2 id e' he'

/-- The edges after an operation, against those before it. -/
theorem edges_applyOp (p : Patch rt) (generated : Bool) (op : GraphOperation rt)
    (s t : GraphState rt) (hs : s.Keyed) (h : applyOp p generated op s = .ok t) :
    (∀ id e, t.edges.get? id = some e → s.edges.get? id = some e ∨
        id ∈ op.edgesWritten.map (·.1) ∧ op.Writes e) ∧
      ∀ id e, s.edges.get? id = some e →
        t.edges.get? id = some e ∨ op.Unlinks id e ∨ id ∈ op.edgesWritten.map (·.1) := by
  cases op with
  | createEdges edges =>
      obtain ⟨hafter, hbefore⟩ := edges_run (createEdge p.revision)
        (fun raw e => raw.writtenId = some e.id ∧ e.relation = raw.relation ∧
          e.source = raw.source ∧ e.target = raw.target) edges
        (fun raw _ s t hraw => by
          obtain ⟨id, declared, hid, -, rfl⟩ := createEdge_ok p.revision raw s t hraw
          exact .inr ⟨_, ⟨hid, rfl, rfl, rfl⟩, rfl⟩) s t h
      have written : ∀ raw ∈ edges, ∀ id, raw.writtenId = some id →
          id ∈ (GraphOperation.createEdges edges : GraphOperation rt).edgesWritten.map (·.1) := by
        intro raw hraw id hid
        refine List.mem_map.mpr ⟨(id, raw.source, raw.target), ?_, rfl⟩
        exact List.mem_filterMap.mpr ⟨raw, hraw, by simp [hid]⟩
      constructor
      · intro id e he
        rcases hafter id e he with he | ⟨rfl, raw, hraw, hid, hfields⟩
        · exact .inl he
        · exact .inr ⟨written raw hraw _ hid, raw, hraw, hfields⟩
      · intro id e he
        rcases hbefore id e he with he | ⟨raw, hraw, e', ⟨hid, -⟩, rfl⟩
        · exact .inl he
        · exact .inr (.inr (written raw hraw _ hid))
  | supersedeNodes items =>
      obtain ⟨hafter, hbefore⟩ := edges_run (supersedeNode p)
        (fun i e => i.edge? p.revision = some e) items
        (fun i _ s t hi => by
          obtain ⟨u, hu, rfl⟩ := supersedeNode_ok p i s t hi
          obtain ⟨-, hedges⟩ := retireNode_rewrites p i.id i.cause s u hu
          cases hedge : i.edge? p.revision with
          | none => exact .inl hedges
          | some e => exact .inr ⟨e, rfl, by simp [addEdge, hedges]⟩) s t h
      have written : ∀ i ∈ items, ∀ e, i.edge? p.revision = some e →
          e.id ∈ (GraphOperation.supersedeNodes items : GraphOperation rt).edgesWritten.map (·.1) ∧
            (GraphOperation.supersedeNodes items : GraphOperation rt).Writes e := by
        intro i hi e he
        obtain ⟨target, htarget, rfl⟩ := Option.map_eq_some_iff.mp he
        refine ⟨List.mem_map.mpr ⟨(derivedEdgeId i.id "supersedes" target, i.id, target), ?_, rfl⟩,
          rfl, i, hi, rfl, rfl, (Option.filter_eq_some_iff.mp htarget).1⟩
        refine List.mem_filterMap.mpr ⟨i, hi, ?_⟩
        rw [SupersedeNode.edge?, htarget]
        rfl
      constructor
      · intro id e he
        rcases hafter id e he with he | ⟨rfl, i, hi, hedge⟩
        · exact .inl he
        · exact .inr (written i hi e hedge)
      · intro id e he
        rcases hbefore id e he with he | ⟨i, hi, e', hedge, rfl⟩
        · exact .inl he
        · exact .inr (.inr (written i hi e' hedge).1)
  | mergeNodes merges =>
      obtain ⟨hafter, hbefore⟩ := edges_run (mergeNode p)
        (fun m e => e = generatedEdge m.duplicate "duplicate_of" m.canonical m.explanation
          p.revision) merges
        (fun m _ s t hm => by
          obtain ⟨u, hu, rfl⟩ := mergeNode_ok p m s t hm
          obtain ⟨-, hedges⟩ := retireNode_rewrites p m.duplicate m.cause s u hu
          exact .inr ⟨_, rfl, by simp [addEdge, hedges]⟩) s t h
      have written : ∀ m ∈ merges, derivedEdgeId m.duplicate "duplicate_of" m.canonical ∈
          (GraphOperation.mergeNodes merges : GraphOperation rt).edgesWritten.map (·.1) := by
        intro m hm
        exact List.mem_map.mpr ⟨_, List.mem_map.mpr ⟨m, hm, rfl⟩, rfl⟩
      constructor
      · intro id e he
        rcases hafter id e he with he | ⟨rfl, m, hm, rfl⟩
        · exact .inl he
        · exact .inr ⟨written m hm, rfl, m, hm, rfl, rfl, rfl⟩
      · intro id e he
        rcases hbefore id e he with he | ⟨m, hm, e', rfl, rfl⟩
        · exact .inl he
        · exact .inr (.inr (written m hm))
  | removeEdges ids =>
      cases h
      simp only [removeEdges, Dict.get?_foldl_erase]
      constructor
      · intro id e he
        split at he
        next => cases he
        next => exact .inl he
      · intro id e he
        by_cases hid : id ∈ ids
        · exact .inr (.inl hid)
        · exact .inl (by simp [hid, he])
  | removeNodes ids =>
      cases h
      simp only [removeNodes, Dict.get?_filter]
      constructor
      · intro id e he
        exact .inl (Option.filter_eq_some_iff.mp he).1
      · intro id e he
        by_cases hsource : e.source ∈ ids
        · exact .inr (.inl (.inl hsource))
        · by_cases htarget : e.target ∈ ids
          · exact .inr (.inl (.inr htarget))
          · exact .inl (by simp [he, Option.filter, hsource, htarget])
  | _ =>
      rw [edges_applyOp_other p generated _ rfl s t hs h]
      exact ⟨fun _ _ he => .inl he, fun _ _ he => .inl he⟩

/-- The ids whose layer is derived again are among the written ones. -/
theorem createdEdgeIds_written (op : GraphOperation rt) (id : String) (h : id ∈ createdEdgeIds op) :
    id ∈ op.edgesWritten.map (·.1) := by
  cases op with
  | createEdges edges =>
      obtain ⟨raw, hraw, hid⟩ := List.mem_filterMap.mp h
      refine List.mem_map.mpr ⟨(id, raw.source, raw.target), ?_, rfl⟩
      exact List.mem_filterMap.mpr ⟨raw, hraw, by simp [hid]⟩
  | _ => cases h

end Written

section Exact

/-- Graphs that differ at most in the watermark. -/
structure Exactly (s t : GraphState rt) : Prop where
  alike : Alike s t
  edges : s.edges = t.edges

namespace Exactly

variable {s t u : GraphState rt}

theorem refl (s : GraphState rt) : Exactly s s := ⟨.refl s, rfl⟩

theorem trans (h : Exactly s t) (h' : Exactly t u) : Exactly s u :=
  ⟨h.alike.trans h'.alike, h.edges.trans h'.edges⟩

/-- A step that does not see the layers, on graphs that also have them in common. -/
theorem step {f : GraphState rt → Except String (GraphState rt)} (hf : Blind f)
    (hedges : ∀ s t s' t', Exactly s t → f s = .ok s' → f t = .ok t' → s'.edges = t'.edges)
    {s' : GraphState rt} (h : Exactly s t) (hs' : f s = .ok s') :
    ∃ t', f t = .ok t' ∧ Exactly s' t' := by
  obtain ⟨t', ht', ha⟩ := hf.alike h.alike hs'
  exact ⟨t', ht', ha, hedges s t s' t' h hs' ht'⟩

end Exactly

theorem Alike.ontology {s t : GraphState rt} (h : Alike s t) : s.ontology = t.ontology :=
  show s.erased.ontology = t.erased.ontology by rw [h.eq]

theorem exactly_createEdge (revision : Nat) (raw : NewEdge) (s t s' : GraphState rt)
    (h : Exactly s t) (hs' : createEdge revision raw s = .ok s') :
    ∃ t', createEdge revision raw t = .ok t' ∧ Exactly s' t' := by
  refine Exactly.step (blind_createEdge revision raw) ?_ h hs'
  intro s t s' t' h hs' ht'
  obtain ⟨id, declared, hid, hd, rfl⟩ := createEdge_ok revision raw s s' hs'
  obtain ⟨id', declared', hid', hd', rfl⟩ := createEdge_ok revision raw t t' ht'
  rw [hid] at hid'
  rw [h.alike.ontology, hd'] at hd
  cases hid'
  cases hd
  simp only [addEdge, NewEdge.edgeIn, edgeLayer_of_nodes s t h.alike.nodes, h.edges]

theorem exactly_supersedeNode (p : Patch rt) (item : SupersedeNode) (s t s' : GraphState rt)
    (h : Exactly s t) (hs' : supersedeNode p item s = .ok s') :
    ∃ t', supersedeNode p item t = .ok t' ∧ Exactly s' t' := by
  refine Exactly.step (blind_supersedeNode p item) ?_ h hs'
  intro s t s' t' h hs' ht'
  obtain ⟨u, hu, rfl⟩ := supersedeNode_ok p item s s' hs'
  obtain ⟨v, hv, rfl⟩ := supersedeNode_ok p item t t' ht'
  have huv : u.edges = v.edges := by
    rw [(retireNode_rewrites p item.id item.cause s u hu).2, h.edges,
      (retireNode_rewrites p item.id item.cause t v hv).2]
  cases item.edge? p.revision with
  | none => exact huv
  | some e => simp only [addEdge, huv]

theorem exactly_mergeNode (p : Patch rt) (item : NodeMerge) (s t s' : GraphState rt)
    (h : Exactly s t) (hs' : mergeNode p item s = .ok s') :
    ∃ t', mergeNode p item t = .ok t' ∧ Exactly s' t' := by
  refine Exactly.step (blind_mergeNode p item) ?_ h hs'
  intro s t s' t' h hs' ht'
  obtain ⟨u, hu, rfl⟩ := mergeNode_ok p item s s' hs'
  obtain ⟨v, hv, rfl⟩ := mergeNode_ok p item t t' ht'
  simp only [addEdge, (retireNode_rewrites p item.duplicate item.cause s u hu).2, h.edges,
    (retireNode_rewrites p item.duplicate item.cause t v hv).2]

/-- An operation answers graphs with the same layers by graphs with the same layers. -/
theorem exactly_applyOp (p : Patch rt) (generated : Bool) (op : GraphOperation rt)
    (s t s' : GraphState rt) (hs : s.Keyed) (h : Exactly s t)
    (hs' : applyOp p generated op s = .ok s') :
    ∃ t', applyOp p generated op t = .ok t' ∧ Exactly s' t' := by
  have ht : t.Keyed := keyed_of_nodes t s h.alike.nodes.symm hs
  cases op with
  | createEdges edges =>
      exact Steps.run_related _ _ Exactly edges (fun raw _ => exactly_createEdge p.revision raw)
        s t s' h hs'
  | supersedeNodes items =>
      exact Steps.run_related _ _ Exactly items (fun i _ => exactly_supersedeNode p i) s t s' h hs'
  | mergeNodes merges =>
      exact Steps.run_related _ _ Exactly merges (fun m _ => exactly_mergeNode p m) s t s' h hs'
  | removeEdges ids =>
      obtain ⟨t', ht', ha⟩ := (blind_applyOp p generated (.removeEdges ids)).alike h.alike hs'
      refine ⟨t', ht', ha, ?_⟩
      cases hs'
      cases ht'
      simp only [removeEdges, h.edges]
  | removeNodes ids =>
      obtain ⟨t', ht', ha⟩ := (blind_applyOp p generated (.removeNodes ids)).alike h.alike hs'
      refine ⟨t', ht', ha, ?_⟩
      cases hs'
      cases ht'
      simp only [removeNodes, h.edges]
  | _ =>
      obtain ⟨t', ht', ha⟩ := (blind_applyOp p generated _).alike h.alike hs'
      refine ⟨t', ht', ha, ?_⟩
      rw [edges_applyOp_other p generated _ rfl s s' hs hs', h.edges,
        edges_applyOp_other p generated _ rfl t t' ht ht']

/-- An edge whose layer is what its endpoints say. -/
def Edge.Settled (s : GraphState rt) (e : Edge) : Prop :=
  edgeLayer s e.source e.target e.layer = e.layer

theorem relayer_settled (ids : List String) (s : GraphState rt)
    (h : ∀ id ∈ ids, ∀ e, s.edges.get? id = some e → e.Settled s) : relayer ids s = s := by
  have aux : ∀ xs : List String, (∀ id ∈ xs, ∀ e, s.edges.get? id = some e → e.Settled s) →
      xs.foldl (fun s id => relayerEdge id s) s = s := by
    intro xs
    induction xs with
    | nil => exact fun _ => rfl
    | cons x xs ih =>
        intro hxs
        have hx : relayerEdge x s = s := by
          unfold relayerEdge
          split
          · rfl
          next e he => exact if_pos (hxs x List.mem_cons_self e he)
        rw [List.foldl_cons, hx]
        exact ih fun id hid => hxs id (List.mem_cons_of_mem x hid)
  exact aux _ fun id hid => h id ((Text.mem_stableUnion id ids).mp hid)

theorem settled_iff_rederive (s : GraphState rt) (e : Edge) :
    e.Settled s ↔ e.rederive s = e := by
  constructor
  · intro h
    rw [Edge.Settled] at h
    rw [Edge.rederive, h]
  · exact fun h => congrArg Edge.layer h

theorem settled_of_nodes (s t : GraphState rt) (h : s.nodes = t.nodes) (e : Edge)
    (he : e.Settled s) : e.Settled t := by
  rw [Edge.Settled, ← edgeLayer_of_nodes s t h]
  exact he

/-- Right after `create_edges` every edge it wrote is settled. -/
theorem settled_createEdges (revision : Nat) (edges : List NewEdge) (s t : GraphState rt)
    (h : Steps.run (createEdge revision) edges s = .ok t) (id : String)
    (hid : id ∈ edges.filterMap NewEdge.writtenId) (e : Edge) (he : t.edges.get? id = some e) :
    e.Settled t := by
  induction edges generalizing s with
  | nil => cases hid
  | cons raw edges ih =>
      obtain ⟨u, hu, hrest⟩ := (Steps.run_cons_ok _ raw edges s t).mp h
      by_cases hlater : id ∈ edges.filterMap NewEdge.writtenId
      · exact ih u hrest hlater
      · obtain ⟨id', declared, hid', -, rfl⟩ := createEdge_ok revision raw s u hu
        have hhead : id' = id := by
          rw [List.filterMap_cons_some hid'] at hid
          exact ((List.mem_cons.mp hid).resolve_right hlater).symm
        obtain ⟨hafter, -⟩ := edges_run (createEdge revision)
          (fun raw e => raw.writtenId = some e.id) edges
          (fun raw _ s t hraw => by
            obtain ⟨id, declared, hid, -, rfl⟩ := createEdge_ok revision raw s t hraw
            exact .inr ⟨_, hid, rfl⟩) _ t hrest
        have hnodes := nodes_createEdges revision edges _ t hrest
        rcases hafter id e he with he | ⟨rfl, raw', hraw', hw⟩
        · simp only [addEdge, NewEdge.edgeIn, hhead, Dict.get?_insert_self,
            Option.some.injEq] at he
          subst he
          refine settled_of_nodes s t hnodes.symm _ ?_
          exact typePairLayer_idem _ _ _
        · exact absurd (List.mem_filterMap.mpr ⟨raw', hraw', hw⟩) hlater

/-- Staging one operation derives no layer anew: it is applying the operation. -/
theorem relayer_applyOp (p : Patch rt) (generated : Bool) (op : GraphOperation rt)
    (s t : GraphState rt) (h : applyOp p generated op s = .ok t) :
    relayer (createdEdgeIds op) t = t := by
  refine relayer_settled _ t fun id hid e he => ?_
  cases op with
  | createEdges edges => exact settled_createEdges p.revision edges s t h id hid e he
  | _ => cases hid

/-- The watermark of a graph after a patch of this kind and time. -/
def Patch.watermark (p : Patch rt) (last : Option String) : Option String :=
  if p.kind = .seed ∨ p.kind = .refresh then some p.createdAt else last

theorem applyPatch_exactly (p : Patch rt) (generated : List Nat) (op : GraphOperation rt)
    (s t : GraphState rt) (h : applyPatch { p with ops := [op] } generated s = .ok t) :
    ∃ u, applyOp p (decide (0 ∈ generated)) op s = .ok u ∧
      Exactly { t with revision := s.revision } u ∧
      t.lastRefreshAt = p.watermark s.lastRefreshAt := by
  obtain ⟨u, hu, rfl⟩ := applyPatch_single p _ op s t h
  have hlast : u.lastRefreshAt = s.lastRefreshAt :=
    congrArg (·.2.2.2) (frame_applyOp p _ op s u hu)
  have hsettled := relayer_applyOp p _ op s u hu
  refine ⟨u, hu, ⟨staged_alike p _ s u (revision_applyOp p _ op s u hu), ?_⟩, ?_⟩
  · show (relayer (createdEdgeIds op) u).edges = u.edges
    rw [hsettled]
  · rw [hsettled, Patch.watermark, ← hlast]
    rfl

theorem applyValidOperation_exactly (s : GraphState rt) (p : Patch rt) (op : GraphOperation rt)
    (t : GraphState rt) (h : applyValidOperation s p op = .ok t) :
    ∃ u, applyOp p (decide (0 ∈ p.generatedIndexes)) op s = .ok u ∧ Exactly t u ∧
      t.lastRefreshAt = p.watermark s.lastRefreshAt := by
  simp only [applyValidOperation, bind, Except.bind, pure, Except.pure] at h
  cases ht : applyPatch { p with ops := [op] } p.generatedIndexes s with
  | error e => simp [ht] at h
  | ok t' =>
      simp only [ht, Except.ok.injEq] at h
      rw [← h]
      exact applyPatch_exactly p _ op s t' ht

theorem applyTransitionGeneratedOperation_exactly (s : GraphState rt) (p : Patch rt)
    (op : GraphOperation rt) (t : GraphState rt)
    (h : applyTransitionGeneratedOperation s p op = .ok t) :
    ∃ u, applyOp p true op s = .ok u ∧ Exactly t u ∧
      t.lastRefreshAt = p.watermark s.lastRefreshAt := by
  simp only [applyTransitionGeneratedOperation, bind, Except.bind, pure, Except.pure] at h
  cases ht : applyPatch { p with ops := [op] } (0 :: p.generatedIndexes) s with
  | error e => simp [ht] at h
  | ok t' =>
      simp only [ht, Except.ok.injEq] at h
      rw [← h]
      obtain ⟨u, hu, hrest⟩ := applyPatch_exactly p _ op s t' ht
      exact ⟨u, by simpa using hu, hrest⟩

end Exact

end RcpGraph
