import RcpGraph.Graph.Agreement
import RcpGraph.History.Trace

/-!
The layers of edges over whole runs. A layer is derived when an edge is written and
once more at the end of that patch, and never again. So it is the one of the
endpoints' types unless a later patch creates an endpoint that was missing, or a
relation is removed and declared anew as another kind of layer.
-/

namespace RcpGraph

variable {rt : Runtime}

/-- Every edge between two nodes has the layer of their types and of its relation. -/
def GraphState.Layered (s : GraphState rt) : Prop :=
  ∀ id e, s.edges.get? id = some e → ∀ a b d, s.nodeType? e.source = some a →
    s.nodeType? e.target = some b → declaredLayer s.ontology e.relation = some d →
    e.layer = typePairLayer (some a) (some b) d

instance (s : GraphState rt) : Decidable s.Layered :=
  decidable_of_iff (∀ e ∈ s.edges.values, ∀ a ∈ s.nodeType? e.source, ∀ b ∈ s.nodeType? e.target,
      ∀ d ∈ declaredLayer s.ontology e.relation, e.layer = typePairLayer (some a) (some b) d) (by
    simp only [Dict.mem_values]
    exact ⟨fun h id e he a b d ha hb hd => h e ⟨id, he⟩ a ha b hb d hd,
      fun h e ⟨id, he⟩ a ha b hb d hd => h id e he a b d ha hb hd⟩)

section Outline

/-- An edge that a patch writes, with the layer its relation declares then. -/
structure DraftEdge where
  source : String
  target : String
  relation : String
  declared : RelationLayer
  deriving DecidableEq

/-- What the operations of a patch say about edges, node types and the ontology. -/
structure Outline where
  types : Dict String NodeType
  ontology : OntologyState
  /-- Edges of the graph that no operation has removed or written again. -/
  kept : Dict String Edge
  /-- Edges that were written and not removed since. -/
  written : Dict String DraftEdge := .empty

def Outline.of (s : GraphState rt) : Outline where
  types := s.nodes.map fun _ n => n.type
  ontology := s.ontology
  kept := s.edges

def Outline.write (k : Outline) (id : String) (e : DraftEdge) : Outline :=
  { k with
    kept := k.kept.erase id
    written := k.written.insert id e }

def Outline.draw (k : Outline) (raw : NewEdge) : Outline :=
  match raw.writtenId, declaredLayer k.ontology raw.relation with
  | some id, some declared => k.write id ⟨raw.source, raw.target, raw.relation, declared⟩
  | _, _ => k

/-- Edges that an operation generates beside what it does to nodes. -/
def Outline.generate (relation : String) (k : Outline) (e : String × String × String) : Outline :=
  k.write e.1 ⟨e.2.1, e.2.2, relation, .metaLayer⟩

def Outline.after (k : Outline) : GraphOperation rt → Outline
  | .createNodes nodes =>
      { k with types := nodes.foldl (fun types raw => types.insert raw.id raw.type) k.types }
  | .createEdges edges => edges.foldl Outline.draw k
  | .removeEdges ids =>
      { k with
        kept := ids.foldl Dict.erase k.kept
        written := ids.foldl Dict.erase k.written }
  | .removeNodes ids =>
      { k with
        types := k.types.filter fun id _ => id ∉ ids
        kept := k.kept.filter fun _ e => e.source ∉ ids && e.target ∉ ids
        written := k.written.filter fun _ e => e.source ∉ ids && e.target ∉ ids }
  | .supersedeNodes items =>
      (GraphOperation.supersedeNodes items : GraphOperation rt).edgesWritten.foldl
        (Outline.generate "supersedes") k
  | .mergeNodes merges =>
      (GraphOperation.mergeNodes merges : GraphOperation rt).edgesWritten.foldl
        (Outline.generate "duplicate_of") k
  | .setOntology ontology => { k with ontology := ontology }
  | _ => k

/-- The patch gives the edge an endpoint that was missing, or declares its relation anew. -/
def Outline.Reaches (k : Outline) (s : GraphState rt) (e : Edge) : Prop :=
  e.source ∉ s.nodes ∨ e.target ∉ s.nodes ∨
    declaredLayer k.ontology e.relation ≠ declaredLayer s.ontology e.relation

/-- An edge the patch keeps already has the layer that what reaches it calls for. -/
def Outline.KeepsRight (k : Outline) (s : GraphState rt) : Prop :=
  ∀ e ∈ k.kept.values, k.Reaches s e → ∀ a ∈ k.types.get? e.source,
    ∀ b ∈ k.types.get? e.target, ∀ d ∈ declaredLayer k.ontology e.relation,
      e.layer = typePairLayer (some a) (some b) d

/-- The relation of a written edge is not declared meta, or not meta, only later on. -/
def Outline.WritesRight (k : Outline) : Prop :=
  ∀ e ∈ k.written.values, e.source ∈ k.types → e.target ∈ k.types →
    ∀ d ∈ declaredLayer k.ontology e.relation, e.declared = .metaLayer ↔ d = .metaLayer

/-- A patch whose missing endpoints and relations fit the layers that edges already have. -/
def KeepsLayers (s : GraphState rt) (p : Patch rt) : Prop :=
  (p.ops.foldl Outline.after (.of s)).KeepsRight s ∧
    (p.ops.foldl Outline.after (.of s)).WritesRight

instance (k : Outline) (s : GraphState rt) (e : Edge) : Decidable (k.Reaches s e) :=
  inferInstanceAs (Decidable (_ ∨ _ ∨ _))

instance (k : Outline) (s : GraphState rt) : Decidable (k.KeepsRight s) :=
  inferInstanceAs (Decidable (∀ e ∈ k.kept.values, _))

instance (k : Outline) : Decidable k.WritesRight :=
  inferInstanceAs (Decidable (∀ e ∈ k.written.values, _))

instance (s : GraphState rt) (p : Patch rt) : Decidable (KeepsLayers s p) :=
  inferInstanceAs (Decidable (_ ∧ _))

end Outline

section Outlined

theorem mem_of_nodeType? {s u : GraphState rt} {x : String} (h : u.nodeType? x = s.nodeType? x)
    (hx : x ∈ s.nodes) : x ∈ u.nodes := by
  rw [Dict.mem_iff_isSome] at hx ⊢
  have hsome := congrArg Option.isSome h
  simp only [GraphState.nodeType?, Option.isSome_map] at hsome
  rw [hsome]
  exact hx

/-- The outline of some operations against the graph they lead to; `created` are the ids
that `create_edges` wrote, whose layers are derived again at the end. -/
structure Outlined (s : GraphState rt) (k : Outline) (created : List String) (u : GraphState rt) :
    Prop where
  types : ∀ x, u.nodeType? x = k.types.get? x
  ontology : u.ontology = k.ontology
  kept : ∀ id e, k.kept.get? id = some e →
    u.edges.get? id = some e ∧ s.edges.get? id = some e ∧ id ∉ created ∧
      ∀ x, x = e.source ∨ x = e.target → x ∈ s.nodes → u.nodeType? x = s.nodeType? x
  written : ∀ id w, k.written.get? id = some w → ∃ e, u.edges.get? id = some e ∧
    e.source = w.source ∧ e.target = w.target ∧ e.relation = w.relation ∧
      (e.layer = .metaLayer ↔ w.declared = .metaLayer) ∧ (id ∈ created ∨ e.layer = .metaLayer)
  cover : ∀ id ∈ u.edges, id ∈ k.kept ∨ id ∈ k.written

variable {s u v : GraphState rt} {k : Outline} {created : List String}

theorem outlined_of (s : GraphState rt) : Outlined s (.of s) [] s where
  types x := by simp [Outline.of, GraphState.nodeType?]
  ontology := rfl
  kept id e h := ⟨h, h, List.not_mem_nil, fun _ _ _ => rfl⟩
  written id w h := by cases h
  cover id h := .inl h

/-- A step that leaves edges, types and ontology alone. -/
theorem Outlined.frame (h : Outlined s k created u) (hedges : v.edges = u.edges)
    (htypes : ∀ x, v.nodeType? x = u.nodeType? x) (hontology : v.ontology = u.ontology) :
    Outlined s k created v := by
  refine ⟨fun x => (htypes x).trans (h.types x), hontology.trans h.ontology, ?_, ?_, ?_⟩
  · intro id e he
    obtain ⟨hu, hs, hnot, hsame⟩ := h.kept id e he
    rw [hedges]
    exact ⟨hu, hs, hnot, fun x hx hmem => (htypes x).trans (hsame x hx hmem)⟩
  · rw [hedges]
    exact h.written
  · rw [hedges]
    exact h.cover

/-- Writing one edge. -/
theorem Outlined.write (h : Outlined s k created u) (e : Edge) (w : DraftEdge)
    (created' : List String) (hsource : e.source = w.source) (htarget : e.target = w.target)
    (hrelation : e.relation = w.relation)
    (hlayer : e.layer = .metaLayer ↔ w.declared = .metaLayer)
    (hcreated : ∀ id ∈ created', id ∈ created ∨ id = e.id) (hmono : ∀ id ∈ created, id ∈ created')
    (hderived : e.id ∈ created' ∨ e.layer = .metaLayer) :
    Outlined s (k.write e.id w) created' (addEdge e u) := by
  refine ⟨h.types, h.ontology, fun id f hf => ?_, fun id w' hw' => ?_, fun id hid => ?_⟩
  · simp only [Outline.write, Dict.get?_erase] at hf
    split at hf
    next => cases hf
    next hne =>
      obtain ⟨hu, hs, hnot, hsame⟩ := h.kept id f hf
      refine ⟨by simp [addEdge, hne, hu], hs, fun hmem => ?_, hsame⟩
      rcases hcreated id hmem with hmem | heq
      · exact hnot hmem
      · exact hne heq
  · simp only [Outline.write, Dict.get?_insert] at hw'
    split at hw'
    next heq =>
      cases hw'
      subst heq
      exact ⟨e, by simp [addEdge], hsource, htarget, hrelation, hlayer, hderived⟩
    next hne =>
      obtain ⟨f, hf, hs, ht, hr, hl, hd⟩ := h.written id w' hw'
      refine ⟨f, by simp [addEdge, hne, hf], hs, ht, hr, hl, ?_⟩
      exact hd.imp_left (hmono id)
  · simp only [addEdge, Dict.mem_insert] at hid
    by_cases heq : id = e.id
    · exact .inr (by simp [Outline.write, heq])
    · rcases h.cover id (hid.resolve_left heq) with hkept | hwritten
      · left
        rw [Dict.mem_iff_isSome] at hkept ⊢
        simpa [Outline.write, Dict.get?_erase, heq] using hkept
      · exact .inr (by simp [Outline.write, hwritten])

theorem Outlined.createEdge (h : Outlined s k created u) (revision : Nat) (raw : NewEdge)
    (happ : createEdge revision raw u = .ok v) :
    Outlined s (k.draw raw) (created ++ raw.writtenId.toList) v := by
  obtain ⟨id, declared, hid, hd, rfl⟩ := createEdge_ok revision raw u v happ
  rw [h.ontology] at hd
  rw [Outline.draw, hid, hd]
  simp only [Option.toList_some]
  refine h.write (raw.edgeIn u id declared revision) ⟨raw.source, raw.target, raw.relation, declared⟩
    _ rfl rfl rfl (typePairLayer_meta_iff _ _ _) (fun x hx => ?_)
    (fun x hx => List.mem_append_left _ hx) (.inl (by simp [NewEdge.edgeIn]))
  rcases List.mem_append.mp hx with hx | hx
  · exact .inl hx
  · exact .inr (List.mem_singleton.mp hx)

theorem Outlined.createEdges (revision : Nat) (edges : List NewEdge) (h : Outlined s k created u)
    (hrun : Steps.run (RcpGraph.createEdge revision) edges u = .ok v) :
    Outlined s (edges.foldl Outline.draw k) (created ++ edges.filterMap NewEdge.writtenId) v := by
  induction edges generalizing k created u with
  | nil =>
      cases hrun
      simpa using h
  | cons raw edges ih =>
      obtain ⟨w, hw, hrest⟩ := (Steps.run_cons_ok _ raw edges u v).mp hrun
      have hstep := ih (h.createEdge revision raw hw) hrest
      obtain ⟨id, declared, hid, -, -⟩ := createEdge_ok revision raw u w hw
      rw [List.filterMap_cons_some hid, List.append_cons]
      simpa [hid] using hstep

/-- Items that each write at most one edge of the meta layer. -/
theorem Outlined.generate {α : Type} (f : α → GraphState rt → Except String (GraphState rt))
    (edge : α → Option (String × String × String)) (relation : String) (as : List α)
    (step : ∀ a ∈ as, ∀ u v, f a u = .ok v → ∃ w, w.edges = u.edges ∧
      (∀ x, w.nodeType? x = u.nodeType? x) ∧ w.ontology = u.ontology ∧
      ((edge a = none ∧ v = w) ∨ ∃ e, edge a = some (e.id, e.source, e.target) ∧
        e.relation = relation ∧ e.layer = .metaLayer ∧ v = addEdge e w))
    (h : Outlined s k created u) (hrun : Steps.run f as u = .ok v) :
    Outlined s ((as.filterMap edge).foldl (Outline.generate relation) k) created v := by
  induction as generalizing k u with
  | nil =>
      cases hrun
      exact h
  | cons a as ih =>
      obtain ⟨u', hu', hrest⟩ := (Steps.run_cons_ok f a as u v).mp hrun
      have htail := fun b hb => step b (List.mem_cons_of_mem a hb)
      obtain ⟨w, hedges, htypes, hontology, hcase⟩ := step a List.mem_cons_self u u' hu'
      have hw := h.frame hedges htypes hontology
      rcases hcase with ⟨hnone, rfl⟩ | ⟨e, hsome, hrelation, hlayer, rfl⟩
      · rw [List.filterMap_cons_none hnone]
        exact ih htail hw hrest
      · rw [List.filterMap_cons_some hsome, List.foldl_cons]
        refine ih htail (hw.write e ⟨e.source, e.target, relation, .metaLayer⟩ created rfl rfl hrelation
          (by simp [hlayer]) (fun x hx => .inl hx) (fun x hx => hx) (.inr hlayer)) hrest

theorem Outlined.supersedeNodes (p : Patch rt) (items : List SupersedeNode)
    (h : Outlined s k created u) (hrun : Steps.run (supersedeNode p) items u = .ok v) :
    Outlined s (k.after (.supersedeNodes items : GraphOperation rt)) created v := by
  refine h.generate (supersedeNode p) _ "supersedes" items (fun i _ u v hi => ?_) hrun
  obtain ⟨w, hw, hv⟩ := supersedeNode_ok p i u v hi
  obtain ⟨hrewrites, hedges⟩ := retireNode_rewrites p i.id i.cause u w hw
  refine ⟨w, hedges, hrewrites.nodeType?, ?_, ?_⟩
  · obtain ⟨n, m, -, -, rfl⟩ := retireNode_ok p i.id i.cause u w hw
    simp
  · cases hfilter : i.supersededBy.filter (· ≠ "") with
    | none =>
        simp only [SupersedeNode.edge?, hfilter, Option.map_none] at hv ⊢
        exact .inl ⟨trivial, hv⟩
    | some target =>
        simp only [SupersedeNode.edge?, hfilter, Option.map_some] at hv ⊢
        exact .inr ⟨generatedEdge i.id "supersedes" target i.explanation p.revision, rfl, rfl, rfl, hv⟩

theorem Outlined.mergeNodes (p : Patch rt) (merges : List NodeMerge)
    (h : Outlined s k created u) (hrun : Steps.run (mergeNode p) merges u = .ok v) :
    Outlined s (k.after (.mergeNodes merges : GraphOperation rt)) created v := by
  have hwritten : (GraphOperation.mergeNodes merges : GraphOperation rt).edgesWritten =
      merges.filterMap fun m =>
        some (derivedEdgeId m.duplicate "duplicate_of" m.canonical, m.duplicate, m.canonical) := by
    rw [List.filterMap_eq_map']
    rfl
  rw [Outline.after, hwritten]
  refine h.generate (mergeNode p) _ "duplicate_of" merges (fun m _ u v hm => ?_) hrun
  obtain ⟨w, hw, rfl⟩ := mergeNode_ok p m u v hm
  obtain ⟨hrewrites, hedges⟩ := retireNode_rewrites p m.duplicate m.cause u w hw
  refine ⟨w, hedges, hrewrites.nodeType?, ?_, .inr ⟨_, rfl, rfl, rfl, rfl⟩⟩
  obtain ⟨n, m, -, -, rfl⟩ := retireNode_ok p m.duplicate m.cause u w hw
  simp

theorem Outlined.createNodes (p : Patch rt) (generated : Bool) (nodes : List (RawNode rt))
    (hnew : ∀ raw ∈ nodes, raw.id ∉ u.nodes) (hu : u.Keyed) (h : Outlined s k created u)
    (happ : applyOp p generated (.createNodes nodes) u = .ok v) :
    Outlined s (k.after (.createNodes nodes : GraphOperation rt)) created v := by
  have hedges := edges_applyOp_other p generated _ rfl u v hu happ
  have hsame : ∀ x ∈ u.nodes, v.nodeType? x = u.nodeType? x := by
    intro x hx
    refine nodeType?_applyOp p generated _ u v hu happ x (fun hc => ?_) (fun ids hids => by cases hids)
    obtain ⟨raw, hraw, rfl⟩ := List.mem_map.mp hc
    exact hnew raw hraw hx
  refine ⟨fun x => ?_, ?_, fun id e he => ?_, ?_, ?_⟩
  · cases happ
    exact nodeType?_createNodes p.revision nodes u k.types h.types x
  · rw [ontology_applyOp p generated _ (fun _ h => by cases h) u v happ]
    exact h.ontology
  · obtain ⟨hget, hs, hnot, htypes⟩ := h.kept id e he
    rw [hedges]
    refine ⟨hget, hs, hnot, fun x hx hmem => ?_⟩
    rw [hsame x (mem_of_nodeType? (htypes x hx hmem) hmem), htypes x hx hmem]
  · rw [hedges]
    exact h.written
  · rw [hedges]
    exact h.cover

theorem Outlined.removeNodes (ids : List String) (h : Outlined s k created u) :
    Outlined s (k.after (.removeNodes ids : GraphOperation rt)) created (removeNodes ids u) := by
  have htypes : ∀ x, x ∉ ids → (RcpGraph.removeNodes ids u).nodeType? x = u.nodeType? x := by
    intro x hx
    simp only [GraphState.nodeType?, RcpGraph.removeNodes, Dict.get?_filter]
    cases u.nodes.get? x <;> simp [Option.filter, hx]
  refine ⟨fun x => ?_, h.ontology, fun id e he => ?_, fun id w hw => ?_, fun id hid => ?_⟩
  · simp only [Outline.after, Dict.get?_filter]
    by_cases hx : x ∈ ids
    · simp only [GraphState.nodeType?, RcpGraph.removeNodes, Dict.get?_filter]
      cases u.nodes.get? x <;> cases k.types.get? x <;> simp [Option.filter, hx]
    · rw [htypes x hx, h.types x]
      cases k.types.get? x <;> simp [Option.filter, hx]
  · simp only [Outline.after, Dict.get?_filter, Option.filter_eq_some_iff, Bool.and_eq_true,
      decide_eq_true_eq] at he
    obtain ⟨he, hsource, htarget⟩ := he
    obtain ⟨hget, hs, hnot, hsame⟩ := h.kept id e he
    refine ⟨by simp [RcpGraph.removeNodes, hget, Option.filter, hsource, htarget], hs, hnot, ?_⟩
    intro x hx hmem
    rw [htypes x (by rcases hx with rfl | rfl <;> assumption)]
    exact hsame x hx hmem
  · simp only [Outline.after, Dict.get?_filter, Option.filter_eq_some_iff, Bool.and_eq_true,
      decide_eq_true_eq] at hw
    obtain ⟨hw, hsource, htarget⟩ := hw
    obtain ⟨e, hget, hs, ht, hrest⟩ := h.written id w hw
    refine ⟨e, ?_, hs, ht, hrest⟩
    simp [RcpGraph.removeNodes, hget, Option.filter, hs, ht, hsource, htarget]
  · obtain ⟨e, he⟩ := (Dict.mem_iff_exists _ _).mp hid
    simp only [RcpGraph.removeNodes, Dict.get?_filter, Option.filter_eq_some_iff, Bool.and_eq_true,
      decide_eq_true_eq] at he
    obtain ⟨he, hsource, htarget⟩ := he
    rcases h.cover id (Dict.mem_of_get? he) with hkept | hwritten
    · left
      obtain ⟨f, hf⟩ := (Dict.mem_iff_exists _ _).mp hkept
      have hfe := (h.kept id f hf).1
      rw [he] at hfe
      cases hfe
      rw [Dict.mem_iff_isSome]
      simp [Outline.after, hf, Option.filter, hsource, htarget]
    · right
      obtain ⟨w, hw⟩ := (Dict.mem_iff_exists _ _).mp hwritten
      obtain ⟨f, hf, hs, ht, -⟩ := h.written id w hw
      rw [he] at hf
      cases hf
      rw [Dict.mem_iff_isSome]
      simp [Outline.after, hw, Option.filter, ← hs, ← ht, hsource, htarget]

theorem Outlined.removeEdges (ids : List String) (h : Outlined s k created u) :
    Outlined s (k.after (.removeEdges ids : GraphOperation rt)) created (removeEdges ids u) := by
  refine ⟨h.types, h.ontology, fun id e he => ?_, fun id w hw => ?_, fun id hid => ?_⟩
  · simp only [Outline.after, Dict.get?_foldl_erase] at he
    split at he
    next => cases he
    next hmem =>
      obtain ⟨hget, hs, hnot, hsame⟩ := h.kept id e he
      exact ⟨by simp [RcpGraph.removeEdges, Dict.get?_foldl_erase, hmem, hget], hs, hnot, hsame⟩
  · simp only [Outline.after, Dict.get?_foldl_erase] at hw
    split at hw
    next => cases hw
    next hmem =>
      obtain ⟨e, hget, hrest⟩ := h.written id w hw
      exact ⟨e, by simp [RcpGraph.removeEdges, Dict.get?_foldl_erase, hmem, hget], hrest⟩
  · rw [Dict.mem_iff_isSome] at hid
    simp only [RcpGraph.removeEdges, Dict.get?_foldl_erase] at hid
    split at hid
    next => cases hid
    next hmem =>
      rw [← Dict.mem_iff_isSome] at hid
      refine (h.cover id hid).imp (fun hk => ?_) (fun hw => ?_)
      · rw [Dict.mem_iff_isSome] at hk ⊢
        simpa [Outline.after, Dict.get?_foldl_erase, hmem] using hk
      · rw [Dict.mem_iff_isSome] at hw ⊢
        simpa [Outline.after, Dict.get?_foldl_erase, hmem] using hw

/-- The outline follows one operation that creates no node anew. -/
theorem Outlined.step (p : Patch rt) (generated : Bool) (op : GraphOperation rt) (hu : u.Keyed)
    (hnew : ∀ nodes, op = .createNodes nodes → ∀ raw ∈ nodes, raw.id ∉ u.nodes)
    (h : Outlined s k created u) (happ : applyOp p generated op u = .ok v) :
    Outlined s (k.after op) (created ++ createdEdgeIds op) v := by
  cases op with
  | createNodes nodes =>
      simp only [createdEdgeIds, List.append_nil]
      exact h.createNodes p generated nodes (hnew nodes rfl) hu happ
  | createEdges edges => exact h.createEdges p.revision edges happ
  | removeNodes ids =>
      simp only [createdEdgeIds, List.append_nil]
      cases happ
      exact h.removeNodes ids
  | removeEdges ids =>
      simp only [createdEdgeIds, List.append_nil]
      cases happ
      exact h.removeEdges ids
  | supersedeNodes items =>
      simp only [createdEdgeIds, List.append_nil]
      exact h.supersedeNodes p items happ
  | mergeNodes merges =>
      simp only [createdEdgeIds, List.append_nil]
      exact h.mergeNodes p merges happ
  | setOntology ontology =>
      simp only [createdEdgeIds, List.append_nil]
      cases happ
      exact ⟨h.types, rfl, h.kept, h.written, h.cover⟩
  | _ =>
      simp only [createdEdgeIds, List.append_nil]
      refine h.frame (edges_applyOp_other p generated _ rfl _ _ hu happ) (fun x => ?_)
        (ontology_applyOp p generated _ (fun _ h => by cases h) _ _ happ)
      exact nodeType?_applyOp p generated _ _ _ hu happ x List.not_mem_nil
        (fun ids hids => by cases hids)

/-- The outline follows the steps of a patch. -/
theorem Outlined.run (p : Patch rt) (generated : List Nat) (ops : List (GraphOperation rt × Nat))
    (hsound : ∀ st ∈ opSteps p generated ops u, st.Sound) (h : Outlined s k created u)
    (hrun : Steps.run (fun (op, i) => applyOp p (decide (i ∈ generated)) op) ops u = .ok v) :
    Outlined s ((ops.map Prod.fst).foldl Outline.after k)
      (created ++ (ops.map Prod.fst).flatMap createdEdgeIds) v := by
  induction ops generalizing k created u with
  | nil =>
      cases hrun
      simpa using h
  | cons x ops ih =>
      obtain ⟨w, hw, hrest⟩ := (Steps.run_cons_ok _ _ _ _ _).mp hrun
      simp only at hw
      rw [opSteps, hw] at hsound
      have hhead := hsound _ List.mem_cons_self
      have hstep := h.step p _ x.1 hhead.keyed hhead.fresh hw
      have hnext := ih (fun st hst => hsound st (List.mem_cons_of_mem _ hst)) hstep hrest
      rw [List.map_cons, List.foldl_cons, List.flatMap_cons, ← List.append_assoc]
      exact hnext

end Outlined

section Derived

variable {s u : GraphState rt} {k : Outline} {created : List String}

theorem nodeType?_relayer (ids : List String) (u : GraphState rt) (x : String) :
    (relayer ids u).nodeType? x = u.nodeType? x := by
  rw [GraphState.nodeType?, GraphState.nodeType?, (relayer_alike ids u).nodes]

theorem meta_rederive (u : GraphState rt) (e : Edge) :
    (e.rederive u).layer = .metaLayer ↔ e.layer = .metaLayer := typePairLayer_meta_iff _ _ _

theorem Outlined.keepsRight (h : Outlined s k created u) (hu : (relayer created u).Layered) :
    k.KeepsRight s := by
  intro e he _ a ha b hb d hd
  obtain ⟨id, hid⟩ := (Dict.mem_values _ _).mp he
  obtain ⟨hget, -, hnot, -⟩ := h.kept id e hid
  refine hu id e ?_ a b d ?_ ?_ ?_
  · rw [get?_relayer, if_neg hnot]
    exact hget
  · rw [nodeType?_relayer, h.types]
    exact ha
  · rw [nodeType?_relayer, h.types]
    exact hb
  · rw [relayer_eq]
    exact h.ontology ▸ hd

theorem Outlined.writesRight (h : Outlined s k created u) (hu : (relayer created u).Layered) :
    k.WritesRight := by
  intro w hw hsource htarget d hd
  obtain ⟨id, hid⟩ := (Dict.mem_values _ _).mp hw
  obtain ⟨e, hget, hs, ht, hr, hmeta, -⟩ := h.written id w hid
  obtain ⟨a, ha⟩ := (Dict.mem_iff_exists _ _).mp hsource
  obtain ⟨b, hb⟩ := (Dict.mem_iff_exists _ _).mp htarget
  -- The edge as it is at the end, derived again or not.
  have hfinal : ∃ f, (relayer created u).edges.get? id = some f ∧ f.source = e.source ∧
      f.target = e.target ∧ f.relation = e.relation ∧
        (f.layer = .metaLayer ↔ e.layer = .metaLayer) := by
    rw [get?_relayer, hget]
    by_cases hmem : id ∈ created
    · rw [if_pos hmem]
      exact ⟨e.rederive u, rfl, rfl, rfl, rfl, meta_rederive u e⟩
    · rw [if_neg hmem]
      exact ⟨e, rfl, rfl, rfl, rfl, Iff.rfl⟩
  obtain ⟨f, hf, hfs, hft, hfr, hfmeta⟩ := hfinal
  have hlayer := hu id f hf a b d (by rw [nodeType?_relayer, h.types, hfs, hs, ha])
    (by rw [nodeType?_relayer, h.types, hft, ht, hb])
    (by rw [relayer_eq, hfr, hr]; exact h.ontology ▸ hd)
  rw [← hmeta, ← hfmeta, hlayer]
  exact typePairLayer_meta_iff _ _ _

theorem Outlined.layered (h : Outlined s k created u) (hs : s.Layered) (hkeeps : k.KeepsRight s)
    (hwrites : k.WritesRight) : (relayer created u).Layered := by
  intro id f hf a b d ha hb hd
  rw [nodeType?_relayer] at ha hb
  have hd' : declaredLayer k.ontology f.relation = some d := by
    rw [relayer_eq] at hd
    rw [← h.ontology]
    exact hd
  obtain ⟨e, he, hsource, htarget, hrelation, hcase⟩ : ∃ e, u.edges.get? id = some e ∧
      f.source = e.source ∧ f.target = e.target ∧ f.relation = e.relation ∧
        (id ∈ created ∧ f = e.rederive u ∨ id ∉ created ∧ f = e) := by
    rw [get?_relayer] at hf
    by_cases hmem : id ∈ created
    · rw [if_pos hmem] at hf
      obtain ⟨e, he, rfl⟩ := Option.map_eq_some_iff.mp hf
      exact ⟨e, he, rfl, rfl, rfl, .inl ⟨hmem, rfl⟩⟩
    · rw [if_neg hmem] at hf
      exact ⟨f, hf, rfl, rfl, rfl, .inr ⟨hmem, rfl⟩⟩
  rw [hsource] at ha
  rw [htarget] at hb
  rw [hrelation] at hd'
  rcases h.cover id (Dict.mem_of_get? he) with hmem | hmem
  · -- A kept edge has the layer it had.
    obtain ⟨e', he'⟩ := (Dict.mem_iff_exists _ _).mp hmem
    obtain ⟨hget, hold, hnot, hsame⟩ := h.kept id e' he'
    rw [he] at hget
    cases hget
    have hfe : f = e := (hcase.resolve_left fun hc => hnot hc.1).2
    rw [hfe]
    by_cases hreach : k.Reaches s e
    · exact hkeeps e ((Dict.mem_values _ _).mpr ⟨id, he'⟩) hreach a (h.types _ ▸ ha) b
        (h.types _ ▸ hb) d hd'
    · simp only [Outline.Reaches, not_or, not_not] at hreach
      obtain ⟨hsrc, htgt, honto⟩ := hreach
      apply hs id e hold a b d
      · rw [← hsame _ (.inl rfl) hsrc]
        exact ha
      · rw [← hsame _ (.inr rfl) htgt]
        exact hb
      · rw [← honto]
        exact hd'
  · -- The layer of a written edge is derived at the end, unless it is meta.
    obtain ⟨w, hw⟩ := (Dict.mem_iff_exists _ _).mp hmem
    obtain ⟨e', hget, hws, hwt, hwr, hmeta, hderived⟩ := h.written id w hw
    rw [he] at hget
    cases hget
    have hdeclared : w.declared = .metaLayer ↔ d = .metaLayer := by
      refine hwrites w ((Dict.mem_values _ _).mpr ⟨id, hw⟩) ?_ ?_ d (hwr ▸ hd')
      · rw [Dict.mem_iff_isSome, ← h.types, ← hws, ha]
        rfl
      · rw [Dict.mem_iff_isSome, ← h.types, ← hwt, hb]
        rfl
    by_cases hd : d = .metaLayer
    · have hlayer := hmeta.mpr (hdeclared.mpr hd)
      rw [hd, typePairLayer_meta]
      rcases hcase with ⟨-, rfl⟩ | ⟨-, rfl⟩
      · exact (meta_rederive u e).mpr hlayer
      · exact hlayer
    · have hlayer : e.layer ≠ .metaLayer := fun hl => hd (hdeclared.mp (hmeta.mp hl))
      have hmem : id ∈ created := hderived.resolve_right hlayer
      have hfe : f = e.rederive u := (hcase.resolve_right fun hc => hc.1 hmem).2
      rw [hfe, Edge.rederive, edgeLayer, ha, hb]
      exact typePairLayer_ordinary a b hlayer hd

end Derived

section Runs

/-- An accepted patch leaves the edges layered just when it keeps the layers. -/
theorem layered_step (s : GraphState rt) (p : Patch rt) (vc : ValidationContext rt)
    (request : PatchRequest) (t : GraphState rt)
    (hv : rejected (validatePatch s p vc request) = false) (ht : applyValidPatch s p = .ok t)
    (hs : s.Keyed) (hlayered : s.Layered) : t.Layered ↔ KeepsLayers s p := by
  obtain ⟨hsound, -⟩ := steps_sound s t p vc request hs hv ht
  obtain ⟨u, hrun, rfl⟩ := applyPatch_ok p _ s t ht
  have houtlined := (outlined_of s).run p _ _ (fun st hst => (hsound st hst).1) hrun
  rw [List.zipIdx_map_fst, List.nil_append] at houtlined
  change (relayer (p.ops.flatMap createdEdgeIds) u).Layered ↔ _
  constructor
  · exact fun h => ⟨houtlined.keepsRight h, houtlined.writesRight h⟩
  · exact fun h => houtlined.layered hlayered h.1 h.2

theorem layered_of_kept (s : GraphState rt) (h : Reachable KeepsLayers s) : s.Layered := by
  refine (Reachable.invariant (fun s => s.Keyed ∧ s.Layered) ?_ ?_ ?_ ?_ s h).2
  · intro scope
    constructor <;> intro id x hx <;> cases hx
  · intro s p vc request t hkeeps hv ht hs
    refine ⟨?_, (layered_step s p vc request t hv ht hs.1 hs.2).mpr hkeeps⟩
    obtain ⟨u, hrun, rfl⟩ := applyPatch_ok p _ s t ht
    have hu := Steps.run_invariant _ GraphState.Keyed p.ops.zipIdx
      (fun x _ s t hs happly => keyed_applyOp p _ x.1 s t hs happly) s u hs.1 hrun
    exact keyed_of_nodes _ u (relayer_alike _ u).nodes hu
  · exact fun s messages hs => hs
  · exact fun s p hs => hs

/-- The layers of all edges are right in every run of patches that keep them, and such a
run goes wrong with the first patch that does not. -/
theorem layered_iff_kept (s : GraphState rt) (h : Reachable KeepsLayers s) :
    s.Layered ∧ ∀ (p : Patch rt) (vc : ValidationContext rt) (request : PatchRequest)
      (t : GraphState rt), rejected (validatePatch s p vc request) = false →
      applyValidPatch s p = .ok t → (t.Layered ↔ KeepsLayers s p) := by
  have hlayered := layered_of_kept s h
  exact ⟨hlayered, fun p vc request t hv ht =>
    layered_step s p vc request t hv ht (keyed_of_reachable s h) hlayered⟩

/-- The edge names a Decision that the patch created and has removed again. -/
def linkedToRemoved : Patch .plain :=
  firstPatch
    [ .createNodes [hypothesisDraft "hyp/a", decisionDraft "dec/a"], .removeNodes ["dec/a"],
      .createEdges [hasDecisionDraft "hyp/a" "dec/a"] ]

/-- The Decision comes back. -/
def decisionAgain : Patch .plain :=
  { firstPatch [.createNodes [decisionDraft "dec/a"]] with revision := 2 }

theorem layered_settledEdges :
    ∃ s : GraphState .plain, Reachable KeepsLayers s ∧
      s.edges.keys = ["rq/a::has_subquestion::rq/b", "hyp/a::has_decision::dec/a"] ∧ s.Layered := by
  have hreached : ∃ t, applyValidPatch (.initial .plain ["repo"]) settledEdges = .ok t ∧
      (t.record []).edges.keys = ["rq/a::has_subquestion::rq/b", "hyp/a::has_decision::dec/a"] :=
    ⟨_, rfl, rfl⟩
  obtain ⟨t, ht, hkeys⟩ := hreached
  have h : Reachable KeepsLayers (t.record []) :=
    .accept _ t settledEdges { projectTruthScope := ["repo"] } {} [] (.initial ["repo"]) (by decide)
      (by decide) ht
  exact ⟨t.record [], h, hkeys, (layered_iff_kept _ h).1⟩

theorem unlayered_decisionAgain :
    ¬∀ s : GraphState .plain, Reachable (fun _ _ => True) s → s.Layered := by
  intro h
  have hreached : ∃ t u, applyValidPatch (.initial .plain ["repo"]) linkedToRemoved = .ok t ∧
      rejected (validatePatch (t.record []) decisionAgain { projectTruthScope := ["repo"] }) =
        false ∧
      applyValidPatch (t.record []) decisionAgain = .ok u ∧ ¬(u.record []).Layered :=
    ⟨_, _, rfl, by decide, rfl, by decide⟩
  obtain ⟨t, u, ht, hv, hu, hnot⟩ := hreached
  refine hnot (h _ (.accept _ u decisionAgain { projectTruthScope := ["repo"] } {} [] ?_ trivial
    hv hu))
  exact .accept _ t linkedToRemoved { projectTruthScope := ["repo"] } {} [] (.initial ["repo"])
    trivial (by decide) ht

end Runs

end RcpGraph
