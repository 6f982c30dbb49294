import RcpGraph.Merge.Contract
import RcpGraph.Graph.GuidanceClosure

/-!
`compare_graphs`: the changes a branch brings and the conflicts they meet. Conflicts are found
entity by entity; at the end, edge conflicts that belong to a removed node are dropped.
-/

namespace RcpGraph

variable {rt : Runtime}

section Definitions

/-- The collections compared entity by entity. -/
def entityCollections : List Collection :=
  [.nodes, .edges, .proposals, .ambiguities, .glossary]

def globalCollections : List Collection := [.projectTruthScope, .ontology]

/-- The entities of a collection of the graph; the global collections hold none. -/
def GraphState.entities (s : GraphState rt) : Collection → Dict String Entity
  | .nodes => s.nodes.map fun _ n => .ofNode n
  | .edges => s.edges.map fun _ e => .ofEdge e
  | .proposals => s.proposals.map fun _ p => .ofProposal p
  | .ambiguities => s.ambiguities.map fun _ a => .ofAmbiguity a
  | .glossary => s.glossary.map fun _ t => .ofGlossaryTerm t
  | .projectTruthScope | .ontology => .empty

/-- The value of a global collection. -/
def GraphState.globalValue (s : GraphState rt) : Collection → Json
  | .projectTruthScope => Encode.texts s.projectTruthScope
  | .ontology => Semantic.ontology s.ontology
  | _ => .null

/-- `_key`. -/
def coordinateKey (rt : Runtime) (collection : Collection) (entityId field : Option String) :
    String :=
  rt.digest (.arr [.str collection.name, Json.ofOption entityId, Json.ofOption field])

/-- `_value`. -/
def valueOf : Option Entity → MergeValue
  | none => .missing
  | some e => .present (.obj e.document)

/-- `_field`. -/
def fieldOf (e : Option Entity) (name : String) : MergeValue :=
  match e with
  | none => .missing
  | some e =>
      if name ∈ e.content then .present ((Assoc.find name e.document).getD .null) else .missing

/-- `_fields`. -/
def fieldNames (entities : List (Option Entity)) : List String :=
  Text.sortedSet (entities.flatMap fun e => (e.map (·.content)).getD [])

/-- `_change`. -/
def changeAt (rt : Runtime) (collection : Collection) (entityId fieldName : Option String)
    (base branch destination : MergeValue) : MergeChange where
  changeId := coordinateKey rt collection entityId fieldName
  collection := collection
  entityId := entityId
  fieldName := fieldName
  base := base
  branch := branch
  destination := destination

/-- `_field_conflict`. -/
def fieldConflict (c : MergeChange) : FieldConflict where
  conflictId := c.changeId
  collection := c.collection
  entityId := c.entityId
  fieldName := c.fieldName.getD c.collection.name
  base := c.base
  branch := c.branch
  destination := c.destination
  allowedAnswerKinds :=
    if c.collection = .nodes ∧ (c.fieldName = some "status" ∨ c.fieldName = some "standing") then
      [.branch, .destination]
    else [.branch, .destination, .merged]

def edgeValue (s : GraphState rt) (id : String) : MergeValue :=
  valueOf ((s.entities .edges).get? id)

/-- Whether the node is one of the edge's endpoints. -/
def Edge.endsAt (e : Edge) (nodeId : String) : Bool :=
  decide (nodeId = e.source ∨ nodeId = e.target)

/-- The edges of the competing side that touch the node and that the base does not have so. -/
def competingEdges (nodeId : String) (base competing : GraphState rt) : List String :=
  (Text.sortedSet competing.edges.keys).filter fun id =>
    ((competing.edges.get? id).map fun e =>
      e.endsAt nodeId && !(edgeValue base id).same (valueOf (some (.ofEdge e)))).getD false

/-- `_incident_changes`. -/
def incidentChanges (nodeId : String) (base branch destination : GraphState rt)
    (removedOn : Side) : List MergeChange :=
  (competingEdges nodeId base (removedOn.survivor branch destination)).map fun id =>
    changeAt rt .edges (some id) none (edgeValue base id) (edgeValue branch id)
      (edgeValue destination id)

/-- The changes and conflicts of one field of an entity. -/
def compareField (rt : Runtime) (collection : Collection) (entityId fieldName : Option String)
    (b s d : MergeValue) : List MergeChange × List MergeConflict :=
  if s.same b || s.same d then ([], [])
  else
    let change := changeAt rt collection entityId fieldName b s d
    ([change], if d.same b then [] else [.field (fieldConflict change)])

/-- The changes and conflicts of an entity that exactly one side removed. -/
def compareRemoval (base branch destination : GraphState rt) (collection : Collection)
    (identity : String) (b s d : MergeValue) (removedOn : Side) :
    List MergeChange × List MergeConflict :=
  let whole := changeAt rt collection (some identity) none b s d
  let incident :=
    if collection = .nodes then incidentChanges identity base branch destination removedOn else []
  (if !s.same b || incident ≠ [] then [whole] else [],
    if incident ≠ [] then
      [.incident ⟨whole.changeId, identity, b, s, d, removedOn, incident⟩]
    else if (removedOn.survivor s d).same b then []
    else [.presence ⟨whole.changeId, collection, identity, b, s, d, removedOn⟩])

/-- The changes and conflicts of one entity. -/
def compareEntity (base branch destination : GraphState rt) (collection : Collection)
    (identity : String) : List MergeChange × List MergeConflict :=
  let old := (base.entities collection).get? identity
  let new := (branch.entities collection).get? identity
  let current := (destination.entities collection).get? identity
  let b := valueOf old
  let s := valueOf new
  let d := valueOf current
  if old.isSome ∧ new.isNone ≠ current.isNone then
    compareRemoval base branch destination collection identity b s d
      (if new.isNone then .branch else .destination)
  else if s.same b || s.same d then ([], [])
  else if new.isNone || current.isNone then
    ([changeAt rt collection (some identity) none b s d], [])
  else
    -- Concurrent creation also compares whole fields, against absence.
    let fields := (fieldNames [old, new, current]).map fun name =>
      compareField rt collection (some identity) (some name) (fieldOf old name) (fieldOf new name)
        (fieldOf current name)
    (fields.flatMap (·.1), fields.flatMap (·.2))

/-- The changes and conflicts of a global collection. -/
def compareGlobal (base branch destination : GraphState rt) (collection : Collection) :
    List MergeChange × List MergeConflict :=
  compareField rt collection none none (.present (base.globalValue collection))
    (.present (branch.globalValue collection)) (.present (destination.globalValue collection))

/-- Base edges the branch lost together with one of their endpoints. -/
def removedWithNode (base branch : GraphState rt) : List String :=
  (base.edges.entries.filter fun entry =>
    decide (entry.1 ∉ branch.edges) &&
      [entry.2.source, entry.2.target].any fun n =>
        decide (n ∈ base.nodes) && decide (n ∉ branch.nodes)).map (·.1)

/-- The edges an incident-edge conflict owns. -/
def MergeConflict.ownedEdges : MergeConflict → List String
  | .incident c => c.incidentEdges.filterMap (·.entityId)
  | _ => []

/-- Whether the conflict is about one of these edges and not about a node's removal. -/
def MergeConflict.about (ids : List String) : MergeConflict → Bool
  | .field c =>
      decide (c.collection = .edges) && (c.entityId.map fun id => decide (id ∈ ids)).getD false
  | .presence c => decide (c.collection = .edges) && decide (c.entityId ∈ ids)
  | .incident _ | .nodeGroup _ => false

def MergeChange.about (ids : List String) (c : MergeChange) : Bool :=
  decide (c.collection = .edges) && (c.entityId.map fun id => decide (id ∈ ids)).getD false

/-- The ids of a collection on any of the three graphs, in order. -/
def identities (base branch destination : GraphState rt) (collection : Collection) : List String :=
  Text.sortedSet ((base.entities collection).keys ++ (branch.entities collection).keys ++
    (destination.entities collection).keys)

/-- Every comparison, before edges are given to the node they belong to. -/
def comparisons (base branch destination : GraphState rt) :
    List (List MergeChange × List MergeConflict) :=
  (entityCollections.flatMap fun collection =>
    (identities base branch destination collection).map
      (compareEntity base branch destination collection)) ++
    globalCollections.map (compareGlobal base branch destination)

/-- Every conflict found, also those of edges that belong to a removed node. -/
def foundConflicts (base branch destination : GraphState rt) : List MergeConflict :=
  (comparisons base branch destination).flatMap (·.2)

/-- `incident_edge_ids`. -/
def incidentEdgeIds (base branch destination : GraphState rt) : List String :=
  removedWithNode base branch ++ (foundConflicts base branch destination).flatMap (·.ownedEdges)

/-- `compare_graphs`. -/
def compareGraphs (base branch destination : GraphState rt) :
    List MergeChange × List MergeConflict :=
  let owned := incidentEdgeIds base branch destination
  (((comparisons base branch destination).flatMap (·.1)).filter fun c => !c.about owned,
    (foundConflicts base branch destination).filter fun c => !c.about owned)

end Definitions

section Fields

/-- Two values of one collection that are equal as a whole are equal field by field. -/
theorem content_eq (s t : GraphState rt) (collection : Collection) (i j : String) (x y : Entity)
    (hx : (s.entities collection).get? i = some x) (hy : (t.entities collection).get? j = some y)
    (h : (valueOf (some x)).same (valueOf (some y)) = true) : x.content = y.content := by
  cases collection with
  | nodes =>
      simp only [GraphState.entities, Dict.get?_map, Option.map_eq_some_iff] at hx hy
      obtain ⟨n, -, rfl⟩ := hx
      obtain ⟨m, -, rfl⟩ := hy
      rw [MergeValue.same_iff, valueOf, valueOf, MergeValue.form, MergeValue.form,
        Option.some_inj, Json.equalForm, Json.equalForm, Json.obj.injEq] at h
      have htype := congrArg (Assoc.find "type") h
      rw [Json.find_equalFormFields _ _ (Entity.ofNode n).nodup,
        Json.find_equalFormFields _ _ (Entity.ofNode m).nodup] at htype
      have hname : n.type.name = m.type.name := by
        simpa [Entity.ofNode, Semantic.node, Assoc.find, Json.equalForm] using htype
      have : n.type = m.type := by
        revert hname
        cases n.type <;> cases m.type <;> simp [NodeType.name]
      rw [Entity.ofNode, Entity.ofNode, this]
  | edges | proposals | ambiguities | glossary =>
      simp only [GraphState.entities, Dict.get?_map, Option.map_eq_some_iff] at hx hy
      obtain ⟨n, -, rfl⟩ := hx
      obtain ⟨m, -, rfl⟩ := hy
      rfl
  | projectTruthScope | ontology => cases hx

theorem fieldOf_same (s t : GraphState rt) (collection : Collection) (i j : String)
    (h : (valueOf ((s.entities collection).get? i)).same
      (valueOf ((t.entities collection).get? j)) = true) (name : String) :
    (fieldOf ((s.entities collection).get? i) name).same
      (fieldOf ((t.entities collection).get? j) name) = true := by
  cases hx : (s.entities collection).get? i with
  | none =>
      cases hy : (t.entities collection).get? j with
      | none => rfl
      | some y =>
          rw [hx, hy] at h
          cases h
  | some x =>
      cases hy : (t.entities collection).get? j with
      | none =>
          rw [hx, hy] at h
          cases h
      | some y =>
          rw [hx, hy] at h
          have hcontent := content_eq s t collection i j x y hx hy h
          rw [MergeValue.same_iff, valueOf, valueOf, MergeValue.form, MergeValue.form,
            Option.some_inj, Json.equalForm, Json.equalForm, Json.obj.injEq] at h
          have hfind := congrArg (Assoc.find name) h
          rw [Json.find_equalFormFields _ _ x.nodup, Json.find_equalFormFields _ _ y.nodup] at hfind
          rw [MergeValue.same_iff, fieldOf, fieldOf, hcontent]
          split
          · rw [MergeValue.form, MergeValue.form, Option.some_inj]
            cases hfx : Assoc.find name x.document with
            | none =>
                rw [hfx] at hfind
                rw [Option.map_eq_none_iff.mp hfind.symm]
            | some a =>
                rw [hfx] at hfind
                obtain ⟨b, hfy, hb⟩ := Option.map_eq_some_iff.mp hfind.symm
                rw [hfy, Option.getD_some, Option.getD_some, hb]
          · rfl

theorem fieldOf_missing (entities : List (Option Entity)) (name : String)
    (h : name ∉ fieldNames entities) (e : Option Entity) (he : e ∈ entities) :
    fieldOf e name = .missing := by
  cases e with
  | none => rfl
  | some e =>
      rw [fieldOf, if_neg]
      intro hname
      apply h
      rw [fieldNames, Text.mem_sortedSet, List.mem_flatMap]
      exact ⟨some e, he, hname⟩

end Fields

section Found

variable (base branch destination : GraphState rt)

theorem mem_compareField (collection : Collection) (entityId fieldName : Option String)
    (b s d : MergeValue) (c : MergeConflict) :
    c ∈ (compareField rt collection entityId fieldName b s d).2 ↔
      s.same b = false ∧ s.same d = false ∧ d.same b = false ∧
        c = .field (fieldConflict (changeAt rt collection entityId fieldName b s d)) := by
  unfold compareField
  cases s.same b <;> cases s.same d <;> cases d.same b <;> simp

theorem mem_compareField_exchange (collection : Collection) (entityId fieldName : Option String)
    (b s d : MergeValue) (c : MergeConflict) :
    c.exchange ∈ (compareField rt collection entityId fieldName b d s).2 ↔
      c ∈ (compareField rt collection entityId fieldName b s d).2 := by
  have hexchange : (MergeConflict.field
      (fieldConflict (changeAt rt collection entityId fieldName b d s))) =
      (MergeConflict.field (fieldConflict (changeAt rt collection entityId fieldName b s d))).exchange
        := rfl
  rw [mem_compareField, mem_compareField, hexchange, MergeConflict.exchange_inj,
    MergeValue.same_comm d s]
  tauto

theorem incidentChanges_exchange (nodeId : String) (removedOn : Side) :
    incidentChanges nodeId base destination branch removedOn.other =
      (incidentChanges nodeId base branch destination removedOn).map MergeChange.exchange := by
  rw [incidentChanges, incidentChanges, Side.survivor_other, List.map_map]
  rfl

theorem compareRemoval_exchange (collection : Collection) (identity : String) (b s d : MergeValue)
    (removedOn : Side) :
    (compareRemoval base destination branch collection identity b d s removedOn.other).2 =
      (compareRemoval base branch destination collection identity b s d removedOn).2.map
        MergeConflict.exchange := by
  have hincident : (if collection = .nodes then
      incidentChanges identity base destination branch removedOn.other else []) =
      (if collection = .nodes then incidentChanges identity base branch destination removedOn
        else []).map MergeChange.exchange := by
    rw [incidentChanges_exchange]
    split <;> rfl
  rw [compareRemoval, compareRemoval, hincident, Side.survivor_other]
  generalize (if collection = .nodes then
    incidentChanges identity base branch destination removedOn else []) = incident
  cases incident with
  | cons change rest => rfl
  | nil => cases (removedOn.survivor s d).same b <;> rfl

/-- What one side removed of the base and the other kept. -/
def removedOn? (old new current : Option Entity) : Option Side :=
  if old.isSome ∧ new.isNone ≠ current.isNone then
    some (if new.isNone then .branch else .destination)
  else none

theorem removedOn?_exchange (old new current : Option Entity) :
    removedOn? old current new = (removedOn? old new current).map Side.other := by
  cases old <;> cases new <;> cases current <;> rfl

/-- A conflict about an entity is about its removal on one side, or about a field that both
sides have. -/
theorem mem_compareEntity (collection : Collection) (identity : String) (c : MergeConflict) :
    c ∈ (compareEntity base branch destination collection identity).2 ↔
      (∃ side, removedOn? ((base.entities collection).get? identity)
          ((branch.entities collection).get? identity)
          ((destination.entities collection).get? identity) = some side ∧
        c ∈ (compareRemoval base branch destination collection identity
          (valueOf ((base.entities collection).get? identity))
          (valueOf ((branch.entities collection).get? identity))
          (valueOf ((destination.entities collection).get? identity)) side).2) ∨
      (((branch.entities collection).get? identity).isSome = true ∧
        ((destination.entities collection).get? identity).isSome = true ∧
        ∃ name, c ∈ (compareField rt collection (some identity) (some name)
          (fieldOf ((base.entities collection).get? identity) name)
          (fieldOf ((branch.entities collection).get? identity) name)
          (fieldOf ((destination.entities collection).get? identity) name)).2) := by
  have hbase := fieldOf_same branch base collection identity identity
  have hsides := fieldOf_same branch destination collection identity identity
  rw [compareEntity]
  generalize (base.entities collection).get? identity = old at hbase ⊢
  generalize (branch.entities collection).get? identity = new at hbase hsides ⊢
  generalize (destination.entities collection).get? identity = current at hsides ⊢
  simp only [removedOn?]
  by_cases hremoved : old.isSome = true ∧ new.isNone ≠ current.isNone
  · have hone : ¬(new.isSome = true ∧ current.isSome = true) := by
      rintro ⟨hnew, hcurrent⟩
      rw [← Option.not_isNone, Bool.not_eq_true'] at hnew hcurrent
      exact hremoved.2 (hnew.trans hcurrent.symm)
    rw [if_pos hremoved, if_pos hremoved]
    constructor
    · intro hc
      exact .inl ⟨_, rfl, hc⟩
    · rintro (⟨side, hside, hc⟩ | ⟨hnew, hcurrent, -⟩)
      · cases hside
        exact hc
      · exact absurd ⟨hnew, hcurrent⟩ hone
  · rw [if_neg hremoved, if_neg hremoved]
    simp only [reduceCtorEq, false_and, exists_false, false_or]
    cases hb : (valueOf new).same (valueOf old) with
    | true =>
        constructor
        · intro hc
          cases hc
        · rintro ⟨-, -, name, hc⟩
          rw [mem_compareField, hbase hb name] at hc
          cases hc.1
    | false =>
        cases hd : (valueOf new).same (valueOf current) with
        | true =>
            constructor
            · intro hc
              cases hc
            · rintro ⟨-, -, name, hc⟩
              rw [mem_compareField, hsides hd name] at hc
              cases hc.2.1
        | false =>
            rw [Bool.or_false, if_neg (by decide)]
            cases hnew : new with
            | none => simp
            | some n =>
                cases hcurrent : current with
                | none => simp
                | some m =>
                    rw [Option.isNone_some, Option.isNone_some, Bool.or_false, if_neg (by decide)]
                    simp only [List.mem_flatMap, List.mem_map, Option.isSome_some, true_and]
                    constructor
                    · rintro ⟨_, ⟨name, -, rfl⟩, hc⟩
                      exact ⟨name, hc⟩
                    · rintro ⟨name, hc⟩
                      refine ⟨_, ⟨name, ?_, rfl⟩, hc⟩
                      by_contra hname
                      have hmissing := fieldOf_missing _ name hname
                      rw [mem_compareField, hmissing old (by simp),
                        hmissing (some n) (by simp)] at hc
                      cases hc.1

theorem mem_compareEntity_exchange (collection : Collection) (identity : String)
    (c : MergeConflict) :
    c.exchange ∈ (compareEntity base destination branch collection identity).2 ↔
      c ∈ (compareEntity base branch destination collection identity).2 := by
  rw [mem_compareEntity, mem_compareEntity, removedOn?_exchange]
  simp only [mem_compareField_exchange, Option.map_eq_some_iff]
  constructor
  · rintro (⟨_, ⟨side, hside, rfl⟩, hc⟩ | ⟨hdestination, hbranch, hc⟩)
    · rw [compareRemoval_exchange, MergeConflict.mem_map_exchange] at hc
      exact .inl ⟨side, hside, hc⟩
    · exact .inr ⟨hbranch, hdestination, hc⟩
  · rintro (⟨side, hside, hc⟩ | ⟨hbranch, hdestination, hc⟩)
    · refine .inl ⟨side.other, ⟨side, hside, rfl⟩, ?_⟩
      rw [compareRemoval_exchange, MergeConflict.mem_map_exchange]
      exact hc
    · exact .inr ⟨hdestination, hbranch, hc⟩

theorem mem_identities (collection : Collection) (identity : String) :
    identity ∈ identities base branch destination collection ↔
      identity ∈ base.entities collection ∨ identity ∈ branch.entities collection ∨
        identity ∈ destination.entities collection := by
  rw [identities, Text.mem_sortedSet, List.mem_append, List.mem_append, or_assoc]
  rfl

theorem mem_foundConflicts (c : MergeConflict) :
    c ∈ foundConflicts base branch destination ↔
      (∃ collection ∈ entityCollections, ∃ identity,
        c ∈ (compareEntity base branch destination collection identity).2) ∨
      ∃ collection ∈ globalCollections, c ∈ (compareGlobal base branch destination collection).2 := by
  simp only [foundConflicts, comparisons, List.flatMap_append, List.mem_append, List.mem_flatMap,
    List.mem_map]
  constructor
  · rintro (⟨_, ⟨collection, hcollection, identity, -, rfl⟩, hc⟩ | ⟨_, ⟨collection, hcollection, rfl⟩, hc⟩)
    · exact .inl ⟨collection, hcollection, identity, hc⟩
    · exact .inr ⟨collection, hcollection, hc⟩
  · rintro (⟨collection, hcollection, identity, hc⟩ | ⟨collection, hcollection, hc⟩)
    · refine .inl ⟨_, ⟨collection, hcollection, identity, ?_, rfl⟩, hc⟩
      rw [mem_identities]
      by_contra hnone
      simp only [not_or, Dict.not_mem_iff] at hnone
      rw [mem_compareEntity, hnone.1, hnone.2.1, hnone.2.2] at hc
      simp [removedOn?] at hc
    · exact .inr ⟨_, ⟨collection, hcollection, rfl⟩, hc⟩

/-- Before edges are given to the nodes they belong to, the sides can be exchanged. -/
theorem mem_foundConflicts_exchange (c : MergeConflict) :
    c.exchange ∈ foundConflicts base destination branch ↔
      c ∈ foundConflicts base branch destination := by
  rw [mem_foundConflicts, mem_foundConflicts]
  simp only [mem_compareEntity_exchange, compareGlobal, mem_compareField_exchange]

end Found

section Owned

variable (base branch destination : GraphState rt)

/-- The edges that some incident-edge conflict owns. -/
def incidentOwned : List String :=
  (foundConflicts base branch destination).flatMap (·.ownedEdges)

theorem ownedEdges_exchange (c : MergeConflict) : c.exchange.ownedEdges = c.ownedEdges := by
  cases c with
  | incident c =>
      simp only [MergeConflict.exchange, MergeConflict.ownedEdges, IncidentEdgeConflict.exchange,
        List.filterMap_map]
      rfl
  | field c => rfl
  | presence c => rfl
  | nodeGroup c => rfl

theorem about_exchange (ids : List String) (c : MergeConflict) :
    c.exchange.about ids = c.about ids := by
  cases c <;> rfl

theorem mem_incidentOwned_exchange (id : String) :
    id ∈ incidentOwned base destination branch ↔ id ∈ incidentOwned base branch destination := by
  simp only [incidentOwned, List.mem_flatMap]
  constructor
  · rintro ⟨c, hc, hid⟩
    refine ⟨c.exchange, ?_, by rwa [ownedEdges_exchange]⟩
    rwa [← mem_foundConflicts_exchange, MergeConflict.exchange_exchange]
  · rintro ⟨c, hc, hid⟩
    refine ⟨c.exchange, ?_, by rwa [ownedEdges_exchange]⟩
    rwa [mem_foundConflicts_exchange]

theorem mem_incidentEdgeIds (id : String) :
    id ∈ incidentEdgeIds base branch destination ↔
      id ∈ removedWithNode base branch ∨ id ∈ incidentOwned base branch destination := by
  rw [incidentEdgeIds, List.mem_append]
  rfl

theorem endsAt_iff (e : Edge) (n : String) :
    e.endsAt n = true ↔ n = e.source ∨ n = e.target := by
  rw [Edge.endsAt, decide_eq_true_eq]

theorem mem_removedWithNode (id : String) :
    id ∈ removedWithNode base branch ↔
      ∃ e, base.edges.get? id = some e ∧ id ∉ branch.edges ∧
        ∃ n, e.endsAt n = true ∧ n ∈ base.nodes ∧ n ∉ branch.nodes := by
  simp only [removedWithNode, List.mem_map, List.mem_filter, Bool.and_eq_true, decide_eq_true_eq,
    List.any_eq_true, List.mem_cons, List.not_mem_nil, or_false, endsAt_iff]
  constructor
  · rintro ⟨⟨key, e⟩, ⟨hentry, hgone, n, hn, hremoved⟩, rfl⟩
    exact ⟨e, (base.edges.get?_eq_some_iff key e).mpr hentry, hgone, n, hn, hremoved⟩
  · rintro ⟨e, he, hgone, n, hn, hremoved⟩
    exact ⟨(id, e), ⟨(base.edges.get?_eq_some_iff id e).mp he, hgone, n, hn, hremoved⟩, rfl⟩

theorem mem_competingEdges (nodeId : String) (competing : GraphState rt) (id : String) :
    id ∈ competingEdges nodeId base competing ↔
      ∃ e, competing.edges.get? id = some e ∧ e.endsAt nodeId = true ∧
        (edgeValue base id).same (valueOf (some (.ofEdge e))) = false := by
  rw [competingEdges, List.mem_filter, Text.mem_sortedSet, ← Dict.mem_iff, Dict.mem_iff_exists]
  constructor
  · rintro ⟨⟨e, he⟩, hmeets⟩
    rw [he, Option.map_some, Option.getD_some, Bool.and_eq_true, Bool.not_eq_true'] at hmeets
    exact ⟨e, he, hmeets⟩
  · rintro ⟨e, he, hends, hdiffers⟩
    refine ⟨⟨e, he⟩, ?_⟩
    rw [he, Option.map_some, Option.getD_some, hends, hdiffers]
    rfl

theorem mem_compareRemoval (collection : Collection) (identity : String) (b s d : MergeValue)
    (side : Side) (c : MergeConflict) :
    c ∈ (compareRemoval base branch destination collection identity b s d side).2 ↔
      (collection = .nodes ∧ incidentChanges identity base branch destination side ≠ [] ∧
        c = .incident ⟨coordinateKey rt collection (some identity) none, identity, b, s, d, side,
          incidentChanges identity base branch destination side⟩) ∨
      ((collection = .nodes → incidentChanges identity base branch destination side = []) ∧
        (side.survivor s d).same b = false ∧
        c = .presence ⟨coordinateKey rt collection (some identity) none, collection, identity, b, s,
          d, side⟩) := by
  rw [compareRemoval]
  by_cases hnodes : collection = .nodes
  · simp only [hnodes, true_and, forall_const]
    by_cases hincident : incidentChanges identity base branch destination side = []
    · simp only [hincident, ne_eq, not_true_eq_false, false_and, false_or, true_and]
      cases (side.survivor s d).same b <;> simp [changeAt]
    · simp [hincident, changeAt]
  · simp only [hnodes, false_and, false_or, ne_eq, not_true_eq_false, if_false, false_implies,
      true_and]
    cases (side.survivor s d).same b <;> simp [changeAt]

theorem mem_incidentOwned (id : String) :
    id ∈ incidentOwned base branch destination ↔
      ∃ nodeId side, removedOn? ((base.entities .nodes).get? nodeId)
          ((branch.entities .nodes).get? nodeId) ((destination.entities .nodes).get? nodeId) =
            some side ∧
        id ∈ competingEdges nodeId base (side.survivor branch destination) := by
  have hids : ∀ nodeId side, (incidentChanges nodeId base branch destination side).filterMap
      (·.entityId) = competingEdges nodeId base (side.survivor branch destination) := by
    intro nodeId side
    rw [incidentChanges, List.filterMap_map]
    exact List.filterMap_some
  rw [incidentOwned, List.mem_flatMap]
  constructor
  · rintro ⟨c, hc, hid⟩
    rw [mem_foundConflicts] at hc
    rcases hc with ⟨collection, -, identity, hc⟩ | ⟨collection, -, hc⟩
    · rw [mem_compareEntity] at hc
      rcases hc with ⟨side, hside, hc⟩ | ⟨-, -, name, hc⟩
      · rw [mem_compareRemoval] at hc
        rcases hc with ⟨rfl, -, rfl⟩ | ⟨-, -, rfl⟩
        · refine ⟨identity, side, hside, ?_⟩
          rwa [← hids]
        · cases hid
      · rw [mem_compareField] at hc
        rw [hc.2.2.2] at hid
        cases hid
    · rw [compareGlobal, mem_compareField] at hc
      rw [hc.2.2.2] at hid
      cases hid
  · rintro ⟨nodeId, side, hside, hid⟩
    have hne : incidentChanges nodeId base branch destination side ≠ [] := by
      intro hnil
      rw [← hids, hnil] at hid
      cases hid
    refine ⟨_, (mem_foundConflicts _ _ _ _).mpr (.inl ⟨.nodes, by decide, nodeId,
      (mem_compareEntity _ _ _ _ _ _).mpr (.inl ⟨side, hside,
        (mem_compareRemoval _ _ _ _ _ _ _ _ _ _).mpr (.inl ⟨rfl, hne, rfl⟩)⟩)⟩), ?_⟩
    rw [MergeConflict.ownedEdges, hids]
    exact hid

end Owned

section Symmetric

variable (base one other : GraphState rt)

theorem get?_edges (s : GraphState rt) (id : String) :
    (s.entities .edges).get? id = (s.edges.get? id).map Entity.ofEdge := by
  rw [GraphState.entities, Dict.get?_map]

theorem removedOn?_branch {old new current : Option Entity} :
    removedOn? old new current = some .branch ↔
      old.isSome = true ∧ new = none ∧ current.isSome = true := by
  cases old <;> cases new <;> cases current <;> simp [removedOn?]

theorem removedOn?_destination {old new current : Option Entity} :
    removedOn? old new current = some .destination ↔
      old.isSome = true ∧ new.isSome = true ∧ current = none := by
  cases old <;> cases new <;> cases current <;> simp [removedOn?]

/-- One side removed the entity of the base and the other kept it changed. -/
def EditedAgainstRemoval (collection : Collection) (id : String) : Prop :=
  id ∈ base.entities collection ∧ id ∉ one.entities collection ∧ id ∈ other.entities collection ∧
    (valueOf ((other.entities collection).get? id)).same
      (valueOf ((base.entities collection).get? id)) = false

/-- An edge that one side removed together with a node, and that the other side kept in a form
which touches no node that only the first side removed. -/
def EditUnowned (id : String) : Prop :=
  EditedAgainstRemoval base one other .edges id ∧
    (∃ e, base.edges.get? id = some e ∧
      ∃ n, e.endsAt n = true ∧ n ∈ base.nodes ∧ n ∉ one.nodes) ∧
    ∀ e, other.edges.get? id = some e →
      ∀ n, e.endsAt n = true → n ∈ base.nodes → n ∉ one.nodes → n ∉ other.nodes

/-- The conflict decides the entity as a whole. -/
def MergeConflict.Decides (collection : Collection) (id : String) : MergeConflict → Prop
  | .presence c => c.collection = collection ∧ c.entityId = id
  | .incident c =>
      (collection = .nodes ∧ c.nodeId = id) ∨
        (collection = .edges ∧ id ∈ (MergeConflict.incident c).ownedEdges)
  | .field _ | .nodeGroup _ => False

/-- The two comparisons report the same conflicts up to an exchange of the sides. -/
def SameConflicts (base branch destination : GraphState rt) : Prop :=
  ∀ c, c ∈ (compareGraphs base branch destination).2 ↔
    c.exchange ∈ (compareGraphs base destination branch).2

/-- An edit against a removal is reported, whichever side removed. -/
def RemovalsReported (base branch destination : GraphState rt) : Prop :=
  ∀ collection ∈ entityCollections, ∀ id,
    EditedAgainstRemoval base branch destination collection id ∨
      EditedAgainstRemoval base destination branch collection id →
    ∃ c ∈ (compareGraphs base branch destination).2, c.Decides collection id

theorem mem_compareGraphs (c : MergeConflict) :
    c ∈ (compareGraphs base one other).2 ↔
      c ∈ foundConflicts base one other ∧ c.about (incidentEdgeIds base one other) = false := by
  rw [compareGraphs, List.mem_filter, Bool.not_eq_true']

variable {base one other}

/-- The conflict that an edit against a removal meets. -/
theorem EditedAgainstRemoval.found {collection : Collection} {id : String}
    (hcollection : collection ∈ entityCollections)
    (h : EditedAgainstRemoval base one other collection id) :
    ∃ c ∈ foundConflicts base one other, c.Decides collection id ∧
      ∀ ids, c.about ids = true ↔ collection = .edges ∧ id ∈ ids := by
  have hside : removedOn? ((base.entities collection).get? id) ((one.entities collection).get? id)
      ((other.entities collection).get? id) = some .branch := by
    rw [removedOn?_branch, ← Dict.mem_iff_isSome, ← Dict.not_mem_iff, ← Dict.mem_iff_isSome]
    exact ⟨h.1, h.2.1, h.2.2.1⟩
  by_cases hincident : collection = .nodes ∧ incidentChanges id base one other .branch ≠ []
  · refine ⟨_, (mem_foundConflicts _ _ _ _).mpr (.inl ⟨collection, hcollection, id,
      (mem_compareEntity _ _ _ _ _ _).mpr (.inl ⟨.branch, hside,
        (mem_compareRemoval _ _ _ _ _ _ _ _ _ _).mpr (.inl ⟨hincident.1, hincident.2, rfl⟩)⟩)⟩),
      .inl ⟨hincident.1, rfl⟩, ?_⟩
    intro ids
    simp [MergeConflict.about, hincident.1]
  · refine ⟨_, (mem_foundConflicts _ _ _ _).mpr (.inl ⟨collection, hcollection, id,
      (mem_compareEntity _ _ _ _ _ _).mpr (.inl ⟨.branch, hside,
        (mem_compareRemoval _ _ _ _ _ _ _ _ _ _).mpr (.inr ⟨?_, h.2.2.2, rfl⟩)⟩)⟩),
      ⟨rfl, rfl⟩, ?_⟩
    · intro hnodes
      by_contra hne
      exact hincident ⟨hnodes, hne⟩
    · intro ids
      simp [MergeConflict.about]

/-- A conflict about edges names one edge; where the first side lacks that edge, the conflict
is an edit against its removal. -/
theorem about_found {c : MergeConflict} (hc : c ∈ foundConflicts base one other)
    {ids : List String} (h : c.about ids = true) :
    ∃ id ∈ ids, (∀ ids', c.about ids' = true ↔ id ∈ ids') ∧
      (id ∈ base.edges → id ∉ one.edges → EditedAgainstRemoval base one other .edges id) := by
  rw [mem_foundConflicts] at hc
  rcases hc with ⟨collection, -, identity, hc⟩ | ⟨collection, -, hc⟩
  · rw [mem_compareEntity] at hc
    rcases hc with ⟨side, hside, hc⟩ | ⟨hnew, -, name, hc⟩
    · rw [mem_compareRemoval] at hc
      rcases hc with ⟨-, -, rfl⟩ | ⟨-, hdiffers, rfl⟩
      · cases h
      · simp only [MergeConflict.about, Bool.and_eq_true, decide_eq_true_eq] at h ⊢
        obtain ⟨rfl, hid⟩ := h
        refine ⟨identity, hid, fun ids' => ⟨fun h => h.2, fun h => ⟨rfl, h⟩⟩, ?_⟩
        intro hbase hone
        have hgone : identity ∉ one.entities .edges := by rwa [GraphState.entities, Dict.mem_map]
        cases side with
        | branch =>
            rw [removedOn?_branch, ← Dict.mem_iff_isSome, ← Dict.mem_iff_isSome] at hside
            exact ⟨hside.1, hgone, hside.2.2, hdiffers⟩
        | destination =>
            rw [removedOn?_destination, ← Dict.mem_iff_isSome, ← Dict.mem_iff_isSome] at hside
            exact absurd hside.2.1 hgone
    · rw [mem_compareField] at hc
      obtain ⟨-, -, -, rfl⟩ := hc
      simp only [MergeConflict.about, fieldConflict, changeAt, Option.map_some, Option.getD_some,
        Bool.and_eq_true, decide_eq_true_eq] at h ⊢
      obtain ⟨hedges, hid⟩ := h
      refine ⟨identity, hid, fun ids' => ⟨fun h => h.2, fun h => ⟨hedges, h⟩⟩, ?_⟩
      intro _ hone
      obtain rfl : collection = .edges := of_decide_eq_true hedges
      rw [← Dict.mem_iff_isSome, GraphState.entities, Dict.mem_map] at hnew
      exact absurd hnew hone
  · rw [compareGlobal, mem_compareField] at hc
    obtain ⟨-, -, -, rfl⟩ := hc
    simp [MergeConflict.about, fieldConflict, changeAt] at h

theorem differs_comm (s t : GraphState rt) (id : String) (e : Edge)
    (ht : t.edges.get? id = some e)
    (h : (valueOf ((t.entities .edges).get? id)).same (valueOf ((s.entities .edges).get? id)) =
      false) : (edgeValue s id).same (valueOf (some (.ofEdge e))) = false := by
  rw [MergeValue.same_comm, get?_edges t, ht, Option.map_some] at h
  exact h

/-- Where the edit is not lost, a node's conflict owns it. -/
theorem owned_of_edited {id : String} (hedit : EditedAgainstRemoval base one other .edges id)
    (hwith : id ∈ removedWithNode base one) (hnot : ¬EditUnowned base one other id) :
    id ∈ incidentOwned base one other := by
  obtain ⟨e, he, -, hends⟩ := (mem_removedWithNode base one id).mp hwith
  have hkept : ∃ e', other.edges.get? id = some e' ∧
      ∃ n, e'.endsAt n = true ∧ n ∈ base.nodes ∧ n ∉ one.nodes ∧ n ∈ other.nodes := by
    by_contra hnone
    refine hnot ⟨hedit, ⟨e, he, hends⟩, ?_⟩
    intro e' he' n hn hbase hone hother
    exact hnone ⟨e', he', n, hn, hbase, hone, hother⟩
  obtain ⟨e', he', n, hn, hbase, hone, hother⟩ := hkept
  rw [mem_incidentOwned]
  refine ⟨n, .branch, ?_, (mem_competingEdges _ _ _ _).mpr ⟨e', he', hn, ?_⟩⟩
  · rw [removedOn?_branch, ← Dict.mem_iff_isSome, ← Dict.not_mem_iff, ← Dict.mem_iff_isSome]
    simpa only [GraphState.entities, Dict.mem_map] using And.intro hbase ⟨hone, hother⟩
  · exact differs_comm base other id e' he' hedit.2.2.2

/-- A lost edit: its edge counts as removed with a node, and no node's conflict owns it. -/
theorem EditUnowned.not_owned {id : String} (h : EditUnowned base one other id) :
    id ∈ removedWithNode base one ∧ id ∉ removedWithNode base other ∧
      id ∉ incidentOwned base one other := by
  obtain ⟨⟨-, hone, hother, -⟩, ⟨e, he, hends⟩, hfree⟩ := h
  rw [GraphState.entities, Dict.mem_map] at hone hother
  refine ⟨(mem_removedWithNode base one id).mpr ⟨e, he, hone, hends⟩, ?_, ?_⟩
  · intro hwith
    obtain ⟨-, -, hgone, -⟩ := (mem_removedWithNode base other id).mp hwith
    exact hgone hother
  · rw [mem_incidentOwned]
    rintro ⟨n, side, hside, hid⟩
    obtain ⟨e', he', hn, -⟩ := (mem_competingEdges _ _ _ _).mp hid
    cases side with
    | branch =>
        rw [removedOn?_branch, ← Dict.mem_iff_isSome, ← Dict.not_mem_iff, ← Dict.mem_iff_isSome]
          at hside
        simp only [GraphState.entities, Dict.mem_map] at hside
        exact hfree e' he' n hn hside.1 hside.2.1 hside.2.2
    | destination => exact hone (Dict.mem_of_get? he')

/-- Both comparisons drop the same conflicts unless an edit is lost. -/
theorem about_incidentEdgeIds {c : MergeConflict} (hc : c ∈ foundConflicts base one other)
    (hnot : ∀ id, ¬EditUnowned base one other id)
    (h : c.about (incidentEdgeIds base one other) = true) :
    c.about (incidentOwned base one other) = true := by
  obtain ⟨id, hid, habout, hedited⟩ := about_found hc h
  rw [habout]
  rcases (mem_incidentEdgeIds base one other id).mp hid with hwith | howned
  · obtain ⟨e, he, hgone, -⟩ := (mem_removedWithNode base one id).mp hwith
    exact owned_of_edited (hedited (Dict.mem_of_get? he) hgone) hwith (hnot id)
  · exact howned

theorem mem_compareGraphs_iff (c : MergeConflict) (hnot : ∀ id, ¬EditUnowned base one other id) :
    c ∈ (compareGraphs base one other).2 ↔
      c ∈ foundConflicts base one other ∧ c.about (incidentOwned base one other) = false := by
  rw [mem_compareGraphs]
  refine and_congr_right fun hc => ?_
  rw [← Bool.not_eq_true, ← Bool.not_eq_true, not_iff_not]
  refine ⟨about_incidentEdgeIds hc hnot, fun howned => ?_⟩
  obtain ⟨id, hid, habout, -⟩ := about_found hc howned
  rw [habout, mem_incidentEdgeIds]
  exact .inr hid

theorem about_congr {ids ids' : List String} (h : ∀ id, id ∈ ids ↔ id ∈ ids') (c : MergeConflict) :
    c.about ids = c.about ids' := by
  cases c <;> simp only [MergeConflict.about, h]

theorem removalsReported_of_owned (hnot : ∀ id, ¬EditUnowned base one other id) :
    RemovalsReported base one other := by
  have hreport : ∀ collection ∈ entityCollections, ∀ id,
      (∃ c ∈ foundConflicts base one other, c.Decides collection id ∧
        ∀ ids, c.about ids = true ↔ collection = .edges ∧ id ∈ ids) →
      ∃ c ∈ (compareGraphs base one other).2, c.Decides collection id := by
    rintro collection - id ⟨c, hc, hdecides, habout⟩
    cases howned : c.about (incidentOwned base one other) with
    | false => exact ⟨c, (mem_compareGraphs_iff c hnot).mpr ⟨hc, howned⟩, hdecides⟩
    | true =>
        obtain ⟨rfl, hid⟩ := (habout _).mp howned
        obtain ⟨c', hc', hid'⟩ := List.mem_flatMap.mp hid
        refine ⟨c', (mem_compareGraphs_iff c' hnot).mpr ⟨hc', ?_⟩, ?_⟩
        · cases c' with
          | incident c' => rfl
          | field _ | presence _ | nodeGroup _ => cases hid'
        · cases c' with
          | incident c' => exact .inr ⟨rfl, hid'⟩
          | field _ | presence _ | nodeGroup _ => cases hid'
  intro collection hcollection id hedit
  apply hreport collection hcollection id
  rcases hedit with hedit | hedit
  · exact hedit.found hcollection
  · obtain ⟨c, hc, hdecides, habout⟩ := hedit.found hcollection
    refine ⟨c.exchange, (mem_foundConflicts_exchange base other one c).mpr hc, ?_, ?_⟩
    · cases c with
      | presence c => exact hdecides
      | incident c =>
          refine hdecides.imp (fun h => h) fun howns => ⟨howns.1, ?_⟩
          have hsame := ownedEdges_exchange (.incident c)
          rw [MergeConflict.exchange] at hsame
          rw [hsame]
          exact howns.2
      | field _ | nodeGroup _ => cases hdecides
    · intro ids
      rw [about_exchange]
      exact habout ids

/-- The two comparisons agree, and report every edit against a removal, exactly when no edit of
an edge is given to a node's conflict that does not exist. -/
theorem compareGraphs_symmetric_iff (base branch destination : GraphState rt) :
    SameConflicts base branch destination ∧ RemovalsReported base branch destination ∧
        RemovalsReported base destination branch ↔
      ∀ id, ¬EditUnowned base branch destination id ∧ ¬EditUnowned base destination branch id := by
  constructor
  · rintro ⟨hsame, -, -⟩ id
    have hlost : ∀ one other : GraphState rt, SameConflicts base one other →
        ¬EditUnowned base one other id := by
      intro one other hsame hunowned
      obtain ⟨hwith, hwithout, hfree⟩ := hunowned.not_owned
      obtain ⟨c, hc, -, habout⟩ := hunowned.1.found (by decide)
      have hdropped : c ∉ (compareGraphs base one other).2 := by
        rw [mem_compareGraphs, (habout _).mpr ⟨rfl, (mem_incidentEdgeIds _ _ _ _).mpr (.inl hwith)⟩]
        simp
      apply hdropped
      rw [hsame c, mem_compareGraphs, mem_foundConflicts_exchange, about_exchange,
        ← Bool.not_eq_true, habout, mem_incidentEdgeIds, mem_incidentOwned_exchange]
      refine ⟨hc, ?_⟩
      rintro ⟨-, hwith' | howned⟩
      · exact hwithout hwith'
      · exact hfree howned
    refine ⟨hlost branch destination hsame, hlost destination branch fun c => ?_⟩
    have := hsame c.exchange
    rw [MergeConflict.exchange_exchange] at this
    exact this.symm
  · intro hnot
    have hleft := fun id => (hnot id).1
    have hright := fun id => (hnot id).2
    refine ⟨fun c => ?_, removalsReported_of_owned hleft, removalsReported_of_owned hright⟩
    rw [mem_compareGraphs_iff c hleft, mem_compareGraphs_iff c.exchange hright,
      mem_foundConflicts_exchange, about_exchange,
      about_congr (mem_incidentOwned_exchange base branch destination)]

/-- Graphs that admitted patches derive from a base. -/
inductive Derived (base : GraphState rt) : GraphState rt → Prop
  | refl : Derived base base
  | accept (s t : GraphState rt) (p : Patch rt) (vc : ValidationContext rt)
      (request : PatchRequest) (before : Derived base s)
      (valid : rejected (validatePatch s p vc request) = false)
      (applied : applyValidPatch s p = .ok t) : Derived base t

section Repointed

/-- A governing edge under a chosen id. -/
theorem isIdentifier_governedBy : Text.isIdentifier "governed_by".toList = true := by rfl

def plannedDraft (source : String) : NewEdge where
  id := some (some "edge/plan")
  source := source
  target := "dec/a"
  relation := "governed_by"
  relation_ok := isIdentifier_governedBy

def filedPlan : Patch .plain :=
  firstPatch
    [ .createNodes [experimentDraft "exp/a", experimentDraft "exp/b", decisionDraft "dec/a"],
      .createEdges [plannedDraft "exp/a"] ]

def removedExperiment : Patch .plain :=
  { firstPatch [.removeNodes ["exp/a"]] with revision := 2 }

/-- The edge is removed and created anew under its id from the other Experiment. -/
def repointedPlan : Patch .plain :=
  { firstPatch [.removeEdges ["edge/plan"], .createEdges [plannedDraft "exp/b"]] with
    revision := 2 }

/-- The comparison finds nothing one way and something the other way. -/
def oneSided (base one other : GraphState .plain) : Bool :=
  (compareGraphs base one other).2.isEmpty && !(compareGraphs base other one).2.isEmpty

theorem reached_oneSided :
    ∃ base one other : GraphState .plain,
      applyValidPatch (.initial .plain ["repo"]) filedPlan = .ok base ∧
      (applyValidPatch (base.record []) removedExperiment = .ok one ∧
        rejected (validatePatch (base.record []) removedExperiment
          { projectTruthScope := ["repo"] } {}) = false) ∧
      (applyValidPatch (base.record []) repointedPlan = .ok other ∧
        rejected (validatePatch (base.record []) repointedPlan
          { projectTruthScope := ["repo"] } {}) = false) ∧
      oneSided (base.record []) one other = true := by
  refine ⟨_, _, _, rfl, ⟨rfl, by decide +kernel⟩, ⟨rfl, by decide +kernel⟩, by decide +kernel⟩

theorem repointed_edge_one_sided :
    ∃ base one other : GraphState .plain, Reachable (fun _ _ => True) base ∧
      Derived base one ∧ Derived base other ∧
      ¬(SameConflicts base one other ∧ RemovalsReported base one other ∧
        RemovalsReported base other one) := by
  obtain ⟨base, one, other, hbase, ⟨hone, hone'⟩, ⟨hother, hother'⟩, hsides⟩ := reached_oneSided
  refine ⟨base.record [], one, other, ?_, ?_, ?_, ?_⟩
  · exact .accept _ base filedPlan { projectTruthScope := ["repo"] } {} [] (.initial ["repo"])
      trivial (by decide +kernel) hbase
  · exact .accept _ one removedExperiment _ _ .refl hone' hone
  · exact .accept _ other repointedPlan _ _ .refl hother' hother
  · rintro ⟨hsame, -, -⟩
    rw [oneSided, Bool.and_eq_true, List.isEmpty_iff, Bool.not_eq_true'] at hsides
    cases hfound : (compareGraphs (base.record []) other one).2 with
    | nil =>
        rw [hfound] at hsides
        cases hsides.2
    | cons c rest =>
        have hc := hsame c.exchange
        rw [MergeConflict.exchange_exchange, hsides.1, hfound] at hc
        cases hc.mpr List.mem_cons_self

end Repointed

end Symmetric

end RcpGraph
