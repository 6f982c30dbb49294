import RcpGraph.Lib.Steps
import RcpGraph.Merge.Changes
import RcpGraph.Merge.Resolve
import RcpGraph.Graph.Endpoints

/-!
What an answered plan selects is coherent. In a plan whose node removals own the edges at
their nodes, only the answers of two incident-edge conflicts can leave an edge without its
nodes: while the answers are unanimous, nothing dangles. A plan that comes straight from a
comparison, with no earlier review in it, is such a plan.
-/

namespace RcpGraph

open Overwrite

variable {rt : Runtime} (lib : FieldValidator rt)

/-- A plan whose conflicts and changes are those of one comparison. -/
structure Compared (plan : MergePlan rt) (base source destination : GraphState rt) : Prop where
  conflicts : plan.conflicts = (compareGraphs base source destination).2
  changes : ∀ c ∈ plan.directChanges ++ plan.reviewGroups.flatMap (·.changes),
    c ∈ (compareGraphs base source destination).1

section Writes

variable {lib} {context : MergePlanningContext rt} {answers : MergeAnswers}

/-- A value that a decision gives is one of the conflict's writes. -/
theorem decision_write {c : MergeConflict} {k : Coordinate} {value : MergeValue}
    (h : decision lib context answers c k = some (some value)) :
    ∃ ws, conflictWrites lib context answers c = .ok ws ∧ .set k value ∈ ws := by
  rw [decision] at h
  cases hws : conflictWrites lib context answers c with
  | error e =>
      rw [hws] at h
      cases h
  | ok ws =>
      rw [hws] at h
      obtain ⟨_, hoverlay, hk⟩ := exists_of_compose h
      obtain ⟨w, hw, rfl⟩ := List.mem_map.mp hoverlay
      refine ⟨ws, rfl, ?_⟩
      cases w with
      | set k' value' =>
          simp only [Write.overlay] at hk
          split at hk
          · rename_i hkk
            cases hk
            rwa [hkk]
          · cases hk
      | clearFields collection entityId | clear collection entityId =>
          simp only [Write.overlay] at hk
          split at hk <;> cases hk

theorem decision_isSome {c : MergeConflict} {ws : List Write} {k : Coordinate} {value : MergeValue}
    (hws : conflictWrites lib context answers c = .ok ws) (h : .set k value ∈ ws) :
    ∃ v, decision lib context answers c k = some v := by
  rw [decision_ok lib context answers hws]
  apply compose_isSome (List.mem_map_of_mem h)
  simp [Write.overlay]

/-- The writes of a field's conflict are about that field. -/
theorem field_writes {c : FieldConflict} {ws : List Write}
    (h : conflictWrites lib context answers (.field c) = .ok ws) {k : Coordinate}
    {value : MergeValue} (hk : .set k value ∈ ws) : k = c.coordinate := by
  rw [conflictWrites] at h
  split at h
  · cases h
  · rename_i answer _
    simp only at h
    cases hvalue : fieldValue lib context c answer with
    | error e =>
        rw [hvalue] at h
        cases h
    | ok v =>
        rw [hvalue] at h
        cases h
        have hset : k = c.coordinate ∧ value = v := by simpa using hk
        exact hset.1

theorem presence_writes {c : PresenceConflict} {ws : List Write}
    (h : conflictWrites lib context answers (.presence c) = .ok ws) :
    ∃ answer, ws = presenceWrites c.collection c.entityId c.branch c.destination c.removedOn answer := by
  rw [conflictWrites] at h
  split at h
  · cases h
  · simp only at h
    split at h
    · cases h
      exact ⟨_, rfl⟩
    · cases h

theorem incident_writes {c : IncidentEdgeConflict} {ws : List Write}
    (h : conflictWrites lib context answers (.incident c) = .ok ws) :
    ∃ answer, ws = presenceWrites .nodes c.nodeId c.branch c.destination c.removedOn answer ++
      c.incidentEdges.flatMap (incidentWrites c.removedOn answer) := by
  rw [conflictWrites] at h
  split at h
  · cases h
  · simp only at h
    split at h
    · cases h
      exact ⟨_, rfl⟩
    · cases h

theorem set_mem_presenceWrites {collection : Collection} {identity : String}
    {branch destination value : MergeValue} {removedOn : Side} {answer : PresenceAnswer}
    {k : Coordinate}
    (h : .set k value ∈ presenceWrites collection identity branch destination removedOn answer) :
    k = ⟨collection, some identity, none⟩ ∧
      (answer = .keepRemoval ∧ value = .missing ∨
        answer = .keepNode ∧ value = removedOn.survivor branch destination) := by
  cases answer <;> simpa [presenceWrites] using h

theorem set_mem_incidentWrites {removedOn : Side} {answer : PresenceAnswer} {edge : MergeChange}
    {k : Coordinate} {value : MergeValue}
    (h : .set k value ∈ incidentWrites removedOn answer edge) :
    (answer = .keepRemoval ∧ k = ⟨.edges, edge.entityId, none⟩ ∧ value = .missing) ∨
      (answer = .keepNode ∧ k = edge.coordinate ∧
        value = removedOn.survivor edge.branch edge.destination) := by
  cases answer <;> simpa [incidentWrites] using h

/-- The writes of a group are about its fields. -/
theorem group_writes {c : NodeGroupConflict} {item : FieldConflict → Option ConflictAnswer}
    {ws : List Write} (h : groupWrites lib context c item = .ok ws) {k : Coordinate}
    {value : MergeValue} (hk : .set k value ∈ ws) : ∃ field ∈ c.fields, k = field.coordinate := by
  rw [groupWrites] at h
  obtain ⟨field, hfield, hwrite⟩ := Steps.mem_of_mapM h _ hk
  refine ⟨field, hfield, ?_⟩
  split at hwrite
  · cases hwrite
  · split at hwrite
    · cases hwrite
    · rename_i answer _
      cases hvalue : fieldValue lib context field answer with
      | error e =>
          rw [hvalue] at hwrite
          cases hwrite
      | ok v =>
          rw [hvalue] at hwrite
          cases hwrite
          rfl

theorem nodeGroup_writes {c : NodeGroupConflict} {ws : List Write}
    (h : conflictWrites lib context answers (.nodeGroup c) = .ok ws) :
    ∃ item, groupWrites lib context c item = .ok ws := by
  rw [conflictWrites] at h
  split at h
  · cases h
  · simp only at h
    split at h
    · cases h
    · exact ⟨_, h⟩
    · split at h
      · cases h
      · split at h
        · exact ⟨_, h⟩
        · cases h

/-- What a conflict's answer selects, the conflict offers. -/
theorem offers_of_decision {c : MergeConflict} {k : Coordinate} {value : MergeValue}
    (h : decision lib context answers c k = some (some value)) : c.Offers k value := by
  obtain ⟨ws, hws, hset⟩ := decision_write h
  cases c with
  | field c => exact field_writes hws hset
  | nodeGroup c =>
      obtain ⟨item, hitem⟩ := nodeGroup_writes hws
      exact group_writes hitem hset
  | presence c =>
      obtain ⟨answer, rfl⟩ := presence_writes hws
      obtain ⟨hk, hvalue⟩ := set_mem_presenceWrites hset
      exact ⟨hk, hvalue.imp And.right And.right⟩
  | incident c =>
      obtain ⟨answer, rfl⟩ := incident_writes hws
      rcases List.mem_append.mp hset with hset | hset
      · obtain ⟨hk, hvalue⟩ := set_mem_presenceWrites hset
        exact .inl ⟨hk, hvalue.imp And.right And.right⟩
      · obtain ⟨edge, hedge, hset⟩ := List.mem_flatMap.mp hset
        exact .inr ⟨edge, hedge, (set_mem_incidentWrites hset).imp And.right And.right⟩

end Writes

section Compared

variable {base source destination : GraphState rt}

/-- The side that alone removed an entity of the base. -/
def removedSide (base source destination : GraphState rt) (collection : Collection) (id : String) :
    Option Side :=
  removedOn? ((base.entities collection).get? id) ((source.entities collection).get? id)
    ((destination.entities collection).get? id)

theorem found_cases {c : MergeConflict} (h : c ∈ foundConflicts base source destination) :
    (∃ f, c = .field f) ∨
      ∃ collection id side, removedSide base source destination collection id = some side ∧
        c ∈ (compareRemoval base source destination collection id
          (valueOf ((base.entities collection).get? id))
          (valueOf ((source.entities collection).get? id))
          (valueOf ((destination.entities collection).get? id)) side).2 := by
  rw [mem_foundConflicts] at h
  rcases h with ⟨collection, -, id, hc⟩ | ⟨collection, -, hc⟩
  · rw [mem_compareEntity] at hc
    rcases hc with ⟨side, hside, hc⟩ | ⟨-, -, name, hc⟩
    · exact .inr ⟨collection, id, side, hside, hc⟩
    · rw [mem_compareField] at hc
      exact .inl ⟨_, hc.2.2.2⟩
  · rw [compareGlobal, mem_compareField] at hc
    exact .inl ⟨_, hc.2.2.2⟩

theorem survivor_valueOf (side : Side) (collection : Collection) (id : String) :
    side.survivor (valueOf ((source.entities collection).get? id))
        (valueOf ((destination.entities collection).get? id)) =
      valueOf (((side.survivor source destination).entities collection).get? id) := by
  cases side <;> rfl

theorem removedSide_survivor {collection : Collection} {id : String} {side : Side}
    (h : removedSide base source destination collection id = some side) :
    id ∈ base.entities collection ∧ id ∈ (side.survivor source destination).entities collection ∧
      id ∉ (side.other.survivor source destination).entities collection := by
  rw [removedSide] at h
  cases side with
  | branch =>
      rw [removedOn?_branch, ← Dict.mem_iff_isSome, ← Dict.not_mem_iff, ← Dict.mem_iff_isSome] at h
      exact ⟨h.1, h.2.2, h.2.1⟩
  | destination =>
      rw [removedOn?_destination, ← Dict.mem_iff_isSome, ← Dict.not_mem_iff,
        ← Dict.mem_iff_isSome] at h
      exact ⟨h.1, h.2.1, h.2.2⟩

/-- A node whose removal a conflict offers was removed on one side. -/
theorem removed_of_offers {c : MergeConflict} (hc : c ∈ foundConflicts base source destination)
    {n : String} {value : MergeValue} (h : c.Offers ⟨.nodes, some n, none⟩ value) :
    ∃ side, removedSide base source destination .nodes n = some side := by
  rcases found_cases hc with ⟨f, rfl⟩ | ⟨collection, id, side, hside, hmem⟩
  · cases congrArg Coordinate.fieldName h
  · rw [mem_compareRemoval] at hmem
    rcases hmem with ⟨rfl, -, rfl⟩ | ⟨-, -, rfl⟩
    · rcases h with ⟨hk, -⟩ | ⟨edge, hedge, hk⟩
      · cases hk
        exact ⟨side, hside⟩
      · obtain ⟨e, -, rfl⟩ := List.mem_map.mp hedge
        rcases hk with ⟨hk, -⟩ | ⟨hk, -⟩ <;> cases hk
    · obtain ⟨hk, -⟩ := h
      cases hk
      exact ⟨side, hside⟩

/-- A side holds the edge in this form, and the base does not. -/
def EdgeEdited (base graph : GraphState rt) (id : String) (document : Json) : Prop :=
  ∃ e, graph.edges.get? id = some e ∧ document = .obj (Semantic.edge e) ∧
    (edgeValue base id).same (valueOf (some (.ofEdge e))) = false

theorem edgeEdited_of_value {graph : GraphState rt} {id : String} {document : Json}
    (hvalue : valueOf ((graph.entities .edges).get? id) = .present document)
    (hdiffers : (valueOf ((graph.entities .edges).get? id)).same (edgeValue base id) = false) :
    EdgeEdited base graph id document := by
  rw [get?_edges] at hvalue hdiffers
  cases he : graph.edges.get? id with
  | none =>
      rw [he] at hvalue
      cases hvalue
  | some e =>
      rw [he, Option.map_some] at hvalue hdiffers
      rw [MergeValue.same_comm] at hdiffers
      cases hvalue
      exact ⟨e, he, rfl, hdiffers⟩

/-- An edge that a conflict offers is an edit of one side. -/
theorem edited_of_offers {c : MergeConflict} (hc : c ∈ foundConflicts base source destination)
    {id : String} {document : Json} (h : c.Offers ⟨.edges, some id, none⟩ (.present document)) :
    ∃ side : Side, EdgeEdited base (side.survivor source destination) id document := by
  rcases found_cases hc with ⟨f, rfl⟩ | ⟨collection, id', side, hside, hmem⟩
  · cases congrArg Coordinate.fieldName h
  · rw [mem_compareRemoval] at hmem
    rcases hmem with ⟨rfl, -, rfl⟩ | ⟨-, hdiffers, rfl⟩
    · rcases h with ⟨hk, -⟩ | ⟨edge, hedge, ⟨-, hvalue⟩ | ⟨hk, hvalue⟩⟩
      · cases hk
      · cases hvalue
      · obtain ⟨e, he, rfl⟩ := List.mem_map.mp hedge
        cases hk
        refine ⟨side, ?_⟩
        obtain ⟨e, hget, -, hdiffers⟩ := (mem_competingEdges _ _ _ _).mp he
        refine ⟨e, hget, ?_, hdiffers⟩
        have hsurvivor : MergeValue.present document =
            valueOf (((side.survivor source destination).entities .edges).get? id) :=
          hvalue.trans (survivor_valueOf side .edges id)
        rw [get?_edges, hget] at hsurvivor
        cases hsurvivor
        rfl
    · obtain ⟨hk, hvalue | hvalue⟩ := h
      · cases hvalue
      · cases hk
        rw [survivor_valueOf] at hvalue hdiffers
        exact ⟨side, edgeEdited_of_value hvalue.symm hdiffers⟩

theorem isSome_of_missing_differs {e : Option Entity}
    (h : MergeValue.missing.same (valueOf e) = false) : e.isSome = true := by
  cases e with
  | none => cases h
  | some e => rfl

/-- A change of a whole entity brings what the source has of it. -/
theorem whole_change {c : MergeChange} (h : c ∈ (compareGraphs base source destination).1)
    {collection : Collection} {id : String} (hc : c.coordinate = ⟨collection, some id, none⟩) :
    c.branch = valueOf ((source.entities collection).get? id) ∧
      (collection ≠ .nodes →
        c.branch.same (valueOf ((base.entities collection).get? id)) = false) ∧
      (c.branch = .missing → removedSide base source destination collection id = some .branch) := by
  rcases ((mem_compareGraphs_changes _ _ _ _).mp h).2 with
    ⟨collection', -, id', hmem⟩ | ⟨collection', -, hmem⟩
  · obtain ⟨fieldName, -, rfl, hmoves⟩ := (mem_compareEntity_changes _ _ _ _ _ _).mp hmem
    cases hc
    refine ⟨rfl, fun hnodes => ?_, fun hmissing => ?_⟩
    · rcases hmoves with hmoves | ⟨-, hnodes', -⟩
      · exact hmoves.1
      · exact absurd hnodes' hnodes
    · change valueOf ((source.entities collection').get? id) = .missing at hmissing
      have hnew : (source.entities collection').get? id = none := by
        cases hnew : (source.entities collection').get? id with
        | none => rfl
        | some e =>
            rw [hnew] at hmissing
            cases hmissing
      rcases hmoves with ⟨hbase, hdestination⟩ | ⟨-, rfl, side, hside, -⟩
      · simp only [entityChange, changeAt, GraphState.valueAt, hmissing] at hbase hdestination
        rw [removedSide, removedOn?_branch]
        exact ⟨isSome_of_missing_differs hbase, hnew, isSome_of_missing_differs hdestination⟩
      · cases side with
        | branch => exact hside
        | destination =>
            rw [hnew] at hside
            cases (removedOn?_destination.mp hside).2.1
  · rw [((mem_compareField_changes _ _ _ _ _ _ _).mp hmem).2.2] at hc
    cases hc

end Compared

section Guards

variable {lib} {plan : MergePlan rt} {answers : MergeAnswers}

theorem planned_change {k : Coordinate} {value : MergeValue} (h : plan.planned.get? k = some value) :
    ∃ c ∈ plan.directChanges ++ plan.reviewGroups.flatMap (·.changes),
      c.coordinate = k ∧ c.branch = value := by
  obtain ⟨c, hc, hpair⟩ := List.mem_map.mp (Dict.mem_of_get?_ofList _ _ _ h)
  cases hpair
  exact ⟨c, hc, rfl, rfl⟩

theorem offers_of_brings {k : Coordinate} {value : MergeValue} (h : Brings lib plan answers k value) :
    plan.Offers k value := by
  rcases h with ⟨c, hc, hvalue⟩ | ⟨-, hvalue⟩
  · exact .inr ⟨c, hc, offers_of_decision hvalue⟩
  · exact .inl (planned_change hvalue)

/-- What an owner writes about its node and its edges. -/
theorem owner_writes {c : IncidentEdgeConflict} {n id : String} (howns : c.Owns n id)
    {answer : PresenceAnswer} {k : Coordinate} {value : MergeValue}
    (h : .set k value ∈
      presenceWrites .nodes c.nodeId c.branch c.destination c.removedOn answer ++
        c.incidentEdges.flatMap (incidentWrites c.removedOn answer)) :
    (k.collection = .nodes → value = .missing → answer = .keepRemoval) ∧
      (k.collection = .edges → answer = .keepRemoval → value = .missing) := by
  rcases List.mem_append.mp h with hset | hset
  · obtain ⟨rfl, hvalue⟩ := set_mem_presenceWrites hset
    refine ⟨?_, fun hedges => by cases hedges⟩
    rintro - rfl
    rcases hvalue with ⟨hanswer, -⟩ | ⟨-, hmissing⟩
    · exact hanswer
    · have hpresent := howns.survives
      rw [← hmissing] at hpresent
      cases hpresent
  · obtain ⟨edge, hedge, hset⟩ := List.mem_flatMap.mp hset
    rcases set_mem_incidentWrites hset with ⟨hanswer, rfl, hvalue⟩ | ⟨rfl, rfl, -⟩
    · exact ⟨fun _ _ => hanswer, fun _ _ => hvalue⟩
    · refine ⟨fun hnodes => ?_, fun _ hanswer => by cases hanswer⟩
      rw [MergeChange.coordinate, (howns.edges edge hedge).1] at hnodes
      cases hnodes

/-- Of an edge and its node that one conflict owns, unanimous answers do not bring the edge
and the node's removal: the owner settles both, and settles them the same way. -/
theorem IncidentEdgeConflict.Owns.not_brings {c : IncidentEdgeConflict} {n id : String}
    (howns : c.Owns n id) (hc : .incident c ∈ plan.conflicts)
    (hallowed : Allowed lib plan.toMergePlanningContext answers (.incident c))
    (hagree : ∀ c' ∈ plan.conflicts,
      Agree (decision lib plan.toMergePlanningContext answers (.incident c))
        (decision lib plan.toMergePlanningContext answers c'))
    {document : Json} (hedge : Brings lib plan answers ⟨.edges, some id, none⟩ (.present document)) :
    ¬Brings lib plan answers ⟨.nodes, some n, none⟩ .missing := by
  intro hnode
  obtain ⟨ws, hws⟩ := hallowed
  obtain ⟨answer, rfl⟩ := incident_writes hws
  -- what the owner writes at a coordinate is what is brought there
  have hsettled : ∀ {k : Coordinate} {value written : MergeValue},
      Brings lib plan answers k value → .set k written ∈
        presenceWrites .nodes c.nodeId c.branch c.destination c.removedOn answer ++
          c.incidentEdges.flatMap (incidentWrites c.removedOn answer) →
      .set k value ∈ presenceWrites .nodes c.nodeId c.branch c.destination c.removedOn answer ++
        c.incidentEdges.flatMap (incidentWrites c.removedOn answer) := by
    intro k value written hbrings hwritten
    obtain ⟨v, hv⟩ := decision_isSome hws hwritten
    rcases hbrings with ⟨c', hc', hvalue⟩ | ⟨hsilent, -⟩
    · rw [hagree c' hc' _ _ _ hv hvalue] at hv
      obtain ⟨ws, hws', hset⟩ := decision_write hv
      rw [hws] at hws'
      cases hws'
      exact hset
    · rw [hsilent _ hc] at hv
      cases hv
  have hdecides : ∃ written, .set ⟨.nodes, some n, none⟩ written ∈
      presenceWrites .nodes c.nodeId c.branch c.destination c.removedOn answer ++
        c.incidentEdges.flatMap (incidentWrites c.removedOn answer) := by
    rw [← howns.node]
    exact ⟨_, List.mem_append_left _ List.mem_cons_self⟩
  obtain ⟨written, hwritten⟩ := hdecides
  have hremoved : answer = .keepRemoval :=
    (owner_writes howns (hsettled hnode hwritten)).1 rfl rfl
  obtain ⟨edge, hmem, hid⟩ := howns.edge
  have howned : .set ⟨.edges, some id, none⟩ .missing ∈
      presenceWrites .nodes c.nodeId c.branch c.destination c.removedOn answer ++
        c.incidentEdges.flatMap (incidentWrites c.removedOn answer) := by
    refine List.mem_append_right _ (List.mem_flatMap.mpr ⟨edge, hmem, ?_⟩)
    rw [hremoved, ← hid]
    exact List.mem_cons_of_mem _ List.mem_cons_self
  cases (owner_writes howns (hsettled hedge howned)).2 rfl hremoved

/-- In a guarded plan nothing is left to the answers. -/
theorem MergePlan.Guarded.keepsApart (hguarded : plan.Guarded) : KeepsApart lib plan answers := by
  intro id document nodeId hedge hends hnode hunowned
  obtain ⟨c, hc, howns⟩ := hguarded id document nodeId hedge hends hnode
  exact absurd howns (hunowned c hc)

/-- Unanimous answers leave no edge without its nodes exactly when they keep apart what no
conflict owns. -/
theorem edgesEndAtNodes_iff {selected : Dict Coordinate MergeValue}
    (h : resolvedChanges lib plan answers = .ok selected)
    (hunanimous : Unanimous lib plan answers) :
    EdgesEndAtNodes selected ↔ KeepsApart lib plan answers := by
  have hselected := selected_iff lib h hunanimous
  constructor
  · intro hends id document nodeId _ hat _ _ hedge hnode
    exact hends id document nodeId ((hselected _ _).mpr hedge) hat ((hselected _ _).mpr hnode)
  · intro hapart id document nodeId hedge hat hnode
    rw [hselected] at hedge hnode
    obtain ⟨-, hallowed, -⟩ := resolvedChanges_ok lib h
    have hagree : ∀ c ∈ plan.conflicts, ∀ c' ∈ plan.conflicts,
        Agree (decision lib plan.toMergePlanningContext answers c)
          (decision lib plan.toMergePlanningContext answers c') := by
      intro c hc c' hc'
      refine List.Pairwise.forall_of_forall_of_flip (fun c _ k v w hv hw => ?_) hunanimous
        (hunanimous.imp fun h => h.symm) hc hc'
      exact Option.some_inj.mp (hv.symm.trans hw)
    refine hapart id document nodeId (offers_of_brings hedge) hat (offers_of_brings hnode) ?_
      hedge hnode
    intro c hc howns
    exact howns.not_brings hc (hallowed _ hc) (hagree _ hc) hedge hnode

/-- A resolved selection is independent of the order of the conflicts exactly when the
answers are unanimous, and leaves then no edge without its nodes exactly when they keep apart
what no conflict owns. In a guarded plan there is nothing of that kind. -/
theorem resolvedChanges_coherent_iff {selected : Dict Coordinate MergeValue}
    (h : resolvedChanges lib plan answers = .ok selected) :
    (OrderFree lib plan answers selected ↔ Unanimous lib plan answers) ∧
      (OrderFree lib plan answers selected ∧ EdgesEndAtNodes selected ↔
        Unanimous lib plan answers ∧ KeepsApart lib plan answers) ∧
      (plan.Guarded → (OrderFree lib plan answers selected ∧ EdgesEndAtNodes selected ↔
        Unanimous lib plan answers)) := by
  have hfree := orderFree_iff lib h
  have hcoherent : OrderFree lib plan answers selected ∧ EdgesEndAtNodes selected ↔
      Unanimous lib plan answers ∧ KeepsApart lib plan answers := by
    rw [hfree]
    exact and_congr_right fun hunanimous => edgesEndAtNodes_iff h hunanimous
  refine ⟨hfree, hcoherent, fun hguarded => ?_⟩
  rw [hcoherent]
  exact and_iff_left hguarded.keepsApart

end Guards

section Comparisons

variable {lib} {plan : MergePlan rt} {answers : MergeAnswers} {base source destination : GraphState rt}

theorem Compared.found (hplan : Compared plan base source destination) {c : MergeConflict}
    (hc : c ∈ plan.conflicts) : c ∈ foundConflicts base source destination := by
  rw [hplan.conflicts] at hc
  exact ((mem_compareGraphs _ _ _ _).mp hc).1

/-- A node whose removal the plan offers was removed on one side. -/
theorem Compared.removed (hplan : Compared plan base source destination) {n : String}
    (h : plan.Offers ⟨.nodes, some n, none⟩ .missing) :
    ∃ side, removedSide base source destination .nodes n = some side := by
  rcases h with ⟨c, hc, hk, hbranch⟩ | ⟨c, hc, hvalue⟩
  · exact ⟨.branch, (whole_change (hplan.changes c hc) hk).2.2 hbranch⟩
  · exact removed_of_offers (hplan.found hc) hvalue

/-- An edge that the plan offers is an edit of one side. -/
theorem Compared.edited (hplan : Compared plan base source destination) {id : String}
    {document : Json} (h : plan.Offers ⟨.edges, some id, none⟩ (.present document)) :
    ∃ side : Side, EdgeEdited base (side.survivor source destination) id document := by
  rcases h with ⟨c, hc, hk, hbranch⟩ | ⟨c, hc, hvalue⟩
  · obtain ⟨hsource, hdiffers, -⟩ := whole_change (hplan.changes c hc) hk
    refine ⟨.destination, edgeEdited_of_value (hsource.symm.trans hbranch) ?_⟩
    have hedited := hdiffers (by decide)
    rw [hsource] at hedited
    exact hedited
  · exact edited_of_offers (hplan.found hc) hvalue

/-- The conflict of a removed node owns every edit of the surviving side that touches it. -/
theorem Compared.owner (hplan : Compared plan base source destination) {n id : String}
    {side : Side} (hside : removedSide base source destination .nodes n = some side)
    (hid : id ∈ competingEdges n base (side.survivor source destination)) :
    ∃ c, .incident c ∈ plan.conflicts ∧ c.Owns n id := by
  have hne : incidentChanges n base source destination side ≠ [] := by
    intro hnil
    rw [incidentChanges, List.map_eq_nil_iff] at hnil
    rw [hnil] at hid
    cases hid
  refine ⟨⟨coordinateKey rt .nodes (some n) none, n, valueOf ((base.entities .nodes).get? n),
    valueOf ((source.entities .nodes).get? n), valueOf ((destination.entities .nodes).get? n), side,
    incidentChanges n base source destination side⟩, ?_, rfl, ?_, ?_, ?_⟩
  · rw [hplan.conflicts, mem_compareGraphs, mem_foundConflicts]
    refine ⟨.inl ⟨.nodes, by decide, n, ?_⟩, rfl⟩
    rw [mem_compareEntity]
    refine .inl ⟨side, hside, ?_⟩
    rw [mem_compareRemoval]
    exact .inl ⟨rfl, hne, rfl⟩
  · simp only [survivor_valueOf]
    obtain ⟨e, he⟩ := (Dict.mem_iff_exists _ _).mp (removedSide_survivor hside).2.1
    rw [he]
    rfl
  · intro edge hedge
    obtain ⟨_, -, rfl⟩ := List.mem_map.mp hedge
    exact ⟨rfl, rfl⟩
  · exact ⟨_, List.mem_map_of_mem hid, rfl⟩

theorem endsAt_edge {e : Edge} {n : String} (h : EndsAt (.obj (Semantic.edge e)) n) :
    e.endsAt n = true := by
  obtain ⟨fields, hfields, hends⟩ := h
  cases hfields
  rw [endsAt_iff]
  rcases hends with hends | hends
  · exact .inl (by simpa [Semantic.edge, Assoc.find, eq_comm] using hends)
  · exact .inr (by simpa [Semantic.edge, Assoc.find, eq_comm] using hends)

/-- A comparison gives guarded plans: an edge that it offers is an edit of a side that has the
node, and the other side is the one that removed it. -/
theorem Compared.guarded (hplan : Compared plan base source destination)
    (hsource : source.NoDangling) (hdestination : destination.NoDangling) : plan.Guarded := by
  intro id document n hedge hends hnode
  obtain ⟨side, hside⟩ := hplan.removed hnode
  obtain ⟨side', e, he, rfl, hdiffers⟩ := hplan.edited hedge
  have hn : e.endsAt n = true := endsAt_edge hends
  have hkept : n ∈ (side'.survivor source destination).nodes := by
    have hends' : e.source ∈ (side'.survivor source destination).nodes ∧
        e.target ∈ (side'.survivor source destination).nodes := by
      cases side' with
      | branch => exact hdestination id e he
      | destination => exact hsource id e he
    rcases (endsAt_iff e n).mp hn with rfl | rfl
    · exact hends'.1
    · exact hends'.2
  have hsame : side' = side := by
    by_contra hne
    have hother : side' = side.other := by cases side <;> cases side' <;> simp_all [Side.other]
    have hgone := (removedSide_survivor hside).2.2
    rw [GraphState.entities, Dict.mem_map, ← hother] at hgone
    exact hgone hkept
  subst hsame
  exact hplan.owner hside ((mem_competingEdges base n (side'.survivor source destination) id).mpr
    ⟨e, he, hn, hdiffers⟩)

/-- For a plan that comes straight from a comparison, unanimous answers are all it takes. -/
theorem compared_coherent_iff (hplan : Compared plan base source destination)
    (hsource : source.NoDangling) (hdestination : destination.NoDangling)
    {selected : Dict Coordinate MergeValue}
    (h : resolvedChanges lib plan answers = .ok selected) :
    OrderFree lib plan answers selected ∧ EdgesEndAtNodes selected ↔
      Unanimous lib plan answers := by
  have hguarded := hplan.guarded hsource hdestination
  have hfree := orderFree_iff lib h
  constructor
  · intro hcoherent
    exact hfree.mp hcoherent.1
  · intro hunanimous
    exact ⟨hfree.mpr hunanimous, (edgesEndAtNodes_iff h hunanimous).mpr hguarded.keepsApart⟩

end Comparisons

section Concrete

theorem compared_of_conflictedPlan {plan : MergePlan rt} {base source destination : GraphState rt}
    (h : conflictedPlan? base source destination = some plan) :
    Compared plan base source destination := by
  rw [conflictedPlan?] at h
  split at h
  · cases h
    exact ⟨rfl, fun c hc => absurd hc List.not_mem_nil⟩
  · cases h

/-- A comparison of graphs without dangling edges that allows the opposite answers. -/
theorem reached_oppositePlan :
    ∃ base one other : GraphState .plain,
      applyValidPatch (.initial .plain ["repo"]) filedPair = .ok base ∧
      applyValidPatch (base.record []) removedPair = .ok one ∧
      applyValidPatch (base.record []) relatedPair = .ok other ∧
      (one.NoDangling ∧ other.NoDangling) ∧
      ((conflictedPlan? (base.record []) one other).any fun plan =>
        (resolvedChanges .lenient plan oppositeAnswers).toOption.isSome) = true := by
  refine ⟨_, _, _, rfl, rfl, rfl, by decide +kernel, by decide +kernel⟩

theorem resolvedChanges_coherent_iff_pair :
    ∃ (plan : MergePlan .plain) (selected : Dict Coordinate MergeValue),
      resolvedChanges .lenient plan oppositeAnswers = .ok selected ∧ plan.Guarded ∧
      (OrderFree .lenient plan oppositeAnswers selected ∧ EdgesEndAtNodes selected ↔
        Unanimous .lenient plan oppositeAnswers) := by
  obtain ⟨base, one, other, -, -, -, ⟨hone, hother⟩, hrun⟩ := reached_oppositePlan
  obtain ⟨plan, hplan, hrun⟩ := (Option.any_eq_true _ _).mp hrun
  obtain ⟨selected, hselected⟩ := Option.isSome_iff_exists.mp hrun
  have hok := (toOption_eq_some _ _).mp hselected
  have hguarded := (compared_of_conflictedPlan hplan).guarded hone hother
  exact ⟨plan, selected, hok, hguarded, (resolvedChanges_coherent_iff hok).2.2 hguarded⟩

theorem compared_coherent_iff_pair :
    ∃ (plan : MergePlan .plain) (base source destination : GraphState .plain)
      (selected : Dict Coordinate MergeValue),
      Compared plan base source destination ∧
      resolvedChanges .lenient plan oppositeAnswers = .ok selected ∧
      (OrderFree .lenient plan oppositeAnswers selected ∧ EdgesEndAtNodes selected ↔
        Unanimous .lenient plan oppositeAnswers) := by
  obtain ⟨base, one, other, -, -, -, ⟨hone, hother⟩, hrun⟩ := reached_oppositePlan
  obtain ⟨plan, hplan, hrun⟩ := (Option.any_eq_true _ _).mp hrun
  obtain ⟨selected, hselected⟩ := Option.isSome_iff_exists.mp hrun
  have hok := (toOption_eq_some _ _).mp hselected
  have hcompared := compared_of_conflictedPlan hplan
  exact ⟨plan, base.record [], one, other, selected, hcompared, hok,
    compared_coherent_iff hcompared hone hother hok⟩

end Concrete

end RcpGraph
