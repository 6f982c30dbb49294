import RcpGraph.Merge.Compare

/-!
What a comparison brings. A value that the branch moved away from both other graphs comes up in
a change, unless it is an edge that goes with a node; a graph that nobody moved brings nothing.
-/

namespace RcpGraph

variable {rt : Runtime} (base branch destination : GraphState rt)

/-- The value of an entity, or of one field of it. -/
def GraphState.valueAt (s : GraphState rt) (collection : Collection) (identity : String) :
    Option String → MergeValue
  | none => valueOf ((s.entities collection).get? identity)
  | some name => fieldOf ((s.entities collection).get? identity) name

/-- An entity that both sides have is compared by field, any other as a whole. -/
def ComparedBy (collection : Collection) (identity : String) : Option String → Prop
  | none =>
      (branch.entities collection).get? identity = none ∨
        (destination.entities collection).get? identity = none
  | some _ =>
      ((branch.entities collection).get? identity).isSome = true ∧
        ((destination.entities collection).get? identity).isSome = true

/-- The change that a coordinate of an entity would have. -/
def entityChange (collection : Collection) (identity : String) (fieldName : Option String) :
    MergeChange :=
  changeAt rt collection (some identity) fieldName (base.valueAt collection identity fieldName)
    (branch.valueAt collection identity fieldName)
    (destination.valueAt collection identity fieldName)

/-- The change that a global collection would have. -/
def globalChange (collection : Collection) : MergeChange :=
  changeAt rt collection none none (.present (base.globalValue collection))
    (.present (branch.globalValue collection)) (.present (destination.globalValue collection))

/-- The branch has neither the value of the base nor that of the destination. -/
def MergeChange.Moves (c : MergeChange) : Prop :=
  c.branch.same c.base = false ∧ c.branch.same c.destination = false

/-- One side removed the node, and the other gave it edges that the base does not have so. -/
def ContestedRemoval (identity : String) : Prop :=
  ∃ side, removedOn? ((base.entities .nodes).get? identity)
      ((branch.entities .nodes).get? identity) ((destination.entities .nodes).get? identity) =
        some side ∧
    incidentChanges identity base branch destination side ≠ []

section Found

theorem MergeValue.same_refl (a : MergeValue) : a.same a = true := (a.same_iff a).mpr rfl

theorem mem_compareField_changes (collection : Collection) (entityId fieldName : Option String)
    (b s d : MergeValue) (c : MergeChange) :
    c ∈ (compareField rt collection entityId fieldName b s d).1 ↔
      s.same b = false ∧ s.same d = false ∧
        c = changeAt rt collection entityId fieldName b s d := by
  unfold compareField
  cases s.same b <;> cases s.same d <;> simp

theorem mem_compareRemoval_changes (collection : Collection) (identity : String)
    (b s d : MergeValue) (side : Side) (c : MergeChange) :
    c ∈ (compareRemoval base branch destination collection identity b s d side).1 ↔
      (s.same b = false ∨
        collection = .nodes ∧ incidentChanges identity base branch destination side ≠ []) ∧
      c = changeAt rt collection (some identity) none b s d := by
  rw [compareRemoval]
  by_cases hnodes : collection = .nodes
  · by_cases hincident : incidentChanges identity base branch destination side = [] <;>
      cases s.same b <;> simp [hnodes, hincident]
  · cases s.same b <;> simp [hnodes]

/-- The changes of an entity are those of its coordinates. -/
theorem mem_compareEntity_changes (collection : Collection) (identity : String) (c : MergeChange) :
    c ∈ (compareEntity base branch destination collection identity).1 ↔
      ∃ fieldName, ComparedBy branch destination collection identity fieldName ∧
        c = entityChange base branch destination collection identity fieldName ∧
        ((entityChange base branch destination collection identity fieldName).Moves ∨
          fieldName = none ∧ collection = .nodes ∧
            ContestedRemoval base branch destination identity) := by
  have hbase := fieldOf_same branch base collection identity identity
  have hsides := fieldOf_same branch destination collection identity identity
  have hcontested : collection = .nodes → (ContestedRemoval base branch destination identity ↔
      ∃ side, removedOn? ((base.entities collection).get? identity)
          ((branch.entities collection).get? identity)
          ((destination.entities collection).get? identity) = some side ∧
        incidentChanges identity base branch destination side ≠ []) := by
    rintro rfl
    exact Iff.rfl
  rw [and_congr_right_iff.mpr hcontested, compareEntity]
  simp only [Option.exists, ComparedBy, entityChange, GraphState.valueAt, MergeChange.Moves,
    changeAt, true_and, reduceCtorEq, false_and, or_false]
  generalize (base.entities collection).get? identity = old at hbase ⊢
  generalize (branch.entities collection).get? identity = new at hbase hsides ⊢
  generalize (destination.entities collection).get? identity = current at hsides ⊢
  cases new with
  | none =>
      cases current with
      | none => simp [removedOn?, MergeValue.same_refl]
      | some m =>
          have hgone : (valueOf none).same (valueOf (some m)) = false := rfl
          cases old with
          | none => simp [removedOn?, MergeValue.same_refl]
          | some o =>
              rw [if_pos ⟨rfl, Bool.noConfusion⟩, mem_compareRemoval_changes]
              simp [removedOn?, hgone, changeAt, and_comm]
  | some n =>
      cases current with
      | none =>
          have hgone : (valueOf (some n)).same (valueOf none) = false := rfl
          cases old with
          | none => simp [removedOn?, hgone]
          | some o =>
              rw [if_pos ⟨rfl, Bool.noConfusion⟩, mem_compareRemoval_changes]
              simp [removedOn?, hgone, changeAt, and_comm]
      | some m =>
          rw [if_neg (by simp)]
          simp only [reduceCtorEq, or_self, false_and, false_or, Option.isSome_some, true_and]
          cases hb : (valueOf (some n)).same (valueOf old) with
          | true => simp [hbase hb]
          | false =>
              cases hd : (valueOf (some n)).same (valueOf (some m)) with
              | true => simp [hsides hd]
              | false =>
                  rw [Bool.or_false, if_neg Bool.noConfusion, Option.isNone_some,
                    Option.isNone_some, Bool.or_false, if_neg Bool.noConfusion]
                  simp only [List.mem_flatMap, List.mem_map]
                  constructor
                  · rintro ⟨_, ⟨name, -, rfl⟩, hc⟩
                    obtain ⟨hfrom, hto, rfl⟩ := (mem_compareField_changes _ _ _ _ _ _ _).mp hc
                    exact ⟨name, rfl, hfrom, hto⟩
                  · rintro ⟨name, rfl, hfrom, hto⟩
                    refine ⟨_, ⟨name, ?_, rfl⟩,
                      (mem_compareField_changes _ _ _ _ _ _ _).mpr ⟨hfrom, hto, rfl⟩⟩
                    by_contra hname
                    have hmissing := fieldOf_missing _ name hname
                    rw [hmissing old (by simp), hmissing (some n) (by simp)] at hfrom
                    cases hfrom

theorem mem_compareGraphs_changes (c : MergeChange) :
    c ∈ (compareGraphs base branch destination).1 ↔
      c.about (incidentEdgeIds base branch destination) = false ∧
      ((∃ collection ∈ entityCollections, ∃ identity,
        c ∈ (compareEntity base branch destination collection identity).1) ∨
      ∃ collection ∈ globalCollections,
        c ∈ (compareGlobal base branch destination collection).1) := by
  rw [compareGraphs, List.mem_filter, Bool.not_eq_true', and_comm]
  refine and_congr_right fun _ => ?_
  simp only [comparisons, List.flatMap_append, List.mem_append, List.mem_flatMap, List.mem_map]
  constructor
  · rintro (⟨_, ⟨collection, hcollection, identity, -, rfl⟩, hc⟩ | ⟨_, ⟨collection, hcollection, rfl⟩, hc⟩)
    · exact .inl ⟨collection, hcollection, identity, hc⟩
    · exact .inr ⟨collection, hcollection, hc⟩
  · rintro (⟨collection, hcollection, identity, hc⟩ | ⟨collection, hcollection, hc⟩)
    · refine .inl ⟨_, ⟨collection, hcollection, identity, ?_, rfl⟩, hc⟩
      rw [mem_identities]
      by_contra hnone
      simp only [not_or, Dict.not_mem_iff] at hnone
      simp [compareEntity, hnone.1, hnone.2.1, hnone.2.2, MergeValue.same_refl] at hc
    · exact .inr ⟨_, ⟨collection, hcollection, rfl⟩, hc⟩

/-- A contested removal is an incident-edge conflict of the comparison. -/
theorem incident_reported {identity : String} {side : Side}
    (hside : removedOn? ((base.entities .nodes).get? identity)
      ((branch.entities .nodes).get? identity) ((destination.entities .nodes).get? identity) =
        some side)
    (hincident : incidentChanges identity base branch destination side ≠ []) :
    ∃ k, .incident k ∈ (compareGraphs base branch destination).2 ∧ k.nodeId = identity ∧
      k.removedOn = side ∧ k.conflictId = coordinateKey rt .nodes (some identity) none :=
  ⟨_, (mem_compareGraphs _ _ _ _).mpr ⟨(mem_foundConflicts _ _ _ _).mpr (.inl ⟨.nodes,
    by decide, identity, (mem_compareEntity _ _ _ _ _ _).mpr (.inl ⟨side, hside,
      (mem_compareRemoval _ _ _ _ _ _ _ _ _ _).mpr (.inl ⟨rfl, hincident, rfl⟩)⟩)⟩), rfl⟩,
    rfl, rfl, rfl⟩

theorem missing_differs {e e' : Option Entity} (h : e = none) (h' : e'.isSome = true) :
    (valueOf e).same (valueOf e') = false := by
  obtain ⟨x, rfl⟩ := Option.isSome_iff_exists.mp h'
  rw [h]
  rfl

theorem valueOf_ne_missing {e : Option Entity} (h : e.isSome = true) : valueOf e ≠ .missing := by
  obtain ⟨x, rfl⟩ := Option.isSome_iff_exists.mp h
  exact MergeValue.noConfusion

/-- An edge that the comparison leaves to a node was lost with it or is in its conflict. -/
theorem incidentEdge_left {id : String} (h : id ∈ incidentEdgeIds base branch destination) :
    id ∈ removedWithNode base branch ∨
      ∃ k ∈ (compareGraphs base branch destination).2, id ∈ k.ownedEdges := by
  rw [incidentEdgeIds, List.mem_append, List.mem_flatMap] at h
  refine h.imp_right ?_
  rintro ⟨k, hk, hid⟩
  refine ⟨k, (mem_compareGraphs _ _ _ _).mpr ⟨hk, ?_⟩, hid⟩
  cases k with
  | incident c => rfl
  | field c | presence c | nodeGroup c => cases hid

end Found

/-- The changes are exactly what the branch would bring: each value that it moved away from both
other graphs, but for edges that are left to a node, and each node that the destination removed
and the branch gave edges, with the conflict about them. -/
theorem compareGraphs_candidates :
    (∀ collection ∈ entityCollections, ∀ identity fieldName,
      ComparedBy branch destination collection identity fieldName →
      (entityChange base branch destination collection identity fieldName).Moves →
        entityChange base branch destination collection identity fieldName ∈
            (compareGraphs base branch destination).1 ∨
          collection = .edges ∧ (identity ∈ removedWithNode base branch ∨
            ∃ k ∈ (compareGraphs base branch destination).2, identity ∈ k.ownedEdges)) ∧
    (∀ collection ∈ globalCollections, (globalChange base branch destination collection).Moves →
      globalChange base branch destination collection ∈
        (compareGraphs base branch destination).1) ∧
    ∀ c ∈ (compareGraphs base branch destination).1,
      c.Moves ∨ c.collection = .nodes ∧ c.fieldName = none ∧ c.base ≠ .missing ∧
        c.destination = .missing ∧ ∃ k, .incident k ∈ (compareGraphs base branch destination).2 ∧
          some k.nodeId = c.entityId ∧ k.conflictId = c.changeId ∧ k.removedOn = .destination := by
  refine ⟨?_, ?_, ?_⟩
  · intro collection hcollection identity fieldName hcompared hmoves
    rw [mem_compareGraphs_changes]
    cases habout : (entityChange base branch destination collection identity fieldName).about
        (incidentEdgeIds base branch destination) with
    | false =>
        refine .inl ⟨rfl, .inl ⟨collection, hcollection, identity, ?_⟩⟩
        exact (mem_compareEntity_changes _ _ _ _ _ _).mpr ⟨fieldName, hcompared, rfl, .inl hmoves⟩
    | true =>
        rw [MergeChange.about, Bool.and_eq_true, decide_eq_true_eq] at habout
        have hid : identity ∈ incidentEdgeIds base branch destination :=
          of_decide_eq_true habout.2
        exact .inr ⟨habout.1, incidentEdge_left _ _ _ hid⟩
  · intro collection hcollection hmoves
    refine (mem_compareGraphs_changes _ _ _ _).mpr ⟨Bool.and_false _, .inr ⟨collection,
      hcollection, (mem_compareField_changes _ _ _ _ _ _ _).mpr ⟨hmoves.1, hmoves.2, rfl⟩⟩⟩
  · intro c hc
    rcases ((mem_compareGraphs_changes _ _ _ _).mp hc).2 with
      ⟨collection, -, identity, hc⟩ | ⟨collection, -, hc⟩
    · obtain ⟨fieldName, -, rfl, hmoves | ⟨rfl, rfl, hcontested⟩⟩ :=
        (mem_compareEntity_changes _ _ _ _ _ _).mp hc
      · exact .inl hmoves
      · obtain ⟨side, hside, hincident⟩ := hcontested
        cases side with
        | branch =>
            -- The branch removed the node, which is a move away from both other graphs.
            obtain ⟨hold, hnew, hcurrent⟩ := removedOn?_branch.mp hside
            refine .inl ⟨?_, ?_⟩
            · exact missing_differs hnew hold
            · exact missing_differs hnew hcurrent
        | destination =>
            obtain ⟨hold, hnew, hcurrent⟩ := removedOn?_destination.mp hside
            obtain ⟨k, hk, hnode, hremoved, hid⟩ :=
              incident_reported base branch destination hside hincident
            refine .inr ⟨rfl, rfl, ?_, congrArg valueOf hcurrent, k, hk, ?_, hid, hremoved⟩
            · exact valueOf_ne_missing hold
            · exact congrArg some hnode
    · obtain ⟨hfrom, hto, rfl⟩ := (mem_compareField_changes _ _ _ _ _ _ _).mp hc
      exact .inl ⟨hfrom, hto⟩

section Unmoved

/-- Nothing was added to the node on a side that equals the base. -/
theorem incidentChanges_unmoved (identity : String) (side : Side)
    (h : side.survivor branch destination = base) :
    incidentChanges identity base branch destination side = [] := by
  rw [incidentChanges, h, List.map_eq_nil_iff, List.eq_nil_iff_forall_not_mem]
  intro id hid
  obtain ⟨e, he, -, hdiffers⟩ := (mem_competingEdges base identity base id).mp hid
  rw [edgeValue, get?_edges, he, Option.map_some, MergeValue.same_refl] at hdiffers
  cases hdiffers

/-- Where one entity is missing and two are alike, the odd one out is the removed one. -/
theorem removedOn?_unmoved {old current : Option Entity} {side : Side}
    (h : removedOn? old old current = some side) : side = .destination := by
  cases old <;> cases current <;> simp_all [removedOn?]

/-- A value that the branch shares with another graph meets no conflict. -/
theorem not_mem_compareField {collection : Collection} {entityId fieldName : Option String}
    {b s d : MergeValue} (h : s = b ∨ s = d) (c : MergeConflict) :
    c ∉ (compareField rt collection entityId fieldName b s d).2 := by
  intro hc
  obtain ⟨hfrom, hto, -⟩ := (mem_compareField _ _ _ _ _ _ _).mp hc
  rcases h with rfl | rfl
  · rw [MergeValue.same_refl] at hfrom
    cases hfrom
  · rw [MergeValue.same_refl] at hto
    cases hto

theorem foundConflicts_unmoved : foundConflicts base base destination = [] := by
  rw [List.eq_nil_iff_forall_not_mem]
  intro c hc
  rcases (mem_foundConflicts _ _ _ _).mp hc with ⟨collection, -, identity, hc⟩ | ⟨collection, -, hc⟩
  · rcases (mem_compareEntity _ _ _ _ _ _).mp hc with ⟨side, hside, hc⟩ | ⟨-, -, name, hc⟩
    · cases removedOn?_unmoved hside
      rcases (mem_compareRemoval _ _ _ _ _ _ _ _ _ _).mp hc with ⟨-, hincident, -⟩ | ⟨-, hsame, -⟩
      · exact hincident (incidentChanges_unmoved _ _ _ _ _ rfl)
      · rw [Side.survivor, MergeValue.same_refl] at hsame
        cases hsame
    · exact not_mem_compareField (.inl rfl) c hc
  · exact not_mem_compareField (.inl rfl) c hc

theorem foundConflicts_agreed : foundConflicts base branch branch = [] := by
  rw [List.eq_nil_iff_forall_not_mem]
  intro c hc
  rcases (mem_foundConflicts _ _ _ _).mp hc with ⟨collection, -, identity, hc⟩ | ⟨collection, -, hc⟩
  · rcases (mem_compareEntity _ _ _ _ _ _).mp hc with ⟨side, hside, -⟩ | ⟨-, -, name, hc⟩
    · simp [removedOn?] at hside
    · exact not_mem_compareField (.inr rfl) c hc
  · exact not_mem_compareField (.inr rfl) c hc

/-- Without a moved value and a contested removal there is no change. -/
theorem changes_eq_nil
    (hentity : ∀ collection identity fieldName,
      ¬(entityChange base branch destination collection identity fieldName).Moves)
    (hglobal : ∀ collection, ¬(globalChange base branch destination collection).Moves)
    (hcontested : ∀ identity, ¬ContestedRemoval base branch destination identity) :
    (compareGraphs base branch destination).1 = [] := by
  rw [List.eq_nil_iff_forall_not_mem]
  intro c hc
  rcases ((mem_compareGraphs_changes _ _ _ _).mp hc).2 with
    ⟨collection, -, identity, hc⟩ | ⟨collection, -, hc⟩
  · obtain ⟨fieldName, -, -, hmoves | ⟨-, -, hremoval⟩⟩ :=
      (mem_compareEntity_changes _ _ _ _ _ _).mp hc
    · exact hentity _ _ _ hmoves
    · exact hcontested _ hremoval
  · obtain ⟨hfrom, hto, -⟩ := (mem_compareField_changes _ _ _ _ _ _ _).mp hc
    exact hglobal collection ⟨hfrom, hto⟩

theorem conflicts_eq_nil (h : foundConflicts base branch destination = []) :
    (compareGraphs base branch destination).2 = [] := by
  rw [compareGraphs, h]
  rfl

/-- A branch that nobody moved, and one that the destination already agrees with, bring nothing;
and a branch meets no conflict in a destination that nobody moved. -/
theorem compareGraphs_unmoved :
    compareGraphs base base destination = ([], []) ∧
      compareGraphs base branch branch = ([], []) ∧ (compareGraphs base branch base).2 = [] := by
  refine ⟨Prod.ext ?_ ?_, Prod.ext ?_ ?_, ?_⟩
  · refine changes_eq_nil _ _ _ (fun collection identity fieldName hmoves => ?_)
      (fun collection hmoves => ?_) (fun identity hcontested => ?_)
    · exact absurd (MergeValue.same_refl _) (Bool.eq_false_iff.mp hmoves.1)
    · exact absurd (MergeValue.same_refl _) (Bool.eq_false_iff.mp hmoves.1)
    · obtain ⟨side, hside, hincident⟩ := hcontested
      cases removedOn?_unmoved hside
      exact hincident (incidentChanges_unmoved _ _ _ _ _ rfl)
  · exact conflicts_eq_nil _ _ _ (foundConflicts_unmoved _ _)
  · refine changes_eq_nil _ _ _ (fun collection identity fieldName hmoves => ?_)
      (fun collection hmoves => ?_) (fun identity hcontested => ?_)
    · exact absurd (MergeValue.same_refl _) (Bool.eq_false_iff.mp hmoves.2)
    · exact absurd (MergeValue.same_refl _) (Bool.eq_false_iff.mp hmoves.2)
    · obtain ⟨side, hside, -⟩ := hcontested
      simp [removedOn?] at hside
  · exact conflicts_eq_nil _ _ _ (foundConflicts_agreed _ _)
  · -- The sides can be exchanged, so an unmoved destination is an unmoved branch.
    refine conflicts_eq_nil _ _ _ (List.eq_nil_iff_forall_not_mem.mpr fun c hc => ?_)
    rw [← mem_foundConflicts_exchange, foundConflicts_unmoved] at hc
    cases hc

end Unmoved

end RcpGraph
