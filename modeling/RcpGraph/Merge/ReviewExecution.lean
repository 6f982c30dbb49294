import RcpGraph.Core.Effects
import RcpGraph.Merge.ReviewOperations

/-!
Execution of review operations. An approval applies the operations of a Proposal one
after another. A place of the graph then shows what the last of them writes there, and
holds what it held where none of them writes.
-/

namespace RcpGraph

open Schema LastWrite

variable {rt : Runtime}

/-- What a place of a graph holds. A field is held with its name and the type of its node. -/
inductive Held where
  | value (type : NodeType) (name : String) (json : Json)
  | standing (standing : Standing)
  | identity (type : NodeType) (extensionType : Option String)
  | edge (edge : EdgeForm)
  | absent
  deriving DecidableEq

/-- A written value is stored as the check of its field reads and completes it. -/
def StoredAs (rt : Runtime) (type : NodeType) (name : String) (written stored : Json) : Prop :=
  ∃ f ∈ contentFields rt type, f.name = name ∧
    ∃ co j, f.kind.check co written = .ok j ∧ f.kind.complete j = stored

def Held.Shows (rt : Runtime) : Held → Written → Prop
  | .value type name stored, .value json => StoredAs rt type name json stored
  | .standing s, .standing s' => s = s'
  | .identity type extension, .identity type' extension' => type = type' ∧ extension = extension'
  | .edge e, .edge e' => e = e'
  | .absent, .absent => True
  | _, _ => False

namespace ProjectNode

def heldField (n : ProjectNode rt) (name : String) : Held :=
  ((n.field? name).map (.value n.type name)).getD .absent

def held (n : ProjectNode rt) : Aspect → Held
  | .field name => n.heldField name.val
  | .lifecycle => n.heldField n.type.lifecycleField
  | .standing => .standing n.standing
  | .identity => .identity n.type n.extensionType

end ProjectNode

def Edge.heldAt (e : Edge) (source target : String) : Held :=
  if e.source = source ∧ e.target = target then .edge e.form else .absent

def GraphState.held (s : GraphState rt) : Place → Held
  | .node id aspect => ((s.nodes.get? id).map (·.held aspect)).getD .absent
  | .edge id source target => ((s.edges.get? id).map (·.heldAt source target)).getD .absent

/-- Execution in an approval, which puts the operations of a Proposal first. -/
def executeReview (p : Patch rt) (operations : List (ProposalOperation rt)) (s : GraphState rt) :
    Except String (GraphState rt) :=
  Steps.run (applyOp p false) (operations.map ProposalOperation.toGraphOperation) s

/-- A place shows what is written there, and holds what it held where nothing is. -/
abbrev GraphState.Leaves (s t : GraphState rt) : Place → Option Written → Prop :=
  LastWrite.Leaves GraphState.held (Held.Shows rt) s t

abbrev ProjectNode.Leaves (n m : ProjectNode rt) : Aspect → Option Written → Prop :=
  LastWrite.Leaves ProjectNode.held (Held.Shows rt) n m

section Nodes

/-- A field that a node has is stored as itself. -/
theorem storedAs_self (n : ProjectNode rt) (name : String) (v : Json)
    (h : n.field? name = some v) : StoredAs rt n.type name v v := by
  have hdeclared : name ∈ names (contentFields rt n.type) := by
    by_contra hnot
    rw [n.field?_undeclared name hnot] at h
    cases h
  obtain ⟨f, hf, hname⟩ := List.mem_map.mp hdeclared
  obtain ⟨j, hj, hcheck, hcomplete⟩ := n.conforms.field (nodup_contentFields rt n.type) f hf
  rw [hname] at hj
  cases hj.symm.trans h
  exact ⟨f, hf, hname, strict, v, hcheck strict, hcomplete⟩

theorem heldField_self (n : ProjectNode rt) (name : String) :
    (n.heldField name).Shows rt (((n.field? name).map .value).getD .absent) := by
  rw [ProjectNode.heldField]
  cases h : n.field? name with
  | none => exact trivial
  | some v => exact storedAs_self n name v h

/-- A node shows itself. -/
theorem held_written (n : ProjectNode rt) (aspect : Aspect) :
    (n.held aspect).Shows rt (n.written aspect) := by
  cases aspect with
  | field name => exact heldField_self n name.val
  | lifecycle => exact heldField_self n n.type.lifecycleField
  | standing => rfl
  | identity => exact ⟨rfl, rfl⟩

variable {n m : ProjectNode rt} {co : Coercions} {changes : Dict String Json} {revision : Nat}
  {standing : Standing}

/-- A revision accepts no name that its node's type does not declare. -/
theorem declared_of_revise (h : n.revise co changes revision standing = .ok m) {name : String}
    {v : Json} (hfind : Assoc.find name
      (ProjectNode.migrateAttemptCeiling n.type (Assoc.overwrite n.content changes.entries)) =
        some v) : name ∈ names (contentFields rt n.type) := by
  obtain ⟨hcontent, -⟩ := ProjectNode.revise_ok n m co changes revision standing h
  unfold ProjectNode.reviseContent at hcontent
  cases hr : readClosed co (contentFields rt n.type)
      (ProjectNode.migrateAttemptCeiling n.type (Assoc.overwrite n.content changes.entries)) with
  | error e => simp [hr, Except.map] at hcontent
  | ok kept => exact (readClosed_ok co _ _ kept hr).2 _ (Assoc.mem_of_find _ _ _ hfind)

/-- What the revised document gives for a name is stored there. -/
theorem stored_of_revise (h : n.revise co changes revision standing = .ok m) {name : String}
    {v : Json} (hfind : Assoc.find name
      (ProjectNode.migrateAttemptCeiling n.type (Assoc.overwrite n.content changes.entries)) =
        some v) : (m.heldField name).Shows rt (.value v) := by
  obtain ⟨hcontent, -, htype, -⟩ := ProjectNode.revise_ok n m co changes revision standing h
  obtain ⟨f, hf, rfl⟩ := List.mem_map.mp (declared_of_revise h hfind)
  have hsettle := n.reviseContent_settle co changes m.content hcontent
  obtain ⟨j, j', hj, hcheck, hout⟩ | ⟨hnone, -⟩ :=
    find_settle co _ _ m.content (nodup_contentFields rt n.type) hsettle f hf
  · cases hj.symm.trans hfind
    have hstored : m.field? f.name = some (f.kind.complete j') := hout
    rw [ProjectNode.heldField, hstored, htype]
    exact ⟨f, hf, rfl, co, j', hcheck, rfl⟩
  · cases hnone.symm.trans hfind

theorem find_overwritten {name : String} {v : Json} (h : changes.get? name = some v) :
    Assoc.find name (Assoc.overwrite n.content changes.entries) = some v := by
  rw [Assoc.find_overwrite _ _ changes.nodup]
  rw [Dict.get?] at h
  rw [h]
  rfl

/-- A name that nothing migrates is stored as it is given. -/
theorem shows_named (h : n.revise co changes revision standing = .ok m) {name : String} {v : Json}
    (hv : changes.get? name = some v) (hname : name ≠ "invocation_ceiling")
    (hname' : name ≠ "attempt_ceiling") : (m.heldField name).Shows rt (.value v) := by
  have hnodup := Assoc.nodup_overwrite n.content changes.entries n.nodup_content
  refine stored_of_revise h ?_
  rw [ProjectNode.find_migrateAttemptCeiling _ _ hnodup name hname hname']
  exact find_overwritten hv

/-- Only a node whose type has the budget takes it under its old name. -/
theorem shows_migrated (h : n.revise co changes revision standing = .ok m) {v : Json}
    (hv : changes.get? "attempt_ceiling" = some v) :
    (m.heldField "invocation_ceiling").Shows rt (.value v) := by
  have hfind := find_overwritten (n := n) hv
  refine stored_of_revise h ?_
  cases htype : n.type with
  | experiment =>
      simp only [ProjectNode.migrateAttemptCeiling, hfind, Assoc.find_write, if_true]
  | _ =>
      have hsame : ProjectNode.migrateAttemptCeiling n.type
          (Assoc.overwrite n.content changes.entries) =
            Assoc.overwrite n.content changes.entries := by
        rw [htype]
        rfl
      have hdeclared := declared_of_revise h (hsame.symm ▸ hfind)
      exact absurd hdeclared (ProjectNode.attempt_ceiling_undeclared n.type)

/-- A budget under its own name, where the old one is not given. -/
theorem shows_budget (h : n.revise co changes revision standing = .ok m) {v : Json}
    (hold : changes.get? "attempt_ceiling" = none)
    (hv : changes.get? "invocation_ceiling" = some v) :
    (m.heldField "invocation_ceiling").Shows rt (.value v) := by
  refine stored_of_revise h ?_
  have hnone : Assoc.find "attempt_ceiling" (Assoc.overwrite n.content changes.entries) =
      none := by
    rw [Assoc.find_overwrite_of_not_mem _ _ _ ((Dict.not_mem_iff _ _).mpr hold)]
    exact n.field?_undeclared _ (ProjectNode.attempt_ceiling_undeclared n.type)
  have hsame : ProjectNode.migrateAttemptCeiling n.type
      (Assoc.overwrite n.content changes.entries) =
        Assoc.overwrite n.content changes.entries := by
    unfold ProjectNode.migrateAttemptCeiling
    rw [hnone]
    cases n.type <;> rfl
  rw [hsame]
  exact find_overwritten hv

theorem heldField_unnamed (h : n.revise co changes revision standing = .ok m) {name : String}
    (hname : changes.get? name = none)
    (hceiling : name = "invocation_ceiling" → changes.get? "attempt_ceiling" = none) :
    m.heldField name = n.heldField name := by
  obtain ⟨-, -, htype, -⟩ := ProjectNode.revise_ok n m co changes revision standing h
  have hfield := n.field?_revise m co changes revision standing h name
    ((Dict.not_mem_iff _ _).mpr hname) fun heq => (Dict.not_mem_iff _ _).mpr (hceiling heq)
  rw [ProjectNode.heldField, ProjectNode.heldField, hfield, htype]

/-- A revision leaves in a field what the changes give under its names. -/
theorem field_leaves (h : n.revise co changes revision standing = .ok m) (name : FieldName) :
    n.Leaves m (.field name)
      (((Aspect.field name).changeNames.findSome? changes.get?).map .value) := by
  have hattempt : name.val ≠ "attempt_ceiling" := fun heq => name.property (by simp [heq, fieldAliases])
  by_cases hceiling : name.val = "invocation_ceiling"
  · rw [Aspect.changeNames, if_pos hceiling]
    have hheld : ∀ k : ProjectNode rt, k.held (.field name) = k.heldField "invocation_ceiling" := by
      intro k
      rw [ProjectNode.held, hceiling]
    cases hold : changes.get? "attempt_ceiling" with
    | some v =>
        simp only [List.findSome?_cons, hold, Option.map_some]
        change ((m.held (.field name)).Shows rt (.value v))
        rw [hheld]
        exact shows_migrated h hold
    | none =>
        cases hnew : changes.get? "invocation_ceiling" with
        | some v =>
            simp only [List.findSome?_cons, hold, hnew, Option.map_some]
            change ((m.held (.field name)).Shows rt (.value v))
            rw [hheld]
            exact shows_budget h hold hnew
        | none =>
            simp only [List.findSome?_cons, List.findSome?_nil, hold, hnew, Option.map_none]
            change m.held (.field name) = n.held (.field name)
            rw [hheld, hheld]
            exact heldField_unnamed h hnew fun _ => hold
  · rw [Aspect.changeNames, if_neg hceiling]
    cases hv : changes.get? name.val with
    | some v =>
        simp only [List.findSome?_cons, hv, Option.map_some]
        exact shows_named h hv hceiling hattempt
    | none =>
        simp only [List.findSome?_cons, List.findSome?_nil, hv, Option.map_none]
        exact heldField_unnamed h hv fun heq => absurd heq hceiling

theorem lifecycleField_eq (t : NodeType) :
    t.lifecycleField = "status" ∧ "validity" ∉ names (contentFields rt t) ∨
      t.lifecycleField = "validity" ∧ "status" ∉ names (contentFields rt t) := by
  cases t <;>
    simp [NodeType.lifecycleField, names, contentFields, Fields.base, Fields.own, Fields.textField,
      Fields.optionalText, Fields.nullableText, Fields.listField, Fields.textsField,
      Fields.flagField, Fields.choiceField, Field.required, Field.withDefault]

/-- A revision names no field that its node's type does not declare. -/
theorem unnamed_of_undeclared (h : n.revise co changes revision standing = .ok m) {name : String}
    (hname : name ≠ "invocation_ceiling") (hname' : name ≠ "attempt_ceiling")
    (hnot : name ∉ names (contentFields rt n.type)) : changes.get? name = none := by
  cases hv : changes.get? name with
  | none => rfl
  | some v =>
      have hnodup := Assoc.nodup_overwrite n.content changes.entries n.nodup_content
      refine absurd (declared_of_revise h (v := v) ?_) hnot
      rw [ProjectNode.find_migrateAttemptCeiling _ _ hnodup name hname hname']
      exact find_overwritten hv

theorem lifecycle_leaves (h : n.revise co changes revision standing = .ok m) :
    n.Leaves m .lifecycle ((Aspect.lifecycle.changeNames.findSome? changes.get?).map .value) := by
  obtain ⟨-, -, htype, -⟩ := ProjectNode.revise_ok n m co changes revision standing h
  -- One of the two names is the field of the type, and the other is not given.
  have hnames : (Aspect.lifecycle.changeNames.findSome? changes.get?) =
      changes.get? n.type.lifecycleField := by
    rcases @lifecycleField_eq rt n.type with ⟨hfield, hother⟩ | ⟨hfield, hother⟩
    · have hnone := unnamed_of_undeclared h (by decide) (by decide) hother
      rw [hfield, Aspect.changeNames, List.findSome?_cons, List.findSome?_cons, hnone]
      cases changes.get? "status" <;> rfl
    · have hnone := unnamed_of_undeclared h (by decide) (by decide) hother
      rw [hfield, Aspect.changeNames, List.findSome?_cons, hnone, List.findSome?_cons]
      cases changes.get? "validity" <;> rfl
  have hceiling : n.type.lifecycleField ≠ "invocation_ceiling" ∧
      n.type.lifecycleField ≠ "attempt_ceiling" := by cases n.type <;> decide
  rw [hnames]
  cases hv : changes.get? n.type.lifecycleField with
  | some v =>
      change (m.heldField m.type.lifecycleField).Shows rt (.value v)
      rw [htype]
      exact shows_named h hv hceiling.1 hceiling.2
  | none =>
      change m.heldField m.type.lifecycleField = n.heldField n.type.lifecycleField
      rw [htype]
      exact heldField_unnamed h hv fun heq => absurd heq hceiling.1

/-- A revision that keeps the standing leaves what its changes give. -/
theorem revise_leaves (h : n.revise co changes revision n.standing = .ok m) (aspect : Aspect) :
    n.Leaves m aspect ((aspect.changeNames.findSome? changes.get?).map .value) := by
  obtain ⟨-, -, htype, hextension, hstanding, -⟩ := ProjectNode.revise_ok n m co changes revision _ h
  cases aspect with
  | field name => exact field_leaves h name
  | lifecycle => exact lifecycle_leaves h
  | standing =>
      change Held.standing m.standing = .standing n.standing
      rw [hstanding]
  | identity =>
      change Held.identity m.type m.extensionType = .identity n.type n.extensionType
      rw [htype, hextension]

end Nodes

section Steps

variable (p : Patch rt)

/-- A step that rewrites one node leaves the places of the others and of the edges. -/
theorem rewrite_leaves {s t : GraphState rt} {n m : ProjectNode rt} {id : String}
    (hn : s.nodes.get? id = some n) (hnodes : t.nodes = s.nodes.insert id m)
    (hedges : t.edges = s.edges) (write : Aspect → Option Written)
    (h : ∀ aspect, n.Leaves m aspect (write aspect)) (place : Place) :
    s.Leaves t place ((place.aspectOf id).bind write) := by
  cases place with
  | node x aspect =>
      by_cases hx : id = x
      · subst hx
        have hbefore : s.held (.node id aspect) = n.held aspect := by rw [GraphState.held, hn]; rfl
        have hafter : t.held (.node id aspect) = m.held aspect := by
          rw [GraphState.held, hnodes, Dict.get?_insert_self]
          rfl
        rw [Place.aspectOf, if_pos rfl, Option.bind_some]
        have hleaves := h aspect
        cases hwrite : write aspect with
        | some w =>
            rw [hwrite] at hleaves
            change (t.held (.node id aspect)).Shows rt w
            rw [hafter]
            exact hleaves
        | none =>
            rw [hwrite] at hleaves
            change t.held (.node id aspect) = s.held (.node id aspect)
            rw [hafter, hbefore]
            exact hleaves
      · rw [Place.aspectOf, if_neg hx]
        change t.held (.node x aspect) = s.held (.node x aspect)
        rw [GraphState.held, GraphState.held, hnodes, Dict.get?_insert, if_neg (Ne.symm hx)]
  | edge x source target =>
      change t.held (.edge x source target) = s.held (.edge x source target)
      rw [GraphState.held, GraphState.held, hedges]

theorem updateNode_leaves (hp : p.kind = .approval) (u : NodeUpdate) (s t : GraphState rt)
    (hs : s.Keyed) (h : updateNode p false u s = .ok t) (place : Place) :
    s.Leaves t place (u.write place) := by
  obtain ⟨n, m, hn, -, hm, rfl⟩ := updateNode_ok p false u s t h
  rw [if_pos hp] at hm
  exact rewrite_leaves hn (by simp [hs u.id n hn]) (by simp) u.wrote (revise_leaves hm) place

/-- A retirement is a revision that gives the lifecycle field. -/
theorem retireWrite_eq (t : NodeType) (id : String) (place : Place) :
    retireWrite id place = (place.aspectOf id).bind fun aspect =>
      (aspect.changeNames.findSome?
        (Dict.ofList [(t.lifecycleField, .str retiredValue)]).get?).map .value := by
  cases place with
  | edge x source target => rfl
  | node x aspect =>
      by_cases hx : id = x
      · subst hx
        rw [Place.aspectOf, if_pos rfl, Option.bind_some]
        cases aspect with
        | field name =>
            have hlifecycle : t.lifecycleField ∈ fieldAliases := by cases t <;> decide
            have hnone : ∀ x, x ∉ fieldAliases ∨ x = "attempt_ceiling" →
                (Dict.ofList [(t.lifecycleField, Json.str retiredValue)]).get? x = none := by
              intro x hx
              have hne : x ≠ t.lifecycleField := by
                rintro rfl
                rcases hx with hnot | heq
                · exact hnot hlifecycle
                · revert heq
                  cases t <;> decide
              change (Dict.empty.insert t.lifecycleField (Json.str retiredValue)).get? x = none
              rw [Dict.get?_insert, if_neg hne, Dict.get?_empty]
            have hwrite : retireWrite id (.node id (.field name)) = none :=
              if_neg fun heq => by cases heq
            rw [hwrite, Aspect.changeNames]
            split
            · rw [List.findSome?_cons, hnone _ (.inr rfl), List.findSome?_cons,
                hnone _ (.inl (by decide))]
              rfl
            · rw [List.findSome?_cons, hnone _ (.inl name.property)]
              rfl
        | lifecycle =>
            rw [retireWrite, if_pos rfl]
            cases t <;> rfl
        | standing => exact if_neg fun heq => by cases heq
        | identity => exact if_neg fun heq => by cases heq
      · have hwrite : retireWrite id (.node x aspect) = none :=
          if_neg fun heq => hx (Place.node.inj heq).1.symm
        rw [hwrite, Place.aspectOf, if_neg hx, Option.bind_none]

theorem retireNode_leaves (hp : p.kind = .approval) (id : String) (cause : Option BeliefCause)
    (s t : GraphState rt) (h : retireNode p id cause s = .ok t) (place : Place) :
    s.Leaves t place (retireWrite id place) := by
  obtain ⟨n, m, hn, hm, rfl⟩ := retireNode_ok p id cause s t h
  have hrevise : n.revise rt.lax (Dict.ofList [(n.type.lifecycleField, .str retiredValue)])
      p.revision n.standing = .ok m := by
    rw [ProjectNode.retire, decide_eq_true hp] at hm
    exact hm
  have hleaves := rewrite_leaves hn
    (t := recordBeliefTransition { s with nodes := s.nodes.insert id m } n m p.revision cause)
    (by simp) (by simp) _ (revise_leaves hrevise) place
  rw [retireWrite_eq n.type]
  exact hleaves

theorem setStanding_leaves (revision : Nat) (id : String) (standing : Standing)
    (s t : GraphState rt) (hs : s.Keyed) (h : setStanding revision id standing s = .ok t)
    (place : Place) :
    s.Leaves t place
      (if place = .node id .standing then some (.standing standing) else none) := by
  obtain ⟨n, hn, rfl⟩ := setStanding_ok revision id standing s t h
  have hleaves := rewrite_leaves hn
    (t := { s with nodes := s.nodes.insert n.id (n.withStanding standing revision) })
    (by rw [hs id n hn]) rfl
    (fun aspect => if aspect = .standing then some (.standing standing) else none) (fun aspect => by
      cases aspect with
      | standing => rfl
      | _ => rfl) place
  have hwrite : (if place = .node id .standing then some (Written.standing standing) else none) =
      (place.aspectOf id).bind fun aspect =>
        if aspect = .standing then some (.standing standing) else none := by
    cases place with
    | edge x source target => rfl
    | node x aspect =>
        rw [Place.aspectOf]
        by_cases hx : id = x
        · simp [hx]
        · simp [hx, Ne.symm hx]
  rw [hwrite]
  exact hleaves

/-- An edge that is added takes the place of the one of its id. -/
theorem addEdge_leaves (e : Edge) (s : GraphState rt) (place : Place) :
    s.Leaves (addEdge e s) place (e.form.write place) := by
  cases place with
  | node id aspect => rfl
  | edge id source target =>
      by_cases hid : e.id = id
      · subst hid
        have hwrite : e.form.write (.edge e.id source target) =
            some (if e.source = source ∧ e.target = target then .edge e.form else .absent) := by
          have hid : e.form.edgeId = e.id := rfl
          rw [EdgeForm.write, if_pos hid]
          rfl
        have hheld : (addEdge e s).held (.edge e.id source target) = e.heldAt source target := by
          rw [GraphState.held, addEdge, Dict.get?_insert_self]
          rfl
        rw [hwrite]
        change ((addEdge e s).held (.edge e.id source target)).Shows rt _
        rw [hheld, Edge.heldAt]
        split
        · rfl
        · exact trivial
      · have hwrite : e.form.write (.edge id source target) = none := by
          rw [EdgeForm.write, if_neg]
          exact hid
        rw [hwrite]
        change (addEdge e s).held (.edge id source target) = s.held (.edge id source target)
        rw [GraphState.held, GraphState.held, addEdge, Dict.get?_insert, if_neg (Ne.symm hid)]

theorem createEdge_leaves (revision : Nat) (raw : NewEdge) (s t : GraphState rt)
    (h : createEdge revision raw s = .ok t) (place : Place) :
    s.Leaves t place (raw.form.write place) := by
  obtain ⟨id, declared, hid, -, rfl⟩ := createEdge_ok revision raw s t h
  have hstored : (raw.edgeIn s id declared revision).form = { raw.form with id := some id } := by
    rw [Edge.form, NewEdge.edgeIn, NewEdge.form, Option.map_map]
    rfl
  have hedgeId : raw.form.edgeId = id := by
    rw [NewEdge.writtenId] at hid
    rw [EdgeForm.edgeId, NewEdge.form]
    cases hwritten : raw.id with
    | none =>
        rw [hwritten] at hid
        exact Option.some.inj hid
    | some written =>
        rw [hwritten] at hid
        change written = some id at hid
        rw [hid]
        rfl
  have hform : (raw.edgeIn s id declared revision).form.write place = raw.form.write place := by
    rw [hstored]
    cases place with
    | node x aspect => rfl
    | edge x source target =>
        rw [EdgeForm.write, EdgeForm.write, hedgeId]
        rfl
  rw [← hform]
  exact addEdge_leaves _ s place

theorem supersedeNode_leaves (hp : p.kind = .approval) (item : SupersedeNode) (s t : GraphState rt)
    (h : supersedeNode p item s = .ok t) (place : Place) : s.Leaves t place (item.write place) := by
  obtain ⟨u, hu, rfl⟩ := supersedeNode_ok p item s t h
  have hretired := retireNode_leaves p hp item.id item.cause s u hu place
  have hform : ((item.edge? 0).bind fun e => e.form.write place) =
      (item.edge? p.revision).bind fun e => e.form.write place := by
    rw [SupersedeNode.edge?, SupersedeNode.edge?, Option.bind_map, Option.bind_map]
    rfl
  rw [SupersedeNode.write, hform]
  cases item.edge? p.revision with
  | none => exact hretired
  | some e => exact hretired.trans (addEdge_leaves e u place)

theorem mergeNode_leaves (hp : p.kind = .approval) (item : NodeMerge) (s t : GraphState rt)
    (h : mergeNode p item s = .ok t) (place : Place) : s.Leaves t place (item.write place) := by
  obtain ⟨u, hu, rfl⟩ := mergeNode_ok p item s t h
  have hretired := retireNode_leaves p hp item.duplicate item.cause s u hu place
  exact hretired.trans (addEdge_leaves _ u place)

/-- A created node shows itself, and takes the place of the one of its id. -/
theorem createNode_leaves (revision : Nat) (raw : RawNode rt) (s : GraphState rt)
    (place : Place) : s.Leaves (createNode revision raw s) place (raw.write place) := by
  cases place with
  | edge x source target => rfl
  | node x aspect =>
      by_cases hx : raw.id = x
      · subst hx
        have hheld : (createNode revision raw s).held (.node raw.id aspect) =
            (raw.create revision).held aspect := by
          rw [GraphState.held, createNode, Dict.get?_insert_self]
          rfl
        have hshows := held_written (raw.create revision) aspect
        rw [RawNode.write, Place.aspectOf, if_pos rfl]
        change ((createNode revision raw s).held (.node raw.id aspect)).Shows rt _
        rw [hheld]
        cases aspect <;> exact hshows
      · rw [RawNode.write, Place.aspectOf, if_neg hx]
        change (createNode revision raw s).held (.node x aspect) = s.held (.node x aspect)
        rw [GraphState.held, GraphState.held, createNode, Dict.get?_insert, if_neg (Ne.symm hx)]

theorem createNodes_leaves (revision : Nat) (nodes : List (RawNode rt)) (s : GraphState rt)
    (place : Place) :
    s.Leaves (nodes.foldl (fun s raw => createNode revision raw s) s) place
      (last RawNode.write nodes place) := by
  have hrun : Steps.run (fun raw s => (.ok (createNode revision raw s) : Except String _)) nodes s =
      .ok (nodes.foldl (fun s raw => createNode revision raw s) s) := by
    induction nodes generalizing s with
    | nil => rfl
    | cons raw nodes ih => exact ih (createNode revision raw s)
  refine (run_leaves RawNode.write _ (fun _ => True) nodes (fun raw _ s t _ h => ?_) s _ trivial
    hrun).2 place
  cases h
  exact ⟨trivial, createNode_leaves revision raw s⟩

theorem leaves_absent {s t : GraphState rt} {place : Place} {gone : Bool}
    (hgone : gone = true → t.held place = .absent)
    (hkept : gone = false → t.held place = s.held place) :
    s.Leaves t place (if gone then some .absent else none) := by
  cases gone with
  | true =>
      change (t.held place).Shows rt .absent
      rw [hgone rfl]
      exact trivial
  | false => exact hkept rfl

/-- A removed node takes its edges with it. -/
theorem removeNodes_leaves (ids : List String) (s : GraphState rt) (place : Place) :
    s.Leaves (removeNodes ids s) place
      (if place.touches ids then some .absent else none) := by
  cases place with
  | node x aspect =>
      have hheld : (removeNodes ids s).held (.node x aspect) =
          if x ∈ ids then .absent else s.held (.node x aspect) := by
        rw [GraphState.held, GraphState.held, removeNodes, Dict.get?_filter]
        by_cases hx : x ∈ ids <;> cases s.nodes.get? x <;> simp [Option.filter, hx]
      refine leaves_absent (fun hgone => ?_) fun hkept => ?_
      · rw [hheld, if_pos (of_decide_eq_true hgone)]
      · rw [hheld, if_neg (of_decide_eq_false hkept)]
  | edge x source target =>
      have hheld : (removeNodes ids s).held (.edge x source target) =
          if source ∈ ids ∨ target ∈ ids then .absent else s.held (.edge x source target) := by
        rw [GraphState.held, GraphState.held, removeNodes, Dict.get?_filter]
        cases hedge : s.edges.get? x with
        | none => simp [Option.filter]
        | some e =>
            by_cases hends : e.source = source ∧ e.target = target
            · obtain ⟨rfl, rfl⟩ := hends
              by_cases hsource : e.source ∈ ids <;> by_cases htarget : e.target ∈ ids <;>
                simp [Option.filter, hsource, htarget]
            · have habsent : e.heldAt source target = .absent := if_neg hends
              by_cases hkept : e.source ∉ ids ∧ e.target ∉ ids
              · simp [Option.filter, hkept, habsent]
              · simp only [not_and_or, not_not] at hkept
                rcases hkept with hsource | htarget
                · simp [Option.filter, hsource, habsent]
                · simp [Option.filter, htarget, habsent]
      have htouches : (Place.edge x source target).touches ids = true ↔
          source ∈ ids ∨ target ∈ ids := by simp [Place.touches]
      refine leaves_absent (fun hgone => ?_) fun hkept => ?_
      · rw [hheld, if_pos (htouches.mp hgone)]
      · rw [hheld, if_neg]
        rw [← htouches, hkept]
        exact Bool.false_ne_true

theorem removeEdges_leaves (ids : List String) (s : GraphState rt) (place : Place) :
    s.Leaves (removeEdges ids s) place
      (if place.ofEdges ids then some .absent else none) := by
  cases place with
  | node x aspect => rfl
  | edge x source target =>
      have hget : (removeEdges ids s).edges.get? x = if x ∈ ids then none else s.edges.get? x :=
        Dict.get?_foldl_erase ids s.edges x
      refine leaves_absent (fun hgone => ?_) fun hkept => ?_
      · rw [GraphState.held, hget, if_pos (of_decide_eq_true hgone)]
        rfl
      · rw [GraphState.held, GraphState.held, hget, if_neg (of_decide_eq_false hkept)]

/-- What an operation writes is what its execution leaves. -/
theorem operation_leaves (hp : p.kind = .approval) (op : ProposalOperation rt)
    (s t : GraphState rt) (hs : s.Keyed) (h : applyOp p false op.toGraphOperation s = .ok t)
    (place : Place) : s.Leaves t place (op.write place) := by
  have hother : t.nodes = s.nodes → t.edges = s.edges → s.Leaves t place none := by
    intro hnodes hedges
    change t.held place = s.held place
    cases place with
    | node x aspect => rw [GraphState.held, GraphState.held, hnodes]
    | edge x source target => rw [GraphState.held, GraphState.held, hedges]
  have hupdates : ∀ nodes, Steps.run (updateNode p false) nodes s = .ok t →
      s.Leaves t place (last NodeUpdate.write nodes place) := by
    intro nodes hrun
    refine (run_leaves NodeUpdate.write _ GraphState.Keyed nodes (fun u _ s t hs h => ?_) s t hs
      hrun).2 place
    exact ⟨(updateNode_rewrites p false u s t hs h).1.keyed hs, updateNode_leaves p hp u s t hs h⟩
  cases op with
  | contentChange legacy nodes => exact hupdates nodes h
  | statusChange legacy nodes => exact hupdates nodes h
  | standingChange id standing => exact setStanding_leaves p.revision id standing s t hs h place
  | removal legacy ids =>
      cases h
      exact removeNodes_leaves ids s place
  | supersede legacy items =>
      refine (run_leaves SupersedeNode.write _ GraphState.Keyed items (fun i _ s t hs h => ?_) s t
        hs h).2 place
      exact ⟨(supersedeNode_rewrites p i s t h).keyed hs, supersedeNode_leaves p hp i s t h⟩
  | merge legacy merges =>
      refine (run_leaves NodeMerge.write _ GraphState.Keyed merges (fun m _ s t hs h => ?_) s t
        hs h).2 place
      exact ⟨(mergeNode_rewrites p m s t h).keyed hs, mergeNode_leaves p hp m s t h⟩
  | createRelations legacy edges =>
      refine (run_leaves (fun e : NewEdge => e.form.write) _ (fun _ => True) edges
        (fun e _ s t _ h => ?_) s t trivial h).2 place
      exact ⟨trivial, createEdge_leaves p.revision e s t h⟩
  | removeRelations legacy ids =>
      cases h
      exact removeEdges_leaves ids s place
  | legacyCreateNodes nodes =>
      cases h
      exact createNodes_leaves p.revision nodes s place
  | _ =>
      exact hother (nodes_applyOp_other p false _ rfl s t h)
        (edges_applyOp_other p false _ rfl s t hs h)

/-- Every place shows what the last operation that writes it writes there. -/
theorem executeReview_leaves (hp : p.kind = .approval) (operations : List (ProposalOperation rt))
    (s t : GraphState rt) (hs : s.Keyed) (h : executeReview p operations s = .ok t)
    (place : Place) : s.Leaves t place (last ProposalOperation.write operations place) := by
  rw [executeReview, Steps.run_map] at h
  refine (run_leaves ProposalOperation.write _ GraphState.Keyed operations
    (fun op _ s t hs h => ?_) s t hs h).2 place
  exact ⟨keyed_applyOp p false _ s t hs h, operation_leaves p hp op s t hs h⟩

end Steps

end RcpGraph
