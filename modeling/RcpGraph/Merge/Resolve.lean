import RcpGraph.Lib.Overwrite
import RcpGraph.Merge.Compare

/-!
`_resolved_changes`: the values an answered plan selects. Each answer writes its coordinates
over what the planned changes and the answers before it selected.
-/

namespace RcpGraph

variable {rt : Runtime}

section Definitions

inductive PresenceAnswer where
  | keepRemoval
  | keepNode
  deriving DecidableEq, Repr

inductive ConflictAnswer where
  | side (side : Side)
  | merged (value : Json)
  | presence (answer : PresenceAnswer)
  deriving DecidableEq

namespace ConflictAnswer

def kind : ConflictAnswer → String
  | side .branch => "branch"
  | side .destination => "destination"
  | merged _ => "merged"
  | presence .keepRemoval => "keep-removal"
  | presence .keepNode => "keep-node"

def fieldKind? : ConflictAnswer → Option FieldAnswerKind
  | side .branch => some .branch
  | side .destination => some .destination
  | merged _ => some .merged
  | presence _ => none

end ConflictAnswer

structure ReviewCard where
  situationCold : String
  whyHumanNow : String
  consequences : String
  decisionNeeded : String
  deriving DecidableEq, Repr

structure MergeAnswers where
  answers : Dict String ConflictAnswer
  cards : Dict String ReviewCard

/-- Where a value is selected. -/
structure Coordinate where
  collection : Collection
  entityId : Option String
  fieldName : Option String
  deriving DecidableEq, Repr

def MergeChange.coordinate (c : MergeChange) : Coordinate := ⟨c.collection, c.entityId, c.fieldName⟩

def FieldConflict.coordinate (c : FieldConflict) : Coordinate :=
  ⟨c.collection, c.entityId, some c.fieldName⟩

/-- The validation library's part: whether a value meets the type its field is declared with,
and what it says where a document is refused. -/
structure FieldValidator (rt : Runtime) where
  fieldRefusal : MergePlanningContext rt → FieldConflict → Json → Option String
  groupRefusal : Json → String

/-- `_answer_error`. -/
def answerError (conflictId message : String) : MergeDiagnostic where
  code := "invalid-merge-answer"
  message := conflictId ++ ": " ++ message
  relatedNodeIds := [conflictId]
  conflictIds := [conflictId]

def kindRefused (conflictId : String) (answer : ConflictAnswer) : MergeDiagnostic :=
  answerError conflictId ("answer kind " ++ Text.quoted answer.kind ++ " is not allowed")

/-- The content fields of the model that owns a conflict's field, if it has an owner. -/
def MergePlanningContext.ownerFields (context : MergePlanningContext rt) (c : FieldConflict) :
    Option (List String) :=
  match c.entityId with
  | some id =>
      ([context.destinationGraph, context.sourceGraph, context.baseGraph].findSome? fun graph =>
        (graph.entities c.collection).get? id).map (·.content)
  | none =>
      if c.collection = .ontology then some ["types", "fields", "relations"]
      else
        some
          [ "project_truth_scope", "nodes", "edges", "proposals", "ambiguities", "glossary",
            "ontology" ]

/-- `_field_value`. -/
def fieldValue (lib : FieldValidator rt) (context : MergePlanningContext rt) (c : FieldConflict)
    (answer : ConflictAnswer) : Except MergeDiagnostic MergeValue :=
  let chosen : Option MergeValue :=
    match answer with
    | .side .branch => some c.branch
    | .side .destination => some c.destination
    | .merged value => some (.present value)
    | .presence _ => none
  match answer.fieldKind?.filter (fun kind => decide (kind ∈ c.allowedAnswerKinds)), chosen with
  | none, _ | _, none => .error (kindRefused c.conflictId answer)
  | some _, some .missing => .error (answerError c.conflictId "a model field cannot be absent")
  | some _, some (.present value) =>
      match context.ownerFields c with
      | none => .error (answerError c.conflictId "field owner is absent from every snapshot")
      | some fields =>
          if c.fieldName ∉ fields then
            .error (answerError c.conflictId "not a content field of the model")
          else
            match lib.fieldRefusal context c value with
            | some refusal => .error (answerError c.conflictId refusal)
            | none => .ok (.present value)

/-- One answer inside a merged group. -/
def readFieldAnswer : Json → Option ConflictAnswer
  | .obj [("kind", .str "branch")] => some (.side .branch)
  | .obj [("kind", .str "destination")] => some (.side .destination)
  | .obj [("kind", .str "merged"), ("value", value)]
  | .obj [("value", value), ("kind", .str "merged")] => some (.merged value)
  | _ => none

/-- A merged group's answers: node id, then field name. -/
def readGroupAnswer : Json → Option (List ((String × String) × ConflictAnswer))
  | .obj nodes =>
      (nodes.mapM fun (node : String × Json) =>
        match node.2 with
        | .obj fields =>
            fields.mapM fun (field : String × Json) =>
              (readFieldAnswer field.2).map fun answer => ((node.1, field.1), answer)
        | _ => none).map List.flatten
  | _ => none

/-- One statement of the resolution on the selected values. -/
inductive Write where
  | set (at_ : Coordinate) (value : MergeValue)
  | clearFields (collection : Collection) (entityId : Option String)
  | clear (collection : Collection) (entityId : Option String)

def Write.run (selected : Dict Coordinate MergeValue) : Write → Dict Coordinate MergeValue
  | .set k value => selected.insert k value
  | .clearFields collection entityId =>
      selected.filter fun k _ =>
        !(decide (k.collection = collection) && decide (k.entityId = entityId) && k.fieldName.isSome)
  | .clear collection entityId =>
      selected.filter fun k _ =>
        !(decide (k.collection = collection) && decide (k.entityId = entityId))

/-- The writes of a group whose fields are each answered. -/
def groupWrites (lib : FieldValidator rt) (context : MergePlanningContext rt) (c : NodeGroupConflict)
    (item : FieldConflict → Option ConflictAnswer) : Except MergeDiagnostic (List Write) :=
  c.fields.mapM fun field =>
    if field.entityId.isNone then
      .error (answerError c.conflictId "node group field needs a node identity")
    else
      match item field with
      | none => .error (answerError c.conflictId "merged group must answer exactly its fields")
      | some answer =>
          (fieldValue lib context field answer).map fun value => .set field.coordinate value

/-- The writes that keep or remove an entity as a whole. -/
def presenceWrites (collection : Collection) (identity : String) (branch destination : MergeValue)
    (removedOn : Side) (answer : PresenceAnswer) : List Write :=
  [ .set ⟨collection, some identity, none⟩
      (match answer with
        | .keepRemoval => .missing
        | .keepNode => removedOn.survivor branch destination),
    -- Presence controls all fields of that entity, including deterministic work.
    .clearFields collection (some identity) ]

/-- The writes for one edge of an incident-edge conflict. -/
def incidentWrites (removedOn : Side) (answer : PresenceAnswer) (edge : MergeChange) : List Write :=
  match answer with
  | .keepRemoval => [.clear .edges edge.entityId, .set ⟨.edges, edge.entityId, none⟩ .missing]
  | .keepNode => [.set edge.coordinate (removedOn.survivor edge.branch edge.destination)]

/-- The writes of one answered conflict. -/
def conflictWrites (lib : FieldValidator rt) (context : MergePlanningContext rt)
    (answers : MergeAnswers) (c : MergeConflict) : Except MergeDiagnostic (List Write) :=
  match answers.answers.get? c.conflictId with
  | none => .error (answerError c.conflictId "unanswered")
  | some answer =>
      match c with
      | .field c => (fieldValue lib context c answer).map fun value => [.set c.coordinate value]
      | .nodeGroup c =>
          match answer with
          | .presence _ => .error (kindRefused c.conflictId answer)
          | .side _ => groupWrites lib context c fun _ => some answer
          | .merged value =>
              match readGroupAnswer value with
              | none => .error (answerError c.conflictId (lib.groupRefusal value))
              | some nested =>
                  if (c.fields.all fun f => nested.any fun entry =>
                      decide (some entry.1.1 = f.entityId) && decide (entry.1.2 = f.fieldName)) &&
                    nested.all fun entry => c.fields.any fun f =>
                      decide (some entry.1.1 = f.entityId) && decide (entry.1.2 = f.fieldName)
                  then
                    groupWrites lib context c fun f =>
                      f.entityId.bind fun id => Assoc.find (id, f.fieldName) nested
                  else
                    .error (answerError c.conflictId "merged group must answer exactly its fields")
      | .presence c =>
          match answer with
          | .presence answer =>
              .ok (presenceWrites c.collection c.entityId c.branch c.destination c.removedOn answer)
          | answer => .error (kindRefused c.conflictId answer)
      | .incident c =>
          match answer with
          | .presence answer =>
              .ok (presenceWrites .nodes c.nodeId c.branch c.destination c.removedOn answer ++
                c.incidentEdges.flatMap (incidentWrites c.removedOn answer))
          | answer => .error (kindRefused c.conflictId answer)

/-- The branch values of the changes the destination must receive. -/
def MergePlan.planned (plan : MergePlan rt) : Dict Coordinate MergeValue :=
  .ofList ((plan.directChanges ++ plan.reviewGroups.flatMap (·.changes)).map fun c =>
    (c.coordinate, c.branch))

/-- `_resolved_changes`. -/
def resolvedChanges (lib : FieldValidator rt) (plan : MergePlan rt) (answers : MergeAnswers) :
    Except MergeDiagnostic (Dict Coordinate MergeValue) :=
  let expected := plan.conflicts.map (·.conflictId)
  let unknown := answers.cards.keys.filter fun key =>
    decide (key ∉ plan.reviewGroups.map (·.subjectKey))
  if ¬(answers.answers.keys ⊆ expected ∧ expected ⊆ answers.answers.keys) then
    .error (answerError "answers"
      ("expected keys " ++ Text.quotedList (Text.sortedSet expected) ++ ", got " ++
        Text.quotedList (Text.sortedSet answers.answers.keys)))
  else
    match Text.sortedSet unknown with
    | first :: rest =>
        .error (answerError first ("unknown review subjects " ++ Text.quotedList (first :: rest)))
    | [] =>
        plan.conflicts.foldlM
          (fun selected c =>
            (conflictWrites lib plan.toMergePlanningContext answers c).map fun writes =>
              writes.foldl Write.run selected)
          plan.planned

end Definitions

section Overlays

open Overwrite

def Write.overlay : Write → Overlay Coordinate MergeValue
  | .set k value => fun x => if x = k then some (some value) else none
  | .clearFields collection entityId => fun x =>
      if x.collection = collection ∧ x.entityId = entityId ∧ x.fieldName.isSome = true then some none
      else none
  | .clear collection entityId => fun x =>
      if x.collection = collection ∧ x.entityId = entityId then some none else none

theorem filter_not {α : Type} (o : Option α) (b : Bool) :
    (o.filter fun _ => !b) = if b = true then none else o := by
  cases o <;> cases b <;> rfl

theorem get?_run (selected : Dict Coordinate MergeValue) (w : Write) :
    (w.run selected).get? = lay selected.get? w.overlay := by
  funext x
  cases w with
  | set k value =>
      simp only [Write.run, Dict.get?_insert, lay, Write.overlay]
      split <;> rfl
  | clearFields collection entityId =>
      rw [Write.run, Dict.get?_filter, filter_not, lay, Write.overlay]
      simp only [Bool.and_eq_true, decide_eq_true_eq, and_assoc]
      split <;> rfl
  | clear collection entityId =>
      rw [Write.run, Dict.get?_filter, filter_not, lay, Write.overlay]
      simp only [Bool.and_eq_true, decide_eq_true_eq]
      split <;> rfl

theorem get?_runAll (ws : List Write) (selected : Dict Coordinate MergeValue) :
    (ws.foldl Write.run selected).get? =
      lay selected.get? (compose (ws.map Write.overlay)) := by
  rw [lay_compose]
  induction ws generalizing selected with
  | nil => rfl
  | cons w ws ih => rw [List.foldl_cons, ih, get?_run, List.map_cons, layAll_cons]

variable (lib : FieldValidator rt) (context : MergePlanningContext rt) (answers : MergeAnswers)

/-- What an answered conflict does at each coordinate; nothing where its answer is refused. -/
def decision (c : MergeConflict) : Overlay Coordinate MergeValue :=
  match conflictWrites lib context answers c with
  | .error _ => fun _ => none
  | .ok ws => compose (ws.map Write.overlay)

theorem decision_ok {c : MergeConflict} {ws : List Write}
    (h : conflictWrites lib context answers c = .ok ws) :
    decision lib context answers c = compose (ws.map Write.overlay) := by
  rw [decision, h]

/-- One round of the resolution. -/
def resolveStep (selected : Dict Coordinate MergeValue) (c : MergeConflict) :
    Except MergeDiagnostic (Dict Coordinate MergeValue) :=
  (conflictWrites lib context answers c).map fun writes => writes.foldl Write.run selected

/-- The answer of the conflict is allowed. -/
def Allowed (c : MergeConflict) : Prop := ∃ ws, conflictWrites lib context answers c = .ok ws

theorem resolveStep_ok {c : MergeConflict} (selected : Dict Coordinate MergeValue)
    (h : Allowed lib context answers c) :
    ∃ next, resolveStep lib context answers selected c = .ok next ∧
      next.get? = lay selected.get? (decision lib context answers c) := by
  obtain ⟨ws, hws⟩ := h
  refine ⟨ws.foldl Write.run selected, ?_, ?_⟩
  · rw [resolveStep, hws]
    rfl
  · rw [get?_runAll, decision_ok lib context answers hws]

theorem allowed_of_resolveStep {selected next : Dict Coordinate MergeValue} {c : MergeConflict}
    (h : resolveStep lib context answers selected c = .ok next) : Allowed lib context answers c := by
  rw [resolveStep] at h
  cases hws : conflictWrites lib context answers c with
  | error e =>
      rw [hws] at h
      cases h
  | ok ws => exact ⟨ws, hws⟩

/-- The rounds all succeed when every answer is allowed, and lay the decisions in order. -/
theorem resolveSteps_ok {cs : List MergeConflict} (h : ∀ c ∈ cs, Allowed lib context answers c)
    (selected : Dict Coordinate MergeValue) :
    ∃ final, cs.foldlM (resolveStep lib context answers) selected = .ok final ∧
      final.get? = layAll selected.get? (cs.map (decision lib context answers)) := by
  induction cs generalizing selected with
  | nil => exact ⟨selected, rfl, rfl⟩
  | cons c cs ih =>
      obtain ⟨next, hnext, hget⟩ := resolveStep_ok lib context answers selected
        (h c List.mem_cons_self)
      obtain ⟨final, hfinal, hget'⟩ := ih (fun d hd => h d (List.mem_cons_of_mem c hd)) next
      refine ⟨final, ?_, ?_⟩
      · rw [List.foldlM_cons, hnext]
        exact hfinal
      · rw [hget', hget, List.map_cons, layAll_cons]

theorem allowed_of_resolveSteps {cs : List MergeConflict} {selected final : Dict Coordinate MergeValue}
    (h : cs.foldlM (resolveStep lib context answers) selected = .ok final) :
    ∀ c ∈ cs, Allowed lib context answers c := by
  induction cs generalizing selected with
  | nil =>
      intro c hc
      cases hc
  | cons c cs ih =>
      rw [List.foldlM_cons] at h
      cases hnext : resolveStep lib context answers selected c with
      | error e =>
          rw [hnext] at h
          cases h
      | ok next =>
          rw [hnext] at h
          intro d hd
          rcases List.mem_cons.mp hd with rfl | hd
          · exact allowed_of_resolveStep lib context answers hnext
          · exact ih h d hd

end Overlays

section Plans

open Overwrite

variable (lib : FieldValidator rt)

/-- The same plan with its conflicts in another order. -/
def MergePlan.reorder (plan : MergePlan rt) (conflicts : List MergeConflict)
    (h : conflicts.Perm plan.conflicts) : MergePlan rt :=
  { plan with
    conflicts := conflicts
    nodup_conflictIds := ((h.map _).nodup_iff).mpr plan.nodup_conflictIds }

/-- The answers are for the plan's conflicts, and the cards for its review groups. -/
def Complete (plan : MergePlan rt) (answers : MergeAnswers) : Prop :=
  (∀ key, key ∈ answers.answers.keys ↔ key ∈ plan.conflicts.map (·.conflictId)) ∧
    ∀ key ∈ answers.cards.keys, key ∈ plan.reviewGroups.map (·.subjectKey)

theorem resolvedChanges_eq {plan : MergePlan rt} {answers : MergeAnswers}
    (h : Complete plan answers) :
    resolvedChanges lib plan answers =
      plan.conflicts.foldlM (resolveStep lib plan.toMergePlanningContext answers) plan.planned := by
  have hkeys : answers.answers.keys ⊆ plan.conflicts.map (·.conflictId) ∧
      plan.conflicts.map (·.conflictId) ⊆ answers.answers.keys :=
    ⟨fun key hkey => (h.1 key).mp hkey, fun key hkey => (h.1 key).mpr hkey⟩
  have hcards : (answers.cards.keys.filter fun key =>
      decide (key ∉ plan.reviewGroups.map (·.subjectKey))) = [] := by
    rw [List.filter_eq_nil_iff]
    intro key hkey
    simpa using h.2 key hkey
  rw [resolvedChanges]
  simp only [hkeys, hcards, and_self, not_true_eq_false, if_false]
  rfl

theorem complete_of_resolved {plan : MergePlan rt} {answers : MergeAnswers}
    {selected : Dict Coordinate MergeValue} (h : resolvedChanges lib plan answers = .ok selected) :
    Complete plan answers := by
  rw [resolvedChanges] at h
  split at h
  · cases h
  · rename_i hkeys
    rw [not_not] at hkeys
    split at h
    · cases h
    · rename_i hcards
      rw [Text.sortedSet_eq_nil, List.filter_eq_nil_iff] at hcards
      refine ⟨fun key => ⟨fun hkey => hkeys.1 hkey, fun hkey => hkeys.2 hkey⟩, ?_⟩
      intro key hkey
      simpa using hcards key hkey

/-- What a resolved plan selects. -/
theorem resolvedChanges_ok {plan : MergePlan rt} {answers : MergeAnswers}
    {selected : Dict Coordinate MergeValue} (h : resolvedChanges lib plan answers = .ok selected) :
    Complete plan answers ∧
      (∀ c ∈ plan.conflicts, Allowed lib plan.toMergePlanningContext answers c) ∧
      selected.get? = layAll plan.planned.get?
        (plan.conflicts.map (decision lib plan.toMergePlanningContext answers)) := by
  have hcomplete := complete_of_resolved lib h
  rw [resolvedChanges_eq lib hcomplete] at h
  have hallowed := allowed_of_resolveSteps lib _ _ h
  obtain ⟨final, hfinal, hget⟩ := resolveSteps_ok lib _ _ hallowed plan.planned
  rw [hfinal] at h
  cases h
  exact ⟨hcomplete, hallowed, hget⟩

variable (plan : MergePlan rt) (answers : MergeAnswers)

/-- Any order of the conflicts selects the same values. -/
def OrderFree (selected : Dict Coordinate MergeValue) : Prop :=
  ∀ conflicts (h : conflicts.Perm plan.conflicts),
    ∃ selected', resolvedChanges lib (plan.reorder conflicts h) answers = .ok selected' ∧
      ∀ k, selected'.get? k = selected.get? k

/-- Where the document of an edge ends. -/
def EndsAt (document : Json) (nodeId : String) : Prop :=
  ∃ fields, document = .obj fields ∧
    (Assoc.find "source" fields = some (.str nodeId) ∨
      Assoc.find "target" fields = some (.str nodeId))

/-- No edge is selected as present while one of its endpoints is selected as removed. -/
def EdgesEndAtNodes (selected : Dict Coordinate MergeValue) : Prop :=
  ∀ id document nodeId, selected.get? ⟨.edges, some id, none⟩ = some (.present document) →
    EndsAt document nodeId → selected.get? ⟨.nodes, some nodeId, none⟩ ≠ some .missing

/-- Two conflicts that both settle a coordinate settle it alike. -/
def Unanimous : Prop :=
  plan.conflicts.Pairwise fun c c' =>
    Agree (decision lib plan.toMergePlanningContext answers c)
      (decision lib plan.toMergePlanningContext answers c')

/-- The value comes from a conflict's answer, or from a planned change at a coordinate that no
answer settles. -/
def Brings (k : Coordinate) (value : MergeValue) : Prop :=
  (∃ c ∈ plan.conflicts, decision lib plan.toMergePlanningContext answers c k = some (some value)) ∨
    ((∀ c ∈ plan.conflicts, decision lib plan.toMergePlanningContext answers c k = none) ∧
      plan.planned.get? k = some value)

/-- An answer to the conflict may select the value. -/
def MergeConflict.Offers (k : Coordinate) (value : MergeValue) : MergeConflict → Prop
  | .field c => k = c.coordinate
  | .nodeGroup c => ∃ field ∈ c.fields, k = field.coordinate
  | .presence c => k = ⟨c.collection, some c.entityId, none⟩ ∧
      (value = .missing ∨ value = c.removedOn.survivor c.branch c.destination)
  | .incident c => (k = ⟨.nodes, some c.nodeId, none⟩ ∧
        (value = .missing ∨ value = c.removedOn.survivor c.branch c.destination)) ∨
      ∃ edge ∈ c.incidentEdges, (k = ⟨.edges, edge.entityId, none⟩ ∧ value = .missing) ∨
        (k = edge.coordinate ∧ value = c.removedOn.survivor edge.branch edge.destination)

/-- A planned change or an answer to a conflict may select the value. -/
def MergePlan.Offers (k : Coordinate) (value : MergeValue) : Prop :=
  (∃ c ∈ plan.directChanges ++ plan.reviewGroups.flatMap (·.changes),
      c.coordinate = k ∧ c.branch = value) ∨
    ∃ c ∈ plan.conflicts, c.Offers k value

/-- The conflict decides on the node, which one side still has, and on the edge with it. -/
structure IncidentEdgeConflict.Owns (c : IncidentEdgeConflict) (nodeId id : String) : Prop where
  node : c.nodeId = nodeId
  survives : (c.removedOn.survivor c.branch c.destination).isPresent = true
  edges : ∀ edge ∈ c.incidentEdges, edge.collection = .edges ∧ edge.fieldName = none
  edge : ∃ edge ∈ c.incidentEdges, edge.entityId = some id

/-- The removal of a node owns its edges: of the edges that the plan offers at a node whose
removal it offers, each stands in the node's conflict. -/
def MergePlan.Guarded : Prop :=
  ∀ id document nodeId, plan.Offers ⟨.edges, some id, none⟩ (.present document) →
    EndsAt document nodeId → plan.Offers ⟨.nodes, some nodeId, none⟩ .missing →
    ∃ c, .incident c ∈ plan.conflicts ∧ c.Owns nodeId id

/-- The answers leave out one of the two where no removal of a node owns its edge. -/
def KeepsApart : Prop :=
  ∀ id document nodeId, plan.Offers ⟨.edges, some id, none⟩ (.present document) →
    EndsAt document nodeId → plan.Offers ⟨.nodes, some nodeId, none⟩ .missing →
    (∀ c, .incident c ∈ plan.conflicts → ¬c.Owns nodeId id) →
    Brings lib plan answers ⟨.edges, some id, none⟩ (.present document) →
    ¬Brings lib plan answers ⟨.nodes, some nodeId, none⟩ .missing

variable {plan answers}

theorem orderFree_iff {selected : Dict Coordinate MergeValue}
    (h : resolvedChanges lib plan answers = .ok selected) :
    OrderFree lib plan answers selected ↔ Unanimous lib plan answers := by
  obtain ⟨hcomplete, hallowed, hget⟩ := resolvedChanges_ok lib h
  rw [Unanimous, ← layAll_perm_iff plan.planned.get?]
  have hreorder : ∀ conflicts (hperm : conflicts.Perm plan.conflicts),
      ∃ selected', resolvedChanges lib (plan.reorder conflicts hperm) answers = .ok selected' ∧
        selected'.get? = layAll plan.planned.get?
          (conflicts.map (decision lib plan.toMergePlanningContext answers)) := by
    intro conflicts hperm
    have hcomplete' : Complete (plan.reorder conflicts hperm) answers :=
      ⟨fun key => (hcomplete.1 key).trans (hperm.map _).mem_iff.symm, hcomplete.2⟩
    obtain ⟨selected', hok, hget'⟩ := resolveSteps_ok lib plan.toMergePlanningContext answers
      (fun c hc => hallowed c (hperm.mem_iff.mp hc)) plan.planned
    refine ⟨selected', ?_, hget'⟩
    rw [resolvedChanges_eq lib hcomplete']
    exact hok
  constructor
  · intro hfree conflicts hperm
    obtain ⟨selected', hok, hsame⟩ := hfree conflicts hperm
    obtain ⟨selected'', hok', hget'⟩ := hreorder conflicts hperm
    rw [hok] at hok'
    cases hok'
    rw [← hget', ← hget]
    exact funext hsame
  · intro hsame conflicts hperm
    obtain ⟨selected', hok, hget'⟩ := hreorder conflicts hperm
    refine ⟨selected', hok, fun k => ?_⟩
    rw [hget', hsame conflicts hperm, hget]

theorem selected_iff {selected : Dict Coordinate MergeValue}
    (h : resolvedChanges lib plan answers = .ok selected)
    (hunanimous : Unanimous lib plan answers) (k : Coordinate) (value : MergeValue) :
    selected.get? k = some value ↔ Brings lib plan answers k value := by
  rw [(resolvedChanges_ok lib h).2.2,
    layAll_eq_iff _ _ _ (List.pairwise_map.mpr hunanimous), Brings]
  simp only [List.mem_map, exists_exists_and_eq_and, forall_exists_index, and_imp,
    forall_apply_eq_imp_iff₂]

end Plans

section Shared

/-- The plan that a comparison gives when every change it finds is conflicted. -/
def conflictedPlan? (base source destination : GraphState rt) : Option (MergePlan rt) :=
  if h : ((compareGraphs base source destination).2.map (·.conflictId)).Nodup then
    some
      { baseGraph := base
        sourceGraph := source
        destinationGraph := destination
        directChanges := []
        conflicts := (compareGraphs base source destination).2
        reviewGroups := []
        nodup_conflictIds := h
        nodup_subjectKeys := List.nodup_nil }
  else none

def filedPair : Patch .plain :=
  firstPatch [.createNodes [experimentDraft "exp/a", decisionDraft "dec/a"]]

def removedPair : Patch .plain :=
  { firstPatch [.removeNodes ["exp/a", "dec/a"]] with revision := 2 }

def relatedPair : Patch .plain :=
  { firstPatch [.createEdges [governedDraft "exp/a" "dec/a"]] with revision := 2 }

/-- A validator that refuses nothing. -/
def FieldValidator.lenient : FieldValidator .plain := ⟨fun _ _ _ => none, fun _ => ""⟩

/-- The Decision stays removed, and the Experiment is kept with its new edge. -/
def oppositeAnswers : MergeAnswers where
  answers :=
    .ofList
      [ (coordinateKey .plain .nodes (some "dec/a") none, .presence .keepRemoval),
        (coordinateKey .plain .nodes (some "exp/a") none, .presence .keepNode) ]
  cards := .empty

/-- The selection holds the edge and not its Decision. -/
def losesEndpoint (selected : Dict Coordinate MergeValue) : Bool :=
  (match selected.get? ⟨.edges, some "exp/a::governed_by::dec/a", none⟩ with
    | some (.present (.obj fields)) => decide (Assoc.find "target" fields = some (.str "dec/a"))
    | _ => false) &&
    decide (selected.get? ⟨.nodes, some "dec/a", none⟩ = some .missing)

theorem losesEndpoint_dangles {selected : Dict Coordinate MergeValue}
    (h : losesEndpoint selected = true) : ¬EdgesEndAtNodes selected := by
  rw [losesEndpoint, Bool.and_eq_true, decide_eq_true_eq] at h
  obtain ⟨hedge, hnode⟩ := h
  split at hedge
  · rename_i fields hpresent
    rw [decide_eq_true_eq] at hedge
    intro hends
    exact hends _ _ "dec/a" hpresent ⟨fields, rfl, .inr hedge⟩ hnode
  · cases hedge

theorem reached_losesEndpoint :
    ∃ base one other : GraphState .plain,
      applyValidPatch (.initial .plain ["repo"]) filedPair = .ok base ∧
      (applyValidPatch (base.record []) removedPair = .ok one ∧
        rejected (validatePatch (base.record []) removedPair
          { projectTruthScope := ["repo"] } {}) = false) ∧
      (applyValidPatch (base.record []) relatedPair = .ok other ∧
        rejected (validatePatch (base.record []) relatedPair
          { projectTruthScope := ["repo"] } {}) = false) ∧
      ((conflictedPlan? (base.record []) one other).any fun plan =>
        (resolvedChanges .lenient plan oppositeAnswers).toOption.any losesEndpoint) = true := by
  refine ⟨_, _, _, rfl, ⟨rfl, by decide +kernel⟩, ⟨rfl, by decide +kernel⟩, by decide +kernel⟩

theorem opposite_answers_dangle :
    ∃ base one other : GraphState .plain, Reachable (fun _ _ => True) base ∧
      Derived base one ∧ Derived base other ∧
      ∃ plan selected, conflictedPlan? base one other = some plan ∧
        resolvedChanges .lenient plan oppositeAnswers = .ok selected ∧
        ¬(OrderFree .lenient plan oppositeAnswers selected ∧ EdgesEndAtNodes selected) := by
  obtain ⟨base, one, other, hbase, ⟨hone, hone'⟩, ⟨hother, hother'⟩, hloses⟩ := reached_losesEndpoint
  obtain ⟨plan, hplan, hloses⟩ := (Option.any_eq_true _ _).mp hloses
  obtain ⟨selected, hselected, hloses⟩ := (Option.any_eq_true _ _).mp hloses
  refine ⟨base.record [], one, other, ?_, ?_, ?_, plan, selected, hplan,
    (toOption_eq_some _ _).mp hselected, fun hcoherent => losesEndpoint_dangles hloses hcoherent.2⟩
  · exact .accept _ base filedPair { projectTruthScope := ["repo"] } {} [] (.initial ["repo"])
      trivial (by decide +kernel) hbase
  · exact .accept _ one removedPair _ _ .refl hone' hone
  · exact .accept _ other relatedPair _ _ .refl hother' hother

end Shared

end RcpGraph
