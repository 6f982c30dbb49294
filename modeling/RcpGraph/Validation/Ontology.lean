import RcpGraph.Validation.Context

/-!
Rules for ontology changes and for the custom fields of nodes.
-/

namespace RcpGraph

open Schema

variable {rt : Runtime}

/-- `BASE_FIELD_NAMES`. -/
def baseFieldNames : List String :=
  [ "id", "title", "extension_type", "extension_fields", "standing", "created_rev", "updated_rev",
    "source_refs", "type", "question", "motivation", "scope", "status", "statement", "rationale",
    "predictions", "options", "selected_option", "consequences", "objective", "design", "proxies",
    "limitations", "expected_outcomes", "interpretation_rules", "completion_criteria",
    "invocation_ceiling", "attempts", "current_summary", "next_action", "current_summary_stale",
    "next_action_stale", "observation", "interpretation", "role", "legacy_strength", "validity",
    "origin", "artifact_refs", "description", "blocker_type", "resolution_condition",
    "recommended_action" ]

/-- Base fields that historical custom fields may share a name with. -/
def laterBaseFieldNames : List String := ["proxies", "limitations"]

def typeIssues (revision : Option Nat) (t : OntologyTypeDefinition) : List Issue :=
  rejectIf (NodeType.ofName? t.name).isSome "base-ontology-collision"
      ("Custom type " ++ Text.quoted t.name ++ " collides with an immutable base type.") revision ++
    rejectIf (t.layer ≠ t.baseType.layer) "invalid-base-mapping"
      ("Custom type " ++ Text.quoted t.name ++ " specializes " ++ Text.quoted t.baseType.name ++
        " and must use its " ++ Text.quoted t.baseType.layer.name ++ " layer.") revision

def fieldDefinitionIssues (knownTypes : List String) (replay : Bool) (revision : Option Nat)
    (f : OntologyFieldDefinition) : List Issue :=
  rejectIf (f.ownerType ∉ knownTypes) "unknown-ontology-owner"
      ("Field " ++ f.ownerType ++ "." ++ f.name ++ " has no known owner type.") revision ++
    rejectIf (f.name ∈ baseFieldNames && !(replay && f.name ∈ laterBaseFieldNames))
      "base-ontology-collision"
      ("Custom field " ++ f.ownerType ++ "." ++ f.name ++
        " collides with an immutable base field.") revision

def inheritedCollisions (o : OntologyState) (t : OntologyTypeDefinition) : List String :=
  Text.sortedSet
    (((o.fields.filter fun f => f.ownerType = t.name).map (·.name)).filter fun n =>
      n ∈ (o.fields.filter fun f => f.ownerType = t.baseType.name).map (·.name))

def relationIssues (knownTypes : List String) (revision : Option Nat)
    (r : OntologyRelationDefinition) : List Issue :=
  let unknown := Text.sortedSet ((r.sourceTypes ++ r.targetTypes).filter fun t => t ∉ knownTypes)
  rejectIf (relationSpec? r.name).isSome "base-ontology-collision"
      ("Custom relation " ++ Text.quoted r.name ++ " collides with an immutable base relation.")
      revision ++
    rejectIf (!decide r.sourceTypes.Nodup || !decide r.targetTypes.Nodup)
      "duplicate-relation-endpoint-type"
      ("Custom relation " ++ Text.quoted r.name ++ " repeats an endpoint type.") revision ++
    rejectIf (unknown ≠ []) "unknown-relation-type"
      ("Custom relation " ++ Text.quoted r.name ++ " names unknown endpoint types: " ++
        Text.quotedList unknown ++ ".") revision

/-- `validate_ontology_structure`. -/
def validateOntologyStructure (o : OntologyState) (revision : Option Nat) (replay : Bool) :
    List Issue :=
  let knownTypes := NodeType.all.map NodeType.name ++ o.types.map (·.name)
  o.types.flatMap (typeIssues revision) ++
    o.fields.flatMap (fieldDefinitionIssues knownTypes replay revision) ++
    o.types.flatMap (fun t =>
      rejectIf (inheritedCollisions o t ≠ []) "ontology-field-collision"
        ("Custom type " ++ Text.quoted t.name ++ " redeclares inherited project fields: " ++
          Text.quotedList (inheritedCollisions o t) ++ ".") revision) ++
    o.relations.flatMap (relationIssues knownTypes revision)

/-- `_require_deprecation_before_removal` for one kind of definition. -/
def removalIssues (label : String) (previous : List (String × Bool)) (desired : List String)
    (revision : Option Nat) : List Issue :=
  (Text.sortedByKey Prod.fst (previous.filter fun e => e.1 ∉ desired)).flatMap fun (key, deprecated) =>
    rejectIf (!deprecated) "ontology-removal-without-deprecation"
      ("Ontology " ++ label ++ " " ++ key ++
        " must be deprecated in an earlier revision before removal.") revision

/-- The printed key of a custom field. -/
def fieldKey (f : OntologyFieldDefinition) : String :=
  "(" ++ Text.quoted f.ownerType ++ ", " ++ Text.quoted f.name ++ ")"

def orNone (ids : List String) : List String := if ids.isEmpty then ["none"] else ids

def typeChangeIssues (s : GraphState rt) (desired : OntologyState) (revision : Option Nat)
    (previous : OntologyTypeDefinition) : List Issue :=
  match desired.types.find? fun t => t.name = previous.name with
  | none => []
  | some current =>
      let blockers := Text.sortedSet
        ((s.nodes.values.filter fun n => n.extensionType = some previous.name).map (·.id))
      rejectIf (current.baseType ≠ previous.baseType || current.layer ≠ previous.layer)
        "ontology-type-remap"
        ("Custom type " ++ Text.quoted previous.name ++
          " cannot change its base mapping; implicated nodes: " ++
          Text.quotedList (orNone blockers) ++ ".") revision blockers

def extensionValue (n : ProjectNode rt) (name : String) : Option Json :=
  (n.field? "extension_fields").bind fun j => j.get? name

def fieldChangeIssues (s : GraphState rt) (revision : Option Nat)
    (current : OntologyFieldDefinition) : List Issue :=
  let previous := s.ontology.fields.find? fun f =>
    f.ownerType = current.ownerType && f.name = current.name
  let applicable := s.nodes.values.filter fun n => fieldApplies n current
  let label := current.ownerType ++ "." ++ current.name
  let missing := Text.sortedSet
    ((applicable.filter fun n => (extensionValue n current.name).isNone).map (·.id))
  let mismatched := Text.sortedSet
    ((applicable.filter fun n =>
      (extensionValue n current.name).any fun v => !fieldValueMatches current v).map (·.id))
  rejectIf (current.required && previous.all (fun f => !f.required) && missing ≠ [])
      "required-field-breaks-existing-nodes"
      ("Field " ++ label ++ " cannot become required; missing on nodes: " ++
        Text.quotedList missing ++ ".") revision missing ++
    rejectIf (previous.any (fun f => f.kind ≠ current.kind) && mismatched ≠ [])
      "field-kind-breaks-existing-nodes"
      ("Field " ++ label ++ " cannot change to " ++ current.kind.name ++ "; implicated nodes: " ++
        Text.quotedList mismatched ++ ".") revision mismatched

def relationChangeIssues (s : GraphState rt) (desired : OntologyState) (revision : Option Nat)
    (previous : OntologyRelationDefinition) : List Issue :=
  match desired.relations.find? fun r => r.name = previous.name with
  | none => []
  | some current =>
      let users := s.edges.values.filter fun e => e.relation = previous.name
      let excluded := users.filter fun e => !edgeMatchesRelation s e.source e.target current
      let endpoints := fun (es : List Edge) =>
        Text.sortedSet (es.flatMap fun e => [e.source, e.target])
      let ids := fun (es : List Edge) => Text.sortedSet (es.map (·.id))
      rejectIf (previous.layer ≠ current.layer && !users.isEmpty)
          "relation-layer-breaks-existing-edges"
          ("Relation " ++ Text.quoted previous.name ++ " cannot change layer while used by edges: " ++
            Text.quotedList (ids users) ++ ".") revision (endpoints users) (ids users) ++
        rejectIf (!excluded.isEmpty) "relation-narrowing-breaks-existing-edges"
          ("Relation " ++ Text.quoted previous.name ++ " cannot exclude existing edges " ++
            Text.quotedList (ids excluded) ++ "; implicated nodes: " ++
            Text.quotedList (endpoints excluded) ++ ".") revision (endpoints excluded) (ids excluded)

/-- `validate_ontology_change`. -/
def validateOntologyChange (s : GraphState rt) (desired : OntologyState) (revision : Option Nat) :
    List Issue :=
  removalIssues "type" (s.ontology.types.map fun t => (Text.quoted t.name, t.deprecated))
      (desired.types.map fun t => Text.quoted t.name) revision ++
    removalIssues "field" (s.ontology.fields.map fun f => (fieldKey f, f.deprecated))
      (desired.fields.map fieldKey) revision ++
    removalIssues "relation" (s.ontology.relations.map fun r => (Text.quoted r.name, r.deprecated))
      (desired.relations.map fun r => Text.quoted r.name) revision ++
    s.ontology.types.flatMap (typeChangeIssues s desired revision) ++
    desired.fields.flatMap (fieldChangeIssues s revision) ++
    s.ontology.relations.flatMap (relationChangeIssues s desired revision)

/-- `_validate_one_field`. -/
def oneFieldIssues (nodeId : String) (d : OntologyFieldDefinition) (value : Json)
    (revision : Option Nat) (authoring agentAuthored checkKind : Bool) : List Issue :=
  let label := d.ownerType ++ "." ++ d.name
  rejectIf (checkKind && !fieldValueMatches d value) "invalid-extension-field-kind"
      ("Field " ++ label ++ " on " ++ Text.quoted nodeId ++ " must be " ++ d.kind.name ++ ".")
      revision [nodeId] ++
    rejectIf (authoring && d.deprecated) "deprecated-extension-field"
      ("Field " ++ label ++ " is deprecated and cannot be written.") revision [nodeId] ++
    rejectIf (authoring && agentAuthored && !d.agentWritable) "extension-field-human-only"
      ("Field " ++ label ++ " may only be written by a human.") revision [nodeId]

/-- A definition under its name; the last one wins. -/
def definitionNamed (definitions : List OntologyFieldDefinition) (name : String) :
    Option OntologyFieldDefinition :=
  definitions.reverse.find? fun d => d.name = name

def missingRequired (definitions : List OntologyFieldDefinition) (fields : Doc) : List String :=
  Text.sortedSet
    ((definitions.filter fun d => d.required && (Assoc.find d.name fields).isNone).map (·.name))

/-- `_validate_extension_fields`. -/
def extensionFieldsIssues (nodeId : String) (fields : Doc)
    (definitions : List OntologyFieldDefinition) (revision : Option Nat)
    (authoring agentAuthored structural : Bool) : List Issue :=
  let unknown := Text.sortedSet
    ((fields.map Prod.fst).filter fun n => (definitionNamed definitions n).isNone)
  let missing := missingRequired definitions fields
  rejectIf (structural && unknown ≠ []) "unknown-extension-field"
      ("Node " ++ Text.quoted nodeId ++ " uses undefined extension fields: " ++
        Text.quotedList unknown ++ ".") revision [nodeId] ++
    fields.flatMap (fun (name, value) =>
      match definitionNamed definitions name with
      | none => []
      | some d => oneFieldIssues nodeId d value revision authoring agentAuthored structural) ++
    rejectIf (structural && missing ≠ []) "missing-required-extension-field"
      ("Node " ++ Text.quoted nodeId ++ " is missing required extension fields: " ++
        Text.quotedList missing ++ ".") revision [nodeId]

/-- `validate_new_node_extensions`. -/
def newNodeExtensionIssues (s : GraphState rt) (raw : RawNode rt) (revision : Option Nat)
    (authoring agentAuthored : Bool) : List Issue :=
  (match raw.declaredExtension with
    | none => []
    | some ext =>
        match ontologyType s.ontology ext with
        | none =>
            rejectIf (!authoring) "unknown-extension-type"
              ("Node " ++ Text.quoted raw.id ++ " uses unknown custom type " ++ Text.quoted ext ++
                ".") revision
        | some definition =>
            if authoring then
              rejectIf definition.deprecated "deprecated-extension-type"
                ("Custom type " ++ Text.quoted ext ++
                  " is deprecated and cannot author new nodes.") revision
            else
              rejectIf (definition.baseType ≠ raw.type) "invalid-extension-base"
                ("Custom type " ++ Text.quoted ext ++ " maps to " ++
                  Text.quoted definition.baseType.name ++ ", not " ++ Text.quoted raw.type.name ++
                  ".") revision) ++
    extensionFieldsIssues raw.id (((raw.field? "extension_fields").bind Json.obj?).getD [])
      (applicableFieldDefinitions s.ontology raw.type raw.declaredExtension) revision authoring
      agentAuthored (!authoring)

/-- `validate_updated_extension_fields`. -/
def updatedExtensionIssues (s : GraphState rt) (node : ProjectNode rt)
    (changes : Dict String Json) (revision : Option Nat) (authoring agentAuthored : Bool) :
    List Issue :=
  match (changes.get? "extension_fields").bind Json.obj? with
  | none => []
  | some fields =>
      let definitions := applicableFieldDefinitions s.ontology node.type node.extensionType
      let old := ((node.field? "extension_fields").bind Json.obj?).getD []
      let same := fun name =>
        match Assoc.find name old, Assoc.find name fields with
        | some a, some b => a.pyEq b
        | _, _ => false
      let touched := Text.sortedSet
        ((old.map Prod.fst ++ fields.map Prod.fst).filter fun name => !same name)
      let missing := if authoring then [] else missingRequired definitions fields
      touched.flatMap (fun name =>
        match definitionNamed definitions name with
        | none =>
            rejectIf (!authoring) "unknown-extension-field"
              ("Node " ++ Text.quoted node.id ++ " cannot change undefined extension field " ++
                Text.quoted name ++ ".") revision [node.id]
        | some d =>
            match Assoc.find name fields with
            | none => []
            | some value =>
                oneFieldIssues node.id d value revision authoring agentAuthored (!authoring)) ++
        rejectIf (missing ≠ []) "missing-required-extension-field"
          ("Node " ++ Text.quoted node.id ++ " is missing required extension fields: " ++
            Text.quotedList missing ++ ".") revision [node.id]

end RcpGraph
