import RcpGraph.Core.Encode

/-!
`semantic_document`: what an entity of the graph says, with its identity and without the
bookkeeping the engine recomputes. Nested operations of a Proposal are written in full.
-/

namespace RcpGraph

open Schema Encode

variable {rt : Runtime}

namespace Semantic

/-- The bookkeeping a node carries among its content. -/
def engineMarks : List String := ["current_summary_stale", "next_action_stale"]

def assessment : Option Assessment → Json
  | some a => a.full.json
  | none => .null

def nodeUpdate (u : NodeUpdate) : Json :=
  .obj [("id", .str u.id), ("changes", .obj u.changes.entries), ("cause", optCause u.cause)]

def supersedeNode (i : SupersedeNode) : Json :=
  .obj
    [ ("id", .str i.id), ("superseded_by", optText i.supersededBy),
      ("explanation", .str i.explanation), ("cause", optCause i.cause) ]

def nodeMerge (m : NodeMerge) : Json :=
  .obj
    [ ("duplicate", .str m.duplicate), ("canonical", .str m.canonical),
      ("explanation", .str m.explanation), ("cause", optCause m.cause) ]

def newEdge (e : NewEdge) : Json :=
  .obj
    [ ("id", optText e.id.join), ("source", .str e.source), ("target", .str e.target),
      ("relation", .str e.relation), ("explanation", .str (e.explanation.getD "")),
      ("assessment", assessment e.assessment.join),
      ("expectation", optExpectation e.expectation.join) ]

def newAmbiguity (a : NewAmbiguity) : Doc :=
  [ ("id", .str a.id), ("question", .str a.question), ("why_it_matters", .str a.whyItMatters),
    ("candidates", texts a.candidates), ("related_node_ids", texts a.relatedNodeIds),
    ("artifact_refs", texts a.artifactRefs), ("status", .str a.status.name) ]

def newGlossaryTerm (t : NewGlossaryTerm) : Doc :=
  [ ("term", .str t.term), ("plain_definition", .str t.plainDefinition),
    ("where_defined", optText t.whereDefined) ]

def ontologyType (t : OntologyTypeDefinition) : Json :=
  .obj
    [ ("name", .str t.name), ("definition", .str t.definition),
      ("base_type", .str t.baseType.name), ("layer", .str t.layer.name),
      ("deprecated", .bool t.deprecated) ]

def ontologyField (f : OntologyFieldDefinition) : Json :=
  .obj
    [ ("owner_type", .str f.ownerType), ("name", .str f.name), ("definition", .str f.definition),
      ("kind", .str f.kind.name), ("required", .bool f.required),
      ("agent_writable", .bool f.agentWritable), ("deprecated", .bool f.deprecated) ]

def ontologyRelation (r : OntologyRelationDefinition) : Json :=
  .obj
    [ ("name", .str r.name), ("definition", .str r.definition),
      ("source_types", texts r.sourceTypes), ("target_types", texts r.targetTypes),
      ("layer", .str r.layer.name), ("deprecated", .bool r.deprecated) ]

def ontology (o : OntologyState) : Json :=
  .obj
    [ ("types", .arr (o.types.map ontologyType)), ("fields", .arr (o.fields.map ontologyField)),
      ("relations", .arr (o.relations.map ontologyRelation)) ]

def node (n : ProjectNode rt) : Doc :=
  [ ("id", .str n.id), ("type", .str n.type.name), ("extension_type", optText n.extensionType),
    ("standing", .str n.standing.name) ] ++
    n.content.filter fun field => decide (field.1 ∉ engineMarks)

def edge (e : Edge) : Doc :=
  [ ("id", .str e.id), ("source", .str e.source), ("target", .str e.target),
    ("relation", .str e.relation), ("layer", .str e.layer.name),
    ("explanation", .str e.explanation), ("assessment", assessment e.assessment),
    ("expectation", optExpectation e.expectation) ]

/-- The payload of a Proposal's operation, its defaults written out. -/
def payload : ProposalOperation rt → Doc
  | .contentChange _ nodes | .statusChange _ nodes => [("nodes", .arr (nodes.map nodeUpdate))]
  | .standingChange nodeId standing =>
      [("node_id", .str nodeId), ("standing", .str standing.name)]
  | .removal _ nodeIds => [("node_ids", texts nodeIds)]
  | .supersede _ nodes => [("nodes", .arr (nodes.map supersedeNode))]
  | .merge _ merges => [("merges", .arr (merges.map nodeMerge))]
  | .createRelations _ edges => [("edges", .arr (edges.map newEdge)), ("edge_ids", .null)]
  | .removeRelations _ edgeIds => [("edges", .null), ("edge_ids", texts edgeIds)]
  | .legacyTruthScope scope repository =>
      [("truth_scope", texts scope), ("repository", optRepository repository)]
  | .legacyOntology o => [("ontology", ontology o)]
  | .legacyCreateNodes nodes => [("nodes", .arr (nodes.map fun raw => .obj (node (raw.create 0))))]
  | .legacyCreateAmbiguities ambiguities =>
      [("ambiguities", .arr (ambiguities.map fun a => .obj (newAmbiguity a)))]
  | .legacyResolveAmbiguities resolutions =>
      [("resolutions", .arr (resolutions.map AmbiguityResolution.encode))]
  | .legacyUpsertGlossary terms => [("terms", .arr (terms.map fun t => .obj (newGlossaryTerm t)))]
  | .legacySetCoverage coverage => [("coverage", coverage)]

def operation (op : ProposalOperation rt) : Json :=
  .obj ([("op", .str op.toGraphOperation.op), ("intent", .str op.intent)] ++ payload op)

def proposal (p : Proposal rt) : Doc :=
  [ ("id", .str p.id), ("title", .str p.title), ("card", p.card.encode),
    ("ops", .arr (p.ops.map operation)), ("status", .str p.status.name),
    ("resolved_by", optAuthor p.resolvedBy), ("resolution_reason", optText p.resolutionReason),
    ("rejection_reason", optText p.rejectionReason) ]

end Semantic

/-- The names a node's document uses beside its content. -/
theorem content_name_fresh (n : ProjectNode rt) (name : String)
    (h : name ∈ n.content.map Prod.fst) :
    name ∉ ["id", "type", "extension_type", "standing"] := by
  rw [← n.conforms.complete, keys_completeFields] at h
  revert h
  cases n.type <;>
    simp only [names, contentFields, Fields.base, Fields.own, Fields.textField,
      Fields.optionalText, Fields.nullableText, Fields.listField, Fields.textsField,
      Fields.flagField, Fields.choiceField, Field.required, Field.withDefault, List.map_cons,
      List.map_nil, List.cons_append, List.nil_append, List.mem_cons, List.not_mem_nil,
      or_false] <;>
    intro h <;> rcases h with rfl | h <;> aesop

theorem nodup_node (n : ProjectNode rt) : ((Semantic.node n).map Prod.fst).Nodup := by
  rw [Semantic.node, List.map_append, List.nodup_append]
  refine ⟨by simp, ?_, ?_⟩
  · exact n.nodup_content.sublist (List.filter_sublist.map _)
  · intro a ha b hb hab
    refine content_name_fresh n b ?_ (by simpa [hab] using ha)
    obtain ⟨field, hfield, rfl⟩ := List.mem_map.mp hb
    exact List.mem_map_of_mem (List.mem_of_mem_filter hfield)

/-- An entity as it is compared: its document and the names of its content fields. -/
structure Entity where
  document : Doc
  content : List String
  nodup : (document.map Prod.fst).Nodup

namespace Entity

def ofNode (n : ProjectNode rt) : Entity where
  document := Semantic.node n
  content :=
    "standing" :: (names (contentFields rt n.type)).filter fun name =>
      decide (name ∉ Semantic.engineMarks)
  nodup := nodup_node n

def ofEdge (e : Edge) : Entity where
  document := Semantic.edge e
  content :=
    ["source", "target", "relation", "layer", "explanation", "assessment", "expectation"]
  nodup := by simp [Semantic.edge]

def ofProposal (p : Proposal rt) : Entity where
  document := Semantic.proposal p
  content :=
    ["title", "card", "ops", "status", "resolved_by", "resolution_reason", "rejection_reason"]
  nodup := by simp [Semantic.proposal]

def ofAmbiguity (a : Ambiguity) : Entity where
  document := Semantic.newAmbiguity a.toNewAmbiguity
  content :=
    ["question", "why_it_matters", "candidates", "related_node_ids", "artifact_refs", "status"]
  nodup := by simp [Semantic.newAmbiguity]

def ofGlossaryTerm (t : GlossaryTerm) : Entity where
  document := Semantic.newGlossaryTerm t.toNewGlossaryTerm
  content := ["plain_definition", "where_defined"]
  nodup := by simp [Semantic.newGlossaryTerm]

end Entity

end RcpGraph
