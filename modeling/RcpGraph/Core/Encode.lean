import RcpGraph.Core.Patch

/-!
JSON documents of operations, patches and traces, as they are persisted and
hashed. A field is written when its author set it; where the model does not keep
that, a field with its default value is left out.
-/

namespace RcpGraph

open Schema

variable {rt : Runtime}

namespace Encode

def texts (xs : List String) : Json := Json.strArr xs

def nat (n : Nat) : Json := .num n

def optText : Option String → Json := Json.ofOption

def optNat : Option Nat → Json
  | some n => nat n
  | none => .null

/-- A field that is written only when it differs from its default. -/
def nonDefault {α : Type} [DecidableEq α] (name : String) (value dflt : α) (enc : α → Json) : Doc :=
  if value = dflt then [] else [(name, enc value)]

/-- A field whose author may have left it out. -/
def written {α : Type} (name : String) (value : Option α) (enc : α → Json) : Doc :=
  match value with
  | none => []
  | some a => [(name, enc a)]

def cause : BeliefCause → Json
  | .evidenceEdge ref => .obj [("kind", .str "evidence_edge"), ("ref_id", .str ref)]
  | .decision ref => .obj [("kind", .str "decision"), ("ref_id", .str ref)]
  | .proposalResolution ref => .obj [("kind", .str "proposal_resolution"), ("ref_id", .str ref)]
  | .humanEdit => .obj [("kind", .str "human_edit")]

def optCause : Option BeliefCause → Json
  | some c => cause c
  | none => .null

end Encode

open Encode

/-- `model_dump(exclude_unset=True)` of a created node. -/
def RawNode.dump (raw : RawNode rt) : Doc :=
  [("id", .str raw.id), ("type", .str raw.type.name)] ++
    written "extension_type" raw.extensionType optText ++
    written "standing" raw.standing (fun s => .str s.name) ++
    written "created_rev" raw.createdRev .num ++
    written "updated_rev" raw.updatedRev .num ++
    raw.content

/-- `model_dump()` of a node of the graph. -/
def ProjectNode.dump (n : ProjectNode rt) : Doc :=
  [ ("id", .str n.id), ("type", .str n.type.name), ("extension_type", optText n.extensionType),
    ("standing", .str n.standing.name), ("created_rev", nat n.createdRev),
    ("updated_rev", nat n.updatedRev) ] ++ n.content

def Assessment.encode (a : Assessment) : Json := a.json

def optAssessment : Option Assessment → Json
  | some a => a.encode
  | none => .null

def optExpectation : Option EdgeExpectation → Json
  | some e => .str e.name
  | none => .null

def NewEdge.dump (e : NewEdge) : Doc :=
  written "id" e.id optText ++
    [("source", .str e.source), ("target", .str e.target), ("relation", .str e.relation)] ++
    written "explanation" e.explanation .str ++
    written "assessment" e.assessment optAssessment ++
    written "expectation" e.expectation optExpectation

def Edge.dump (e : Edge) : Doc :=
  [ ("id", .str e.id), ("source", .str e.source), ("target", .str e.target),
    ("relation", .str e.relation), ("layer", .str e.layer.name),
    ("explanation", .str e.explanation), ("assessment", optAssessment e.assessment),
    ("expectation", optExpectation e.expectation), ("created_rev", nat e.createdRev) ]

def NodeUpdate.encode (u : NodeUpdate) : Json :=
  .obj
    ([("id", .str u.id), ("changes", .obj u.changes.entries)] ++
      nonDefault "cause" u.cause none optCause ++
      nonDefault "base_updated_rev" u.baseUpdatedRev none optNat)

def SupersedeNode.encode (i : SupersedeNode) : Json :=
  .obj
    ([("id", .str i.id)] ++ nonDefault "superseded_by" i.supersededBy none optText ++
      nonDefault "explanation" i.explanation "" .str ++ nonDefault "cause" i.cause none optCause)

def NodeMerge.encode (m : NodeMerge) : Json :=
  .obj
    ([("duplicate", .str m.duplicate), ("canonical", .str m.canonical)] ++
      nonDefault "explanation" m.explanation "" .str ++ nonDefault "cause" m.cause none optCause)

def AmbiguityStatus.name : AmbiguityStatus → String
  | .open => "open"
  | .resolved => "resolved"
  | .dismissed => "dismissed"

def NewAmbiguity.encode (a : NewAmbiguity) : Json :=
  .obj
    ([("id", .str a.id), ("question", .str a.question), ("why_it_matters", .str a.whyItMatters)] ++
      nonDefault "candidates" a.candidates [] texts ++
      nonDefault "related_node_ids" a.relatedNodeIds [] texts ++
      nonDefault "artifact_refs" a.artifactRefs [] texts ++
      nonDefault "status" a.status .open (fun s => .str s.name))

def AmbiguityResolution.encode (r : AmbiguityResolution) : Json :=
  .obj [("id", .str r.id), ("status", .str (if r.dismissed then "dismissed" else "resolved"))]

def ResolutionStatus.name : ResolutionStatus → String
  | .approved => "approved"
  | .rejected => "rejected"
  | .withdrawn => "withdrawn"

def ProposalResolution.encode (r : ProposalResolution) : Json :=
  .obj ([("id", .str r.id), ("status", .str r.status.name)] ++ nonDefault "reason" r.reason none optText)

def ProposalWithdrawal.encode (w : ProposalWithdrawal) : Json :=
  .obj ([("id", .str w.id)] ++ nonDefault "reason" w.reason "" .str)

def NewGlossaryTerm.encode (t : NewGlossaryTerm) : Json :=
  .obj
    ([("term", .str t.term), ("plain_definition", .str t.plainDefinition)] ++
      nonDefault "where_defined" t.whereDefined none optText)

def RepositoryDescriptor.encode (r : RepositoryDescriptor) : Json :=
  .obj
    ([("alias", .str r.repositoryAlias)] ++ nonDefault "machine" r.machine "" .str ++
      [("path", .str r.path)])

def optRepository : Option RepositoryDescriptor → Json
  | some r => r.encode
  | none => .null

def OntologyTypeDefinition.encode (t : OntologyTypeDefinition) : Json :=
  .obj
    ([ ("name", .str t.name), ("definition", .str t.definition),
       ("base_type", .str t.baseType.name), ("layer", .str t.layer.name) ] ++
      nonDefault "deprecated" t.deprecated false .bool)

def OntologyFieldDefinition.encode (f : OntologyFieldDefinition) : Json :=
  .obj
    ([ ("owner_type", .str f.ownerType), ("name", .str f.name), ("definition", .str f.definition),
       ("kind", .str f.kind.name) ] ++
      nonDefault "required" f.required false .bool ++
      nonDefault "agent_writable" f.agentWritable true .bool ++
      nonDefault "deprecated" f.deprecated false .bool)

def OntologyRelationDefinition.encode (r : OntologyRelationDefinition) : Json :=
  .obj
    ([ ("name", .str r.name), ("definition", .str r.definition),
       ("source_types", texts r.sourceTypes), ("target_types", texts r.targetTypes),
       ("layer", .str r.layer.name) ] ++
      nonDefault "deprecated" r.deprecated false .bool)

def OntologyState.encode (o : OntologyState) : Json :=
  .obj
    [ ("types", .arr (o.types.map OntologyTypeDefinition.encode)),
      ("fields", .arr (o.fields.map OntologyFieldDefinition.encode)),
      ("relations", .arr (o.relations.map OntologyRelationDefinition.encode)) ]

def ProposalOperation.intent : ProposalOperation rt → String
  | .contentChange legacy _ => if legacy then "legacy_content_change" else "content_change"
  | .statusChange legacy _ => if legacy then "legacy_status_change" else "status_change"
  | .standingChange _ _ => "standing_change"
  | .removal legacy _ => if legacy then "legacy_removal" else "removal"
  | .supersede legacy _ => if legacy then "legacy_supersede" else "supersede"
  | .merge legacy _ => if legacy then "legacy_merge" else "merge"
  | .createRelations legacy _ | .removeRelations legacy _ =>
      if legacy then "legacy_protected_relation_change" else "protected_relation_change"
  | .legacyTruthScope _ _ => "legacy_project_truth_scope_change"
  | .legacyOntology _ => "legacy_ontology_change"
  | .legacyCreateNodes _ => "legacy_create_nodes"
  | .legacyCreateAmbiguities _ => "legacy_create_ambiguities"
  | .legacyResolveAmbiguities _ => "legacy_resolve_ambiguities"
  | .legacyUpsertGlossary _ => "legacy_upsert_glossary"
  | .legacySetCoverage _ => "legacy_set_coverage"

/-- The payload fields of an operation, without its discriminators. -/
def GraphOperation.payload : GraphOperation rt → Doc
  | .createNodes nodes => [("nodes", .arr (nodes.map fun n => .obj n.dump))]
  | .updateNodes nodes => [("nodes", .arr (nodes.map NodeUpdate.encode))]
  | .createEdges edges => [("edges", .arr (edges.map fun e => .obj e.dump))]
  | .removeEdges ids => [("edge_ids", texts ids)]
  | .removeNodes ids => [("node_ids", texts ids)]
  | .supersedeNodes nodes => [("nodes", .arr (nodes.map SupersedeNode.encode))]
  | .mergeNodes merges => [("merges", .arr (merges.map NodeMerge.encode))]
  | .createAmbiguities ambiguities =>
      [("ambiguities", .arr (ambiguities.map NewAmbiguity.encode))]
  | .resolveAmbiguities resolutions =>
      [("resolutions", .arr (resolutions.map AmbiguityResolution.encode))]
  | .createProposals _ => []
  | .resolveProposals resolutions =>
      [("resolutions", .arr (resolutions.map ProposalResolution.encode))]
  | .withdrawProposals proposals =>
      [("proposals", .arr (proposals.map ProposalWithdrawal.encode))]
  | .upsertGlossary terms => [("terms", .arr (terms.map NewGlossaryTerm.encode))]
  | .setCoverage coverage => [("coverage", coverage)]
  | .setStanding id standing => [("node_id", .str id), ("standing", .str standing.name)]
  | .setProjectTruthScope scope repository =>
      [("truth_scope", texts scope)] ++ nonDefault "repository" repository none optRepository
  | .setOntology ontology => [("ontology", ontology.encode)]

/-- A Proposal's operation keeps its intent unless that is a `legacy_` one. -/
def ProposalOperation.encode (op : ProposalOperation rt) : Json :=
  .obj
    ([("op", .str op.toGraphOperation.op)] ++
      (if op.isLegacy then [] else [("intent", .str op.intent)]) ++ op.toGraphOperation.payload)

def GatedCard.encode (c : GatedCard) : Json :=
  .obj
    [ ("situation_cold", .str c.situationCold), ("why_human_now", .str c.whyHumanNow),
      ("consequences", .str c.consequences), ("decision_needed", .str c.decisionNeeded) ]

def ProposalStatus.name : ProposalStatus → String
  | .pending => "pending"
  | .approved => "approved"
  | .rejected => "rejected"
  | .withdrawn => "withdrawn"

def optAuthor : Option Author → Json
  | some a => .str a.name
  | none => .null

def NewProposal.encode (raw : NewProposal rt) : Json :=
  let p := raw.proposal
  .obj
    ([ ("id", .str p.id), ("title", .str p.title), ("card", p.card.encode),
       ("ops", .arr (p.ops.map ProposalOperation.encode)) ] ++
      nonDefault "related_node_ids" p.relatedNodeIds [] texts ++
      nonDefault "related_edge_ids" p.relatedEdgeIds [] texts ++
      nonDefault "related_config_keys" p.relatedConfigKeys [] texts ++
      nonDefault "dependency_rule" p.dependencyRule .nodesAndEdges (fun r => nat r.number) ++
      nonDefault "base_rev" p.baseRev 0 nat ++
      nonDefault "status" p.status .pending (fun s => .str s.name) ++
      (if raw.createdBySet then [("created_by", .str p.createdBy.name)] else []) ++
      (if raw.createdByOperationIdSet then
        [("created_by_operation_id", optText p.createdByOperationId)] else []) ++
      nonDefault "raised_rev" p.raisedRev 0 nat ++
      nonDefault "resolved_rev" p.resolvedRev none optNat ++
      nonDefault "resolved_by" p.resolvedBy none optAuthor ++
      nonDefault "resolved_by_operation_id" p.resolvedByOperationId none optText ++
      nonDefault "resolution_reason" p.resolutionReason none optText ++
      nonDefault "rejection_reason" p.rejectionReason none optText)

/-- `operation.model_dump(mode="json", exclude_unset=True)`. -/
def GraphOperation.encode (op : GraphOperation rt) : Json :=
  match op with
  | .createProposals proposals =>
      .obj [("op", .str "create_proposals"), ("proposals", .arr (proposals.map NewProposal.encode))]
  | op => .obj (("op", .str op.op) :: op.payload)

end RcpGraph
