import RcpGraph.Core.Node

/-!
Edges, ontology definitions, Proposals and the operation vocabulary of a patch.
Payloads keep which optional fields were written wherever a later rule looks at
it; the remaining payloads carry plain values.
-/

namespace RcpGraph

open Schema

namespace Fields

/-- A text stored stripped, not blank and of bounded length. -/
def boundedText (refusal : String) (most : Nat) : Normal where
  run s :=
    if Text.strip s = "" then .error refusal
    else if (Text.strip s).length ≤ most then .ok (Text.strip s)
    else .error ("String should have at most " ++ toString most ++ " characters")
  stable s t h := by
    split at h
    next => cases h
    next hs =>
      split at h
      next hm =>
        cases h
        simp [hs, hm]
      next => cases h

/-- Qualifications of one assessment: at most twelve, none twice. -/
def qualifications : Kind :=
  .guard
    (.list (.str (boundedText "Value error, assessment qualifications must not be blank" 300)))
    (fun j => decide (j.strings.Nodup) && decide (j.strings.length ≤ 12))
    "Value error, assessment qualifications must not contain duplicates"
    (by
      intro j hj
      cases j <;> simpa [Kind.list, Kind.str] using hj)

/-- `EvidenceAssessment`. -/
def assessment : Kind :=
  .record true
    [ .required "relevance" (choice ["direct", "indirect", "contextual"]),
      .required "weight" (choice ["limited", "moderate", "strong"]),
      .withDefault "scope"
        (.opt (.str (boundedText "Value error, assessment scope must not be blank" 500))) .null
        ⟨rfl, rfl⟩,
      .withDefault "qualifications" qualifications (.arr []) ⟨rfl, rfl⟩ ]
    (by simp [names, Field.required, Field.withDefault])

end Fields

/-- A claim-relative judgment of Evidence, as its author wrote it. -/
structure Assessment where
  json : Json
  ok : Fields.assessment.check strict json = .ok json

instance : DecidableEq Assessment := fun a b =>
  decidable_of_iff (a.json = b.json) (by cases a; cases b; simp)

/-- The assessment with its optional fields filled in. -/
def Assessment.full (a : Assessment) : Assessment :=
  ⟨Fields.assessment.complete a.json, (Fields.assessment.check_complete strict a.json a.ok strict).1⟩

structure Edge where
  id : String
  source : String
  target : String
  relation : String
  layer : RelationLayer
  explanation : String
  assessment : Option Assessment
  expectation : Option EdgeExpectation
  createdRev : Nat
  deriving DecidableEq

structure OntologyTypeDefinition where
  name : String
  definition : String
  baseType : NodeType
  layer : RelationLayer
  deprecated : Bool
  deriving DecidableEq, Repr

inductive FieldKind where
  | text
  | number
  | boolean
  | textList
  deriving DecidableEq, Repr

def FieldKind.name : FieldKind → String
  | text => "text"
  | number => "number"
  | boolean => "boolean"
  | textList => "text_list"

structure OntologyFieldDefinition where
  ownerType : String
  name : String
  definition : String
  kind : FieldKind
  required : Bool
  agentWritable : Bool
  deprecated : Bool
  deriving DecidableEq, Repr

structure OntologyRelationDefinition where
  name : String
  definition : String
  sourceTypes : List String
  targetTypes : List String
  layer : RelationLayer
  deprecated : Bool
  deriving DecidableEq, Repr

/-- The field constraints of the ontology models and their unique names. -/
def ontologyWellFormed (types : List OntologyTypeDefinition)
    (fields : List OntologyFieldDefinition) (relations : List OntologyRelationDefinition) : Bool :=
  (types.all fun t =>
    Text.isIdentifier t.name.toList && t.definition ≠ "" &&
      decide (t.layer = .epistemic ∨ t.layer = .action)) &&
  (fields.all fun f =>
    Text.isIdentifier f.ownerType.toList && Text.isIdentifier f.name.toList && f.definition ≠ "") &&
  (relations.all fun r =>
    Text.isIdentifier r.name.toList && r.definition ≠ "" && r.sourceTypes ≠ [] &&
      r.targetTypes ≠ [] && decide (r.layer = .epistemic ∨ r.layer = .action)) &&
  decide (types.map (·.name)).Nodup &&
  decide (fields.map fun f => f.ownerType ++ "." ++ f.name).Nodup &&
  decide (relations.map (·.name)).Nodup

structure OntologyState where
  types : List OntologyTypeDefinition
  fields : List OntologyFieldDefinition
  relations : List OntologyRelationDefinition
  ok : ontologyWellFormed types fields relations = true

instance : DecidableEq OntologyState := fun a b =>
  decidable_of_iff (a.types = b.types ∧ a.fields = b.fields ∧ a.relations = b.relations)
    (by cases a; cases b; simp)

def OntologyState.initial : OntologyState := ⟨[], [], [], rfl⟩

instance : Inhabited OntologyState := ⟨.initial⟩

inductive BeliefCause where
  | evidenceEdge (refId : String)
  | decision (refId : String)
  | proposalResolution (refId : String)
  | humanEdit
  deriving DecidableEq, Repr

structure NodeUpdate where
  id : String
  changes : Dict String Json
  cause : Option BeliefCause := none
  baseUpdatedRev : Option Nat := none
  deriving DecidableEq

structure SupersedeNode where
  id : String
  supersededBy : Option String := none
  explanation : String := ""
  cause : Option BeliefCause := none
  deriving DecidableEq, Repr

structure NodeMerge where
  duplicate : String
  canonical : String
  explanation : String := ""
  cause : Option BeliefCause := none
  deriving DecidableEq, Repr

/-- An edge as a patch writes it; `none` marks a field that was not written. -/
structure NewEdge where
  id : Option (Option String) := none
  source : String
  target : String
  relation : String
  explanation : Option String := none
  assessment : Option (Option Assessment) := none
  expectation : Option (Option EdgeExpectation) := none
  relation_ok : Text.isIdentifier relation.toList = true

instance : DecidableEq NewEdge := fun a b =>
  decidable_of_iff
    (a.id = b.id ∧ a.source = b.source ∧ a.target = b.target ∧ a.relation = b.relation ∧
      a.explanation = b.explanation ∧ a.assessment = b.assessment ∧
      a.expectation = b.expectation)
    (by cases a; cases b; simp)

/-- `edge.id or "<source>::<relation>::<target>"`. -/
def NewEdge.edgeId (e : NewEdge) : String :=
  match e.id with
  | some (some id) => if id = "" then derivedEdgeId e.source e.relation e.target else id
  | _ => derivedEdgeId e.source e.relation e.target

inductive AmbiguityStatus where
  | open
  | resolved
  | dismissed
  deriving DecidableEq, Repr

structure NewAmbiguity where
  id : String
  question : String
  whyItMatters : String
  candidates : List String := []
  relatedNodeIds : List String := []
  artifactRefs : List String := []
  status : AmbiguityStatus := .open
  deriving DecidableEq, Repr

/-- An ambiguity of the graph. -/
structure Ambiguity extends NewAmbiguity where
  raisedRev : Nat
  deriving DecidableEq, Repr

structure AmbiguityResolution where
  id : String
  dismissed : Bool
  deriving DecidableEq, Repr

inductive ProposalStatus where
  | pending
  | approved
  | rejected
  | withdrawn
  deriving DecidableEq, Repr

inductive ResolutionStatus where
  | approved
  | rejected
  | withdrawn
  deriving DecidableEq, Repr

def ResolutionStatus.toProposalStatus : ResolutionStatus → ProposalStatus
  | approved => .approved
  | rejected => .rejected
  | withdrawn => .withdrawn

structure ProposalResolution where
  id : String
  status : ResolutionStatus
  reason : Option String := none
  deriving DecidableEq, Repr

structure ProposalWithdrawal where
  id : String
  reason : String := ""
  deriving DecidableEq, Repr

structure NewGlossaryTerm where
  term : String
  plainDefinition : String
  whereDefined : Option String := none
  deriving DecidableEq, Repr

structure GlossaryTerm extends NewGlossaryTerm where
  updatedRev : Nat
  deriving DecidableEq, Repr

structure RepositoryDescriptor where
  repositoryAlias : String
  machine : String := ""
  path : String
  deriving DecidableEq, Repr

structure GatedCard where
  situationCold : String := ""
  whyHumanNow : String := ""
  consequences : String := ""
  decisionNeeded : String := ""
  deriving DecidableEq, Repr

/-- One effect a Proposal asks for. `legacy` marks the intents that only history
written before the intent discriminator carries. -/
inductive ProposalOperation (rt : Runtime) where
  | contentChange (legacy : Bool) (nodes : List NodeUpdate)
  | statusChange (legacy : Bool) (nodes : List NodeUpdate)
  | standingChange (nodeId : String) (standing : Standing)
  | removal (legacy : Bool) (nodeIds : List String)
  | supersede (legacy : Bool) (nodes : List SupersedeNode)
  | merge (legacy : Bool) (merges : List NodeMerge)
  | createRelations (legacy : Bool) (edges : List NewEdge)
  | removeRelations (legacy : Bool) (edgeIds : List String)
  | legacyTruthScope (truthScope : List String) (repository : Option RepositoryDescriptor)
  | legacyOntology (ontology : OntologyState)
  | legacyCreateNodes (nodes : List (RawNode rt))
  | legacyCreateAmbiguities (ambiguities : List NewAmbiguity)
  | legacyResolveAmbiguities (resolutions : List AmbiguityResolution)
  | legacyUpsertGlossary (terms : List NewGlossaryTerm)
  | legacySetCoverage (coverage : Json)
  deriving DecidableEq

/-- Which rule decides when a Proposal is stale. -/
inductive DependencyRule where
  | nodesAndEdges
  | causeEvidence
  | connectedReview
  deriving DecidableEq, Repr

/-- The number a persisted Proposal records for its rule. -/
def DependencyRule.number : DependencyRule → Nat
  | nodesAndEdges => 1
  | causeEvidence => 2
  | connectedReview => 3

structure Proposal (rt : Runtime) where
  id : String
  title : String
  card : GatedCard
  ops : List (ProposalOperation rt)
  relatedNodeIds : List String := []
  relatedEdgeIds : List String := []
  relatedConfigKeys : List String := []
  dependencyRule : DependencyRule := .nodesAndEdges
  baseRev : Nat := 0
  status : ProposalStatus := .pending
  createdBy : Author := .agent
  createdByOperationId : Option String := none
  raisedRev : Nat := 0
  resolvedRev : Option Nat := none
  resolvedBy : Option Author := none
  resolvedByOperationId : Option String := none
  resolutionReason : Option String := none
  rejectionReason : Option String := none
  deriving DecidableEq

/-- A Proposal as a patch files it, with the two filing stamps whose presence matters. -/
structure NewProposal (rt : Runtime) where
  proposal : Proposal rt
  createdBySet : Bool := false
  createdByOperationIdSet : Bool := false
  deriving DecidableEq

/-- One operation of a patch. -/
inductive GraphOperation (rt : Runtime) where
  | createNodes (nodes : List (RawNode rt))
  | updateNodes (nodes : List NodeUpdate)
  | createEdges (edges : List NewEdge)
  | removeEdges (edgeIds : List String)
  | removeNodes (nodeIds : List String)
  | supersedeNodes (nodes : List SupersedeNode)
  | mergeNodes (merges : List NodeMerge)
  | createAmbiguities (ambiguities : List NewAmbiguity)
  | resolveAmbiguities (resolutions : List AmbiguityResolution)
  | createProposals (proposals : List (NewProposal rt))
  | resolveProposals (resolutions : List ProposalResolution)
  | withdrawProposals (proposals : List ProposalWithdrawal)
  | upsertGlossary (terms : List NewGlossaryTerm)
  | setCoverage (coverage : Json)
  | setStanding (nodeId : String) (standing : Standing)
  | setProjectTruthScope (truthScope : List String) (repository : Option RepositoryDescriptor)
  | setOntology (ontology : OntologyState)
  deriving DecidableEq

variable {rt : Runtime}

/-- The operation's discriminator. -/
def GraphOperation.op : GraphOperation rt → String
  | .createNodes _ => "create_nodes"
  | .updateNodes _ => "update_nodes"
  | .createEdges _ => "create_edges"
  | .removeEdges _ => "remove_edges"
  | .removeNodes _ => "remove_nodes"
  | .supersedeNodes _ => "supersede_nodes"
  | .mergeNodes _ => "merge_nodes"
  | .createAmbiguities _ => "create_ambiguities"
  | .resolveAmbiguities _ => "resolve_ambiguities"
  | .createProposals _ => "create_proposals"
  | .resolveProposals _ => "resolve_proposals"
  | .withdrawProposals _ => "withdraw_proposals"
  | .upsertGlossary _ => "upsert_glossary"
  | .setCoverage _ => "set_coverage"
  | .setStanding _ _ => "set_standing"
  | .setProjectTruthScope _ _ => "set_project_truth_scope"
  | .setOntology _ => "set_ontology"

/-- `graph_operation_from_proposal`: drop the Proposal-only intent. -/
def ProposalOperation.toGraphOperation : ProposalOperation rt → GraphOperation rt
  | .contentChange _ nodes | .statusChange _ nodes => .updateNodes nodes
  | .standingChange nodeId standing => .setStanding nodeId standing
  | .removal _ nodeIds => .removeNodes nodeIds
  | .supersede _ nodes => .supersedeNodes nodes
  | .merge _ merges => .mergeNodes merges
  | .createRelations _ edges => .createEdges edges
  | .removeRelations _ edgeIds => .removeEdges edgeIds
  | .legacyTruthScope scope repository => .setProjectTruthScope scope repository
  | .legacyOntology ontology => .setOntology ontology
  | .legacyCreateNodes nodes => .createNodes nodes
  | .legacyCreateAmbiguities ambiguities => .createAmbiguities ambiguities
  | .legacyResolveAmbiguities resolutions => .resolveAmbiguities resolutions
  | .legacyUpsertGlossary terms => .upsertGlossary terms
  | .legacySetCoverage coverage => .setCoverage coverage

/-- Whether the intent is one of the `legacy_` intents. -/
def ProposalOperation.isLegacy : ProposalOperation rt → Bool
  | .contentChange legacy _ | .statusChange legacy _ | .removal legacy _ | .supersede legacy _
  | .merge legacy _ | .createRelations legacy _ | .removeRelations legacy _ => legacy
  | .standingChange _ _ => false
  | .legacyTruthScope _ _ | .legacyOntology _ | .legacyCreateNodes _ | .legacyCreateAmbiguities _
  | .legacyResolveAmbiguities _ | .legacyUpsertGlossary _ | .legacySetCoverage _ => true

end RcpGraph
