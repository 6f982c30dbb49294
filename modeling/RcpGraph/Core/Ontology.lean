import RcpGraph.Core.Patch

/-!
Ontology lookups and the layer of an edge. A layer belongs to an edge, not to a
relation name: it is derived from the types the edge connects, with the declared
layer as the fallback for an endpoint that is not there yet.
-/

namespace RcpGraph

variable {rt : Runtime}

def customRelation (ontology : OntologyState) (name : String) :
    Option OntologyRelationDefinition :=
  ontology.relations.find? fun r => r.name = name

def ontologyType (ontology : OntologyState) (name : String) : Option OntologyTypeDefinition :=
  ontology.types.find? fun t => t.name = name

/-- The layer `edgeLayer` derives for two endpoint types. -/
def typePairLayer (source target : Option NodeType) (declared : RelationLayer) : RelationLayer :=
  match declared, source, target with
  | .metaLayer, _, _ => .metaLayer
  | _, some s, some t => if s.layer = t.layer then s.layer else .seam
  | d, _, _ => d

def GraphState.nodeType? (s : GraphState rt) (id : String) : Option NodeType :=
  (s.nodes.get? id).map ProjectNode.type

/-- The layer of one edge from the nodes it connects. -/
def edgeLayer (s : GraphState rt) (source target : String) (declared : RelationLayer) :
    RelationLayer :=
  typePairLayer (s.nodeType? source) (s.nodeType? target) declared

/-- A node's custom type if it has one, else its base type. -/
def semanticType (type : NodeType) (extension : Option String) : String :=
  extension.getD type.name

/-- The semantic type of an endpoint: of the graph's node, else of a created one. -/
def endpointType (s : GraphState rt) (created : List (RawNode rt)) (id : String) :
    Option String :=
  match s.nodes.get? id with
  | some n => some (semanticType n.type n.extensionType)
  | none =>
      (created.reverse.find? fun raw => raw.id = id).map fun raw =>
        semanticType raw.type raw.declaredExtension

def edgeMatchesRelation (s : GraphState rt) (source target : String)
    (relation : OntologyRelationDefinition) (created : List (RawNode rt) := []) : Bool :=
  match endpointType s created source, endpointType s created target with
  | some a, some b => decide (a ∈ relation.sourceTypes) && decide (b ∈ relation.targetTypes)
  | _, _ => false

def applicableFieldDefinitions (ontology : OntologyState) (base : NodeType)
    (extension : Option String) : List OntologyFieldDefinition :=
  ontology.fields.filter fun f => f.ownerType = base.name || extension = some f.ownerType

def fieldApplies (n : ProjectNode rt) (f : OntologyFieldDefinition) : Bool :=
  f.ownerType = n.type.name || n.extensionType = some f.ownerType

def fieldValueMatches (f : OntologyFieldDefinition) (value : Json) : Bool :=
  match f.kind, value with
  | .text, .str _ => true
  | .number, .num _ => true
  | .boolean, .bool _ => true
  | .textList, .arr xs => xs.all fun x => x.str?.isSome
  | _, _ => false

@[simp] theorem typePairLayer_meta (a b : Option NodeType) :
    typePairLayer a b .metaLayer = .metaLayer := rfl

/-- No pair of types is on the meta layer. -/
theorem typePairLayer_meta_iff (a b : Option NodeType) (d : RelationLayer) :
    typePairLayer a b d = .metaLayer ↔ d = .metaLayer := by
  cases a with
  | none => cases d <;> simp [typePairLayer]
  | some s =>
      cases b with
      | none => cases d <;> simp [typePairLayer]
      | some t => cases d <;> cases s <;> cases t <;> simp [typePairLayer, NodeType.layer]

/-- Relations that are not meta get one layer from a pair of types. -/
theorem typePairLayer_ordinary (a b : NodeType) {d d' : RelationLayer} (h : d ≠ .metaLayer)
    (h' : d' ≠ .metaLayer) :
    typePairLayer (some a) (some b) d = typePairLayer (some a) (some b) d' := by
  cases d <;> cases d' <;> first | rfl | exact absurd rfl h | exact absurd rfl h'

/-- Without one of its endpoints an edge keeps the declared layer. -/
theorem typePairLayer_missing (a b : Option NodeType) (d : RelationLayer) (h : a = none ∨ b = none) :
    typePairLayer a b d = d := by
  rcases h with rfl | rfl
  · cases d <;> rfl
  · cases d <;> cases a <;> rfl

/-- Deriving a layer twice from the same types changes nothing. -/
theorem typePairLayer_idem (a b : Option NodeType) (d : RelationLayer) :
    typePairLayer a b (typePairLayer a b d) = typePairLayer a b d := by
  cases a with
  | none => cases d <;> rfl
  | some s =>
      cases b with
      | none => cases d <;> rfl
      | some t => cases d <;> cases s <;> cases t <;> rfl

end RcpGraph
