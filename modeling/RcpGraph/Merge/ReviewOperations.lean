import RcpGraph.Core.Materialize
import RcpGraph.Core.Encode
import RcpGraph.Lib.Keyed
import RcpGraph.Lib.LastWrite

/-!
`_combine_review_ops`: the review operations of a branch merge become the operations of
one card. Operations equal to an earlier one are left out, updates of one node alone are
folded into the first of them, and a node keeps its last standing.
-/

namespace RcpGraph

variable {rt : Runtime}

/-- A written edge as `==` reads it: what was not written is the default. -/
structure EdgeForm where
  id : Option String
  source : String
  target : String
  relation : String
  explanation : String
  assessment : Option Json
  expectation : Option EdgeExpectation
  deriving DecidableEq

def NewEdge.form (e : NewEdge) : EdgeForm where
  id := e.id.join
  source := e.source
  target := e.target
  relation := e.relation
  explanation := e.explanation.getD ""
  assessment := e.assessment.join.map fun a => a.full.json.equalForm
  expectation := e.expectation.join

/-- A written node as `==` reads it. -/
structure NodeForm where
  id : String
  type : NodeType
  extensionType : Option String
  standing : Standing
  createdRev : Int
  updatedRev : Int
  content : List (String × Json)
  deriving DecidableEq

def RawNode.form (raw : RawNode rt) : NodeForm where
  id := raw.id
  type := raw.type
  extensionType := raw.declaredExtension
  standing := raw.standing.getD .asserted
  createdRev := raw.createdRev.getD 0
  updatedRev := raw.updatedRev.getD 0
  content := Json.equalFormFields (raw.create 0).content

structure UpdateForm where
  id : String
  changes : List (String × Json)
  cause : Option BeliefCause
  baseUpdatedRev : Option Nat
  deriving DecidableEq

def NodeUpdate.form (u : NodeUpdate) : UpdateForm where
  id := u.id
  changes := Json.equalFormFields u.changes.entries
  cause := u.cause
  baseUpdatedRev := u.baseUpdatedRev

/-- What two operations share when `==` holds of them. -/
inductive OperationForm (rt : Runtime) where
  | updateNodes (intent : String) (nodes : List UpdateForm)
  | createNodes (nodes : List NodeForm)
  | createEdges (intent : String) (edges : List EdgeForm)
  | setCoverage (coverage : Json)
  | other (operation : ProposalOperation rt)
  deriving DecidableEq

namespace ProposalOperation

/-- The updates of an `update_nodes` operation. -/
def updates? : ProposalOperation rt → Option (List NodeUpdate)
  | .contentChange _ nodes | .statusChange _ nodes => some nodes
  | _ => none

def withUpdates (nodes : List NodeUpdate) : ProposalOperation rt → ProposalOperation rt
  | .contentChange legacy _ => .contentChange legacy nodes
  | .statusChange legacy _ => .statusChange legacy nodes
  | op => op

def form (op : ProposalOperation rt) : OperationForm rt :=
  match op with
  | .contentChange _ nodes | .statusChange _ nodes =>
      .updateNodes op.intent (nodes.map NodeUpdate.form)
  | .legacyCreateNodes nodes => .createNodes (nodes.map RawNode.form)
  | .createRelations _ edges => .createEdges op.intent (edges.map NewEdge.form)
  | .legacySetCoverage coverage => .setCoverage coverage.equalForm
  | op => .other op

/-- Whether it sets the standing of a node. -/
def setsStandingOf (nodeId : String) : ProposalOperation rt → Bool
  | .standingChange id _ => decide (id = nodeId)
  | _ => false

end ProposalOperation

/-- One prior operation takes in another: both update the same node alone, under one intent. -/
def foldUpdate (prior operation : ProposalOperation rt) : Option (ProposalOperation rt) :=
  match prior.updates?, operation.updates? with
  | some [old], some [new] =>
      if prior.intent = operation.intent ∧ old.id = new.id then
        some (operation.withUpdates
          [{ new with changes := old.changes.update new.changes.entries }])
      else none
  | _, _ => none

/-- The first prior operation that takes it in does; nothing when none does. -/
def foldFirst (operation : ProposalOperation rt) :
    List (ProposalOperation rt) → Option (List (ProposalOperation rt))
  | [] => none
  | prior :: result =>
      match foldUpdate prior operation with
      | some folded => some (folded :: result)
      | none => (foldFirst operation result).map (prior :: ·)

/-- An operation that no combined one equals. -/
def placeReviewOp (result : List (ProposalOperation rt)) (operation : ProposalOperation rt) :
    List (ProposalOperation rt) :=
  match operation with
  | .contentChange _ _ | .statusChange _ _ =>
      (foldFirst operation result).getD (result ++ [operation])
  | .standingChange nodeId _ =>
      result.filter (fun item => !item.setsStandingOf nodeId) ++ [operation]
  | _ => result ++ [operation]

def combineReviewOp (result : List (ProposalOperation rt)) (operation : ProposalOperation rt) :
    List (ProposalOperation rt) :=
  if operation.form ∈ result.map ProposalOperation.form then result
  else placeReviewOp result operation

/-- `_combine_review_ops`. -/
def combineReviewOps (operations : List (ProposalOperation rt)) : List (ProposalOperation rt) :=
  operations.foldl combineReviewOp []

/-- Names that stand for a field of another name: the lifecycle field has an aspect of its own,
and a budget is no field under its old name. -/
def fieldAliases : List String := ["attempt_ceiling", "status", "validity"]

def FieldName : Type := { name : String // name ∉ fieldAliases }
  deriving DecidableEq

/-- What can be written of a node. -/
inductive Aspect where
  | field (name : FieldName)
  | lifecycle
  | standing
  | identity
  deriving DecidableEq

/-- What an operation writes to. -/
inductive Place where
  | node (id : String) (aspect : Aspect)
  | edge (id source target : String)
  deriving DecidableEq

inductive Written where
  | value (json : Json)
  | standing (standing : Standing)
  | identity (type : NodeType) (extensionType : Option String)
  | edge (edge : EdgeForm)
  | absent
  deriving DecidableEq

/-- A form that two writes share when `==` finds their values equal. -/
def Written.form : Written → Written
  | .value json => .value json.equalForm
  | w => w

def Place.aspectOf (id : String) : Place → Option Aspect
  | .node nodeId aspect => if id = nodeId then some aspect else none
  | .edge _ _ _ => none

/-- Whether the place is of one of the nodes, or of an edge that ends at one. -/
def Place.touches (nodeIds : List String) : Place → Bool
  | .node id _ => decide (id ∈ nodeIds)
  | .edge _ source target => decide (source ∈ nodeIds) || decide (target ∈ nodeIds)

def Place.ofEdges (edgeIds : List String) : Place → Bool
  | .node _ _ => false
  | .edge id _ _ => decide (id ∈ edgeIds)

section Writes

open LastWrite

/-- The names under which an update gives an aspect; the first of them counts. -/
def Aspect.changeNames : Aspect → List String
  | .field name =>
      if name.val = "invocation_ceiling" then ["attempt_ceiling", "invocation_ceiling"]
      else [name.val]
  | .lifecycle => ["status", "validity"]
  | .standing | .identity => []

def NodeUpdate.wrote (u : NodeUpdate) (aspect : Aspect) : Option Written :=
  (aspect.changeNames.findSome? u.changes.get?).map .value

def NodeUpdate.write (u : NodeUpdate) (place : Place) : Option Written :=
  (place.aspectOf u.id).bind u.wrote

/-- A retired node's lifecycle field is set. -/
def retireWrite (id : String) (place : Place) : Option Written :=
  if place = .node id .lifecycle then some (.value (.str retiredValue)) else none

/-- The id an edge is stored under. -/
def EdgeForm.edgeId (e : EdgeForm) : String :=
  e.id.getD (derivedEdgeId e.source e.relation e.target)

/-- An edge takes the place of the one its id had, whatever that ended at. -/
def EdgeForm.write (e : EdgeForm) : Place → Option Written
  | .edge id source target =>
      if e.edgeId = id then
        some (if e.source = source ∧ e.target = target then .edge { e with id := some id }
          else .absent)
      else none
  | .node _ _ => none

/-- A stored edge, but for its layer and its stamp. -/
def Edge.form (e : Edge) : EdgeForm where
  id := some e.id
  source := e.source
  target := e.target
  relation := e.relation
  explanation := e.explanation
  assessment := e.assessment.map fun a => a.json.equalForm
  expectation := e.expectation

def SupersedeNode.write (item : SupersedeNode) (place : Place) : Option Written :=
  ((item.edge? 0).bind fun e => e.form.write place).or (retireWrite item.id place)

def NodeMerge.write (item : NodeMerge) (place : Place) : Option Written :=
  ((generatedEdge item.duplicate "duplicate_of" item.canonical item.explanation 0).form.write
    place).or (retireWrite item.duplicate place)

def ProjectNode.written (n : ProjectNode rt) : Aspect → Written
  | .field name => ((n.field? name.val).map .value).getD .absent
  | .lifecycle => ((n.field? n.type.lifecycleField).map .value).getD .absent
  | .standing => .standing n.standing
  | .identity => .identity n.type n.extensionType

/-- A created node is written whole. -/
def RawNode.write (raw : RawNode rt) (place : Place) : Option Written :=
  (place.aspectOf raw.id).map (raw.create 0).written

/-- What executing an operation writes to a place. -/
def ProposalOperation.write (op : ProposalOperation rt) (place : Place) : Option Written :=
  match op with
  | .contentChange _ nodes | .statusChange _ nodes => last NodeUpdate.write nodes place
  | .standingChange nodeId standing =>
      if place = .node nodeId .standing then some (.standing standing) else none
  | .removal _ nodeIds => if place.touches nodeIds then some .absent else none
  | .supersede _ items => last SupersedeNode.write items place
  | .merge _ items => last NodeMerge.write items place
  | .legacyCreateNodes nodes => last RawNode.write nodes place
  | .createRelations _ edges => last (fun e => e.form.write) edges place
  | .removeRelations _ edgeIds => if place.ofEdges edgeIds then some .absent else none
  | .legacyTruthScope _ _ | .legacyOntology _ | .legacyCreateAmbiguities _
  | .legacyResolveAmbiguities _ | .legacyUpsertGlossary _ | .legacySetCoverage _ => none

end Writes

end RcpGraph
