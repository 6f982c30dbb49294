import RcpGraph.Merge.Documents
import RcpGraph.Validation.Dependencies

/-!
The records a merge is planned with: whole-field and whole-entity changes, and the conflicts
that an answer must settle.
-/

namespace RcpGraph

inductive Collection where
  | nodes
  | edges
  | proposals
  | ambiguities
  | glossary
  | projectTruthScope
  | ontology
  deriving DecidableEq, Repr

def Collection.name : Collection → String
  | nodes => "nodes"
  | edges => "edges"
  | proposals => "proposals"
  | ambiguities => "ambiguities"
  | glossary => "glossary"
  | projectTruthScope => "project_truth_scope"
  | ontology => "ontology"

inductive Side where
  | branch
  | destination
  deriving DecidableEq, Repr

def Side.other : Side → Side
  | branch => destination
  | destination => branch

/-- What the side holds that did not remove. -/
def Side.survivor {α : Type} (removedOn : Side) (branch destination : α) : α :=
  match removedOn with
  | .branch => destination
  | .destination => branch

/-- Absence of an entity or field, or its value. -/
inductive MergeValue where
  | missing
  | present (value : Json)
  deriving DecidableEq

namespace MergeValue

def isPresent : MergeValue → Bool
  | missing => false
  | present _ => true

def form : MergeValue → Option Json
  | missing => none
  | present value => some value.equalForm

/-- Equality of merge values as the planner tests it. -/
def same (a b : MergeValue) : Bool := decide (a.form = b.form)

theorem same_iff (a b : MergeValue) : a.same b = true ↔ a.form = b.form := by
  rw [same, decide_eq_true_eq]

theorem same_comm (a b : MergeValue) : a.same b = b.same a := by
  rw [same, same, decide_eq_decide]
  exact eq_comm

end MergeValue

structure MergeChange where
  changeId : String
  collection : Collection
  entityId : Option String
  fieldName : Option String
  base : MergeValue
  branch : MergeValue
  destination : MergeValue
  deriving DecidableEq

inductive FieldAnswerKind where
  | branch
  | destination
  | merged
  deriving DecidableEq, Repr

structure FieldConflict where
  conflictId : String
  collection : Collection
  entityId : Option String
  fieldName : String
  base : MergeValue
  branch : MergeValue
  destination : MergeValue
  allowedAnswerKinds : List FieldAnswerKind
  deriving DecidableEq

structure PresenceConflict where
  conflictId : String
  collection : Collection
  entityId : String
  base : MergeValue
  branch : MergeValue
  destination : MergeValue
  removedOn : Side
  deriving DecidableEq

/-- Node removal against added or edited incident edges on the other side. -/
structure IncidentEdgeConflict where
  conflictId : String
  nodeId : String
  base : MergeValue
  branch : MergeValue
  destination : MergeValue
  removedOn : Side
  incidentEdges : List MergeChange
  deriving DecidableEq

/-- A group promoted from diagnostics that name its nodes. -/
structure NodeGroupConflict where
  conflictId : String
  nodeIds : List String
  fields : List FieldConflict
  base : Dict String MergeValue
  branch : Dict String MergeValue
  destination : Dict String MergeValue
  diagnosticCodes : List String
  deriving DecidableEq

inductive MergeConflict where
  | field (c : FieldConflict)
  | presence (c : PresenceConflict)
  | incident (c : IncidentEdgeConflict)
  | nodeGroup (c : NodeGroupConflict)
  deriving DecidableEq

def MergeConflict.conflictId : MergeConflict → String
  | field c => c.conflictId
  | presence c => c.conflictId
  | incident c => c.conflictId
  | nodeGroup c => c.conflictId

/-- One connected approval group. -/
structure ReviewGroup where
  subjectKey : String
  changes : List MergeChange
  footprint : ProposalFootprint
  effectDigest : String
  replacesProposalIds : List String := []
  carriedProposalIds : List String := []

/-- An earlier merge filing; `filedAt` is the branch revision it was filed from. -/
structure PriorReview (rt : Runtime) where
  subjectKey : String
  proposal : Proposal rt
  outstanding : List MergeChange
  filedAt : Nat
  effectDigest : String

/-- What planning reads: the three snapshots, the last delivered one and the earlier reviews. -/
structure MergePlanningContext (rt : Runtime) where
  baseGraph : GraphState rt
  sourceGraph : GraphState rt
  destinationGraph : GraphState rt
  previousSourceGraph : Option (GraphState rt) := none
  priorReviews : List (PriorReview rt) := []

/-- `MergePlan`: `require_bound_plan` leaves no plan with two conflicts or two groups of one id. -/
structure MergePlan (rt : Runtime) extends MergePlanningContext rt where
  directChanges : List MergeChange
  conflicts : List MergeConflict
  reviewGroups : List ReviewGroup
  nodup_conflictIds : (conflicts.map (·.conflictId)).Nodup
  nodup_subjectKeys : (reviewGroups.map (·.subjectKey)).Nodup

structure MergeDiagnostic where
  code : String
  message : String
  relatedNodeIds : List String := []
  conflictIds : List String := []
  deriving DecidableEq, Repr

section Exchange

/-- The same change with the two sides exchanged. -/
def MergeChange.exchange (c : MergeChange) : MergeChange :=
  { c with branch := c.destination, destination := c.branch }

def FieldConflict.exchange (c : FieldConflict) : FieldConflict :=
  { c with branch := c.destination, destination := c.branch }

def PresenceConflict.exchange (c : PresenceConflict) : PresenceConflict :=
  { c with branch := c.destination, destination := c.branch, removedOn := c.removedOn.other }

def IncidentEdgeConflict.exchange (c : IncidentEdgeConflict) : IncidentEdgeConflict :=
  { c with
    branch := c.destination
    destination := c.branch
    removedOn := c.removedOn.other
    incidentEdges := c.incidentEdges.map MergeChange.exchange }

def NodeGroupConflict.exchange (c : NodeGroupConflict) : NodeGroupConflict :=
  { c with
    fields := c.fields.map FieldConflict.exchange
    branch := c.destination
    destination := c.branch }

def MergeConflict.exchange : MergeConflict → MergeConflict
  | field c => .field c.exchange
  | presence c => .presence c.exchange
  | incident c => .incident c.exchange
  | nodeGroup c => .nodeGroup c.exchange

@[simp] theorem Side.survivor_other {α : Type} (removedOn : Side) (branch destination : α) :
    removedOn.other.survivor destination branch = removedOn.survivor branch destination := by
  cases removedOn <;> rfl

@[simp] theorem Side.other_other (s : Side) : s.other.other = s := by cases s <;> rfl

@[simp] theorem MergeChange.exchange_exchange (c : MergeChange) : c.exchange.exchange = c := rfl

@[simp] theorem FieldConflict.exchange_exchange (c : FieldConflict) : c.exchange.exchange = c := rfl

@[simp] theorem MergeConflict.exchange_exchange (c : MergeConflict) : c.exchange.exchange = c := by
  cases c with
  | field c => rfl
  | presence c => simp [exchange, PresenceConflict.exchange]
  | incident c => simp [exchange, IncidentEdgeConflict.exchange, Function.comp_def]
  | nodeGroup c => simp [exchange, NodeGroupConflict.exchange, Function.comp_def]

theorem MergeConflict.exchange_inj (c c' : MergeConflict) : c.exchange = c'.exchange ↔ c = c' :=
  ⟨fun h => by simpa using congrArg MergeConflict.exchange h, fun h => congrArg _ h⟩

theorem MergeConflict.mem_map_exchange (c : MergeConflict) (cs : List MergeConflict) :
    c.exchange ∈ cs.map exchange ↔ c ∈ cs := by
  rw [List.mem_map]
  constructor
  · rintro ⟨d, hd, hdc⟩
    rwa [← (exchange_inj d c).mp hdc]
  · intro hc
    exact ⟨c, hc, rfl⟩

end Exchange

end RcpGraph
