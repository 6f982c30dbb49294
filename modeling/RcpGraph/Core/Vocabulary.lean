import RcpGraph.Lib.Record

/-!
The closed vocabularies of the graph: node types, standings, layers, base
relations with their endpoint table, and the answers the research project type
gives about node types. `Runtime` collects what the models take from libraries.
-/

namespace RcpGraph

/-- The library functions the graph code calls. Each field states the documented
behaviour that is relied on; hashing additionally enters results as an injectivity
hypothesis. -/
structure Runtime where
  /-- SHA-256 of the compact JSON text of a value, in hexadecimal. -/
  sha256 : Json → String
  /-- Parse a wire datetime to the text of its instant. -/
  datetime : Schema.Normal
  /-- Non-strict reading of integers and booleans. -/
  lax : Schema.Coercions
  /-- `str.lower`. -/
  lower : String → String
  /-- NFKC, case folding and collapsed white space. -/
  normalizeText : String → String
  /-- Whether the similarity ratio of two slug suffixes reaches 0.78. -/
  similar : String → String → Bool
  /-- The identifier-like words of a text. -/
  identifiers : String → List String

/-- A runtime for concrete patches: every text stands for itself. -/
def Runtime.plain : Runtime where
  sha256 := Json.compact
  datetime := .any
  lax := Schema.strict
  lower := id
  normalizeText := id
  similar := fun a b => decide (a = b)
  identifiers := fun _ => []

/-- `_sha256`: the digest does not see the order in which keys were written. -/
def Runtime.digest (rt : Runtime) (j : Json) : String := rt.sha256 j.canonical

inductive NodeType where
  | researchQuestion
  | hypothesis
  | decision
  | experiment
  | evidence
  | blocker
  deriving DecidableEq, Repr, Inhabited

namespace NodeType

def all : List NodeType :=
  [researchQuestion, hypothesis, decision, experiment, evidence, blocker]

def name : NodeType → String
  | researchQuestion => "research_question"
  | hypothesis => "hypothesis"
  | decision => "decision"
  | experiment => "experiment"
  | evidence => "evidence"
  | blocker => "blocker"

def ofName? (s : String) : Option NodeType := all.find? fun t => t.name = s

/-- `NODE_PREFIXES`. -/
def slugPrefix : NodeType → String
  | researchQuestion => "rq"
  | hypothesis => "hyp"
  | decision => "dec"
  | experiment => "exp"
  | evidence => "ev"
  | blocker => "blk"

end NodeType

inductive Standing where
  | asserted
  | accepted
  | contested
  deriving DecidableEq, Repr, Inhabited

def Standing.name : Standing → String
  | asserted => "asserted"
  | accepted => "accepted"
  | contested => "contested"

inductive RelationLayer where
  | epistemic
  | action
  | seam
  | metaLayer
  deriving DecidableEq, Repr, Inhabited

def RelationLayer.name : RelationLayer → String
  | epistemic => "epistemic"
  | action => "action"
  | seam => "seam"
  | metaLayer => "meta"

inductive EdgeExpectation where
  | matched
  | diverged
  | noExpectation
  deriving DecidableEq, Repr, Inhabited

def EdgeExpectation.name : EdgeExpectation → String
  | matched => "matched"
  | diverged => "diverged"
  | noExpectation => "no_expectation"

/-- Who a patch or a resolution is attributed to. -/
inductive Author where
  | agent
  | human
  deriving DecidableEq, Repr, Inhabited

def Author.name : Author → String
  | agent => "agent"
  | human => "human"

/-- `RelationSpec` without its reader-facing description. -/
structure RelationSpec where
  sourceTypes : List NodeType
  targetTypes : List NodeType
  layer : RelationLayer
  sameType : Bool
  authorable : Bool

/-- `RELATION_SPEC`. -/
def relationTable : List (String × RelationSpec) :=
  [ ("has_subquestion", ⟨[.researchQuestion], [.researchQuestion], .epistemic, false, true⟩),
    ("has_hypothesis", ⟨[.researchQuestion], [.hypothesis], .epistemic, false, true⟩),
    ("supports", ⟨[.evidence], [.hypothesis], .epistemic, false, true⟩),
    ("weakens", ⟨[.evidence], [.hypothesis], .epistemic, false, true⟩),
    ("refutes", ⟨[.evidence], [.hypothesis], .epistemic, false, true⟩),
    ("inconclusive", ⟨[.evidence], [.hypothesis], .epistemic, false, true⟩),
    ("contradicts", ⟨[.evidence, .hypothesis], [.hypothesis], .epistemic, false, true⟩),
    ("tests", ⟨[.experiment], [.hypothesis], .seam, false, true⟩),
    ("produces", ⟨[.experiment], [.evidence], .seam, false, true⟩),
    ("informs", ⟨[.evidence], [.decision], .action, false, true⟩),
    ("addresses", ⟨[.evidence], [.blocker], .action, false, true⟩),
    ("has_decision", ⟨[.hypothesis], [.decision], .action, false, true⟩),
    ("governed_by", ⟨[.experiment], [.decision], .action, false, true⟩),
    ("blocked_by", ⟨[.experiment], [.blocker], .action, false, true⟩),
    ("requires_decision", ⟨[.blocker], [.decision], .action, false, false⟩),
    ("supersedes", ⟨NodeType.all, NodeType.all, .metaLayer, true, true⟩),
    ("duplicate_of", ⟨NodeType.all, NodeType.all, .metaLayer, true, true⟩) ]

def relationSpec? (relation : String) : Option RelationSpec := Assoc.find relation relationTable

namespace NodeType

/-- `BASE_TYPE_LAYERS`. -/
def layer : NodeType → RelationLayer
  | researchQuestion | hypothesis | evidence => .epistemic
  | decision | experiment | blocker => .action

def isProtectedBelief : NodeType → Bool
  | researchQuestion | hypothesis => true
  | _ => false

def isBelief : NodeType → Bool
  | hypothesis => true
  | _ => false

def isOutcome : NodeType → Bool
  | evidence => true
  | _ => false

def isChooser : NodeType → Bool
  | decision => true
  | _ => false

/-- The field that supersede and merge set to `superseded`. -/
def lifecycleField : NodeType → String
  | evidence => "validity"
  | _ => "status"

end NodeType

/-- The value a retired node's lifecycle field has. -/
def retiredValue : String := "superseded"

/-- Relations through which an outcome bears on a belief. -/
def beliefOutcomeRelations : List String :=
  ["supports", "weakens", "refutes", "inconclusive", "contradicts"]

/-- Structural relations into a protected belief. -/
def protectedRelations : List String := ["has_subquestion", "has_hypothesis"]

/-- The default id of an edge. -/
def derivedEdgeId (source relation target : String) : String :=
  source ++ "::" ++ relation ++ "::" ++ target

end RcpGraph
