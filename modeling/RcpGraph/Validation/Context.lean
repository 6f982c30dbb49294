import RcpGraph.Core.Authority
import RcpGraph.Core.Encode

/-!
What an operation rule judges an operation with, and what a branch merge carries
from its source: content rules of a later day skip an entity only when the merge
patch writes exactly what the source graph holds.
-/

namespace RcpGraph

open Schema

variable {rt : Runtime}

inductive Mode where
  | admission
  | replay
  deriving DecidableEq, Repr

/-- The resolved role staged rules see. -/
structure Writer where
  author : Option Author
  profile : Option Profile
  humanAction : Option DeclaredAction := none
  agentAction : Option DeclaredAction := none
  deriving DecidableEq, Repr

def Writer.ofPatch (p : Patch rt) : Writer := ⟨p.author, p.profile, p.humanAction, p.agentAction⟩

/-- `ValidationContext`. -/
structure ValidationContext (rt : Runtime) where
  projectTruthScope : List String
  repositoryAliases : Option (List String) := none
  machineAliases : Option (List String) := none
  stateRepository : Option String := none
  mode : Mode := .admission
  mergeSource : Option (GraphState rt) := none

structure OpContext (rt : Runtime) where
  state : GraphState rt
  initialState : GraphState rt
  patch : Patch rt
  writer : Writer
  revision : Option Nat
  projectTruthScope : List String
  repositories : List String
  machines : Option (List String)
  stateRepository : Option String
  mode : Mode
  experimentControlNodeId : Option String := none
  referencePatch : Option (Patch rt) := none
  mergeSource : Option (GraphState rt) := none

namespace OpContext

def admission (ctx : OpContext rt) : Bool := decide (ctx.mode = .admission)

/-- The patches whose created objects a rule may refer to. -/
def patches (ctx : OpContext rt) : List (Patch rt) := ctx.patch :: ctx.referencePatch.toList

/-- `_node_type`: of the graph's node, else of one a patch creates. -/
def nodeType? (ctx : OpContext rt) (id : String) : Option NodeType :=
  match ctx.state.nodes.get? id with
  | some n => some n.type
  | none => ctx.patches.findSome? fun p => p.createdNodeType id

/-- `_created_node_id`. -/
def createdNodeId (ctx : OpContext rt) (id : String) : Bool :=
  ctx.patch.createdNodes.any fun raw => decide (raw.id = id)

/-- The source graph of an orchestrator's branch merge. -/
def carriedSource (ctx : OpContext rt) : Option (GraphState rt) :=
  match ctx.mergeSource with
  | none => none
  | some source =>
      let merging : Option (Patch rt) :=
        if ctx.patch.branchMerge.isSome then some ctx.patch
        else ctx.referencePatch.filter fun p => p.branchMerge.isSome
      match merging with
      | none => none
      | some writer =>
          if writer.author = some .agent ∧ writer.profile = some .orchestrator then some source
          else none

end OpContext

/-- `_matches`: every written field is the source's own, or a lifecycle field at its default. -/
def docMatches (payload document : Doc) (fields : List Field) (resettable : List String) : Bool :=
  payload.all fun (key, value) =>
    decide (key = "id") ||
      ((Assoc.find key document).any fun v => v.pyEq value) ||
      (decide (key ∈ resettable) &&
        ((fields.find? fun f => f.name = key).bind Field.default).any fun d => d.pyEq value)

def carriesEdge (ctx : OpContext rt) (e : NewEdge) : Bool :=
  match ctx.carriedSource with
  | none => false
  | some source =>
      match source.edges.get? e.edgeId with
      | none => false
      | some admitted => docMatches e.dump admitted.dump [] []

def carriesNewNode (ctx : OpContext rt) (raw : RawNode rt) : Bool :=
  match ctx.carriedSource with
  | none => false
  | some source =>
      match source.nodes.get? raw.id with
      | none => false
      | some admitted =>
          decide (admitted.type = raw.type) &&
            docMatches raw.dump admitted.dump (contentFields rt admitted.type)
              ["status", admitted.type.lifecycleField]

/-- The change, and the fields its rule judges it with, are the source's. -/
def carriesUpdate (ctx : OpContext rt) (id : String) (changes : Dict String Json)
    (reads : List String := []) : Bool :=
  match ctx.carriedSource.bind fun source => source.nodes.get? id, ctx.state.nodes.get? id with
  | some admitted, some node =>
      docMatches
        (Assoc.overwrite (node.dump.filter fun e => e.1 ∈ reads) changes.entries) admitted.dump
        [] []
  | _, _ => false

/-- The fields two versions of a node are compared by, engine fields aside. -/
def semanticDoc (n : ProjectNode rt) : Doc :=
  n.dump.filter fun e =>
    e.1 ∉ ["standing", "created_rev", "updated_rev", "current_summary_stale", "next_action_stale"]

def carriesStagedNode (ctx : OpContext rt) (id : String) : Bool :=
  match ctx.carriedSource.bind fun source => source.nodes.get? id, ctx.state.nodes.get? id with
  | some admitted, some staged =>
      decide (admitted.type = staged.type) &&
        (Json.obj (semanticDoc staged)).pyEq (.obj (semanticDoc admitted))
  | _, _ => false

end RcpGraph
