import RcpGraph.Validation.Approval

/-!
How a human Sync is turned into patches. The staged node items and the staged ontology
become approval patches of their own, built from the graph the Sync starts from.
-/

namespace RcpGraph

variable {rt : Runtime}

/-- `GraphSyncNodeChange`. -/
structure GraphSyncNodeChange where
  nodeId : String
  baseUpdatedRev : Nat
  changes : Dict String Json
  standing : Option Standing := none
  cancelAttemptIds : List String := []

/-- `GraphSyncProposalDecision`. -/
structure GraphSyncProposalDecision where
  proposalId : String
  decision : ResolutionStatus
  reason : Option String := none

/-- `GraphSyncRequest`. -/
structure GraphSyncRequest (rt : Runtime) where
  baseRevision : Nat
  nodes : List GraphSyncNodeChange := []
  proposals : List GraphSyncProposalDecision := []
  ontology : Option OntologyState := none
  customNodes : List (RawNode rt) := []
  removedNodeIds : List String := []
  addedEdges : List NewEdge := []
  removedEdgeIds : List String := []

/-- What the builder asks of its surroundings: the clock, `str()`, and whether the model
of a node's type accepts the node with an edit. -/
structure SyncEnv (rt : Runtime) where
  utcNow : String
  textOf : Json → String
  modelError : ProjectNode rt → Dict String Json → Option String

/-- A patch of the human's approval kind, before it is stamped. -/
def humanPatch (summary : String) (ops : List (GraphOperation rt)) (changeSummary : List String)
    (humanAction : Option DeclaredAction := none) : Patch rt where
  kind := .approval
  author := some .human
  producer := .human
  createdAt := ""
  summary := summary
  changeSummary := changeSummary
  humanAction := humanAction
  ops := ops

/-- `checked_human_decision_choice`: the option that an edit of a Decision chooses. -/
def checkedHumanDecisionChoice (n : ProjectNode rt) (changes : Dict String Json) :
    Except String (Option String) :=
  if n.type ≠ .decision then .ok none
  else if isDecisionChoice changes = false then
    if "status" ∈ changes ∧
        ¬((changed changes "status").str?.any fun status =>
          decide (status ∈ ["open", "ready", "revisit"])) then
      .error ("Direct edits to " ++ n.id ++ " may queue it as open, ready, or revisit; " ++
        "only the Decision choice control may decide it.")
    else .ok none
  else if n.text "status" = "superseded" then
    .error ("Decision " ++ n.id ++ " is superseded and cannot be decided again.")
  else if changed changes "status" ≠ .str "decided" then
    .error ("Direct choice on " ++ n.id ++ " must set status exactly to decided.")
  else
    let selected := changes.getD "selected_option" ((n.field? "selected_option").getD .null)
    let options := changes.getD "options" ((n.field? "options").getD .null)
    match selected.str? with
    | some option =>
        if Text.strip option ≠ "" ∧ options.arr?.isSome ∧ memberOfList selected options then
          .ok (some option)
        else
          .error ("Direct choice on " ++ n.id ++
            " must select one non-empty option from its current options.")
    | none =>
        .error ("Direct choice on " ++ n.id ++
          " must select one non-empty option from its current options.")

/-- The definition an extension field of a node has, the last one that is listed. -/
def extensionDefinition (s : GraphState rt) (n : ProjectNode rt) (name : String) :
    Option OntologyFieldDefinition :=
  (s.ontology.fields.filter fun f =>
    decide (f.ownerType = n.type.name) || decide (some f.ownerType = n.extensionType)).reverse.find?
      fun f => f.name = name

/-- `_validate_human_extension_fields`. -/
def humanExtensionFieldsError (s : GraphState rt) (n : ProjectNode rt) (changes : Dict String Json) :
    Option String :=
  match (changed changes "extension_fields").obj? with
  | none => some "Extension fields must be submitted as one complete object."
  | some written =>
      let current := ((n.field? "extension_fields").bind Json.obj?).getD []
      let frozen := Text.sortedSet ((current.map Prod.fst ++ written.map Prod.fst).filter fun name =>
        (extensionDefinition s n name).all (·.deprecated) &&
          !(match Assoc.find name current, Assoc.find name written with
            | some a, some b => a.pyEq b
            | none, none => true
            | _, _ => false))
      if frozen = [] then none
      else
        some ("Extension fields for " ++ n.id ++ " are not active on its ontology type and " ++
          "cannot be changed: " ++ Text.join ", " frozen ++ ".")

/-- `released_attempts`: the named open attempts are closed, every other attempt stays. -/
def releasedAttempts (env : SyncEnv rt) (n : ProjectNode rt) (attemptIds : List String) :
    Except String Json :=
  if n.type ≠ .experiment then .error (n.id ++ " has no attempts to release.")
  else
    let attempts := ((n.field? "attempts").bind Json.arr?).getD []
    let idOf := fun attempt : Json => ((attempt.get? "id").bind Json.str?).getD ""
    let openIds := (attempts.filter activeAttempt).map idOf
    let unknown := Text.sortedSet (attemptIds.filter fun id => id ∉ openIds)
    if unknown ≠ [] then
      .error (n.id ++ " has no open attempt named: " ++ Text.join ", " unknown ++ ".")
    else
      .ok (.arr (attempts.map fun attempt =>
        if idOf attempt ∈ attemptIds then
          .obj (Assoc.overwrite (attempt.obj?.getD [])
            [ ("status", .str "cancelled"), ("finished_at", .str env.utcNow),
              ("failure_reason", .str "Released by the human.") ])
        else attempt))

/-- The fields of an edit whose value is not the node's own. -/
def changedFields (n : ProjectNode rt) (changes : Dict String Json) : List String :=
  (changes.entries.filter fun e => !((Assoc.find e.1 n.dump).any fun v => v.pyEq e.2)).map Prod.fst

/-- What the builder has found out about one node item. -/
structure SyncedItem (rt : Runtime) where
  node : ProjectNode rt
  item : GraphSyncNodeChange
  title : String
  directChoice : Bool
  selectedOption : Option String
  changedFields : List String

/-- The checks on one node item, up to its first operation. -/
def checkItem (env : SyncEnv rt) (s : GraphState rt) (item : GraphSyncNodeChange) :
    Except String (SyncedItem rt) := do
  let node ← nodeAt s item.nodeId
  if item.baseUpdatedRev ≠ node.updatedRev then
    throw (node.id ++ " changed after this draft began; reload before syncing it.")
  let directChoice := node.type.isChooser && isDecisionChoice item.changes
  let title := env.textOf (item.changes.getD "title" (.str (node.text "title")))
  if item.changes.entries = [] then
    pure ⟨node, item, title, directChoice, none, []⟩
  else
    let selected ← checkedHumanDecisionChoice node item.changes
    match (if "extension_fields" ∈ item.changes then humanExtensionFieldsError s node item.changes
      else none) with
    | some text => throw text
    | none =>
        let allowed := humanEditableNodeFields node.type ++
          (if directChoice then ["selected_option", "status"] else []) ++
          if "extension_fields" ∈ item.changes then ["extension_fields"] else []
        if outsideFields item.changes allowed ≠ [] then
          throw ("Direct edits to " ++ node.id ++ " cannot change: " ++
            Text.join ", " (outsideFields item.changes allowed) ++ ".")
        -- A field that the node's record does not hold cannot be compared.
        match item.changes.keys.find? fun f => f ∉ node.dump.map Prod.fst with
        | some f => throw (Text.quoted f)
        | none => pure ()
        let changed := RcpGraph.changedFields node item.changes
        if changed ≠ [] ∨ directChoice then
          match env.modelError node item.changes with
          | some text => throw ("Invalid edit for " ++ node.id ++ ": " ++ text)
          | none => pure ()
        pure ⟨node, item, title, directChoice, selected, changed⟩

namespace SyncedItem

/-- The edit of the item's fields, with its lines of the change summary. -/
def editOps (i : SyncedItem rt) : List (GraphOperation rt) :=
  if i.item.changes.entries ≠ [] ∧ (i.changedFields ≠ [] ∨ i.directChoice) then
    [.updateNodes
      [{ id := i.node.id, changes := i.item.changes, baseUpdatedRev := some i.item.baseUpdatedRev }]]
  else []

def editLines (env : SyncEnv rt) (i : SyncedItem rt) : List String :=
  if i.item.changes.entries ≠ [] ∧ (i.changedFields ≠ [] ∨ i.directChoice) then
    (if i.changedFields.any fun f => f ≠ "selected_option" && f ≠ "status" then
      ["Updated wording for “" ++ i.title ++ "”."]
    else []) ++
      if i.directChoice then
        ["Selected “" ++ i.selectedOption.getD "None" ++ "” for “" ++ i.title ++ "”."]
      else if "status" ∈ i.changedFields then
        ["Updated lifecycle for “" ++ i.title ++ "”: status is now " ++
          env.textOf (changed i.item.changes "status") ++ "."]
      else []
  else []

/-- The pending Proposals that a direct choice withdraws. -/
def withdrawals (s : GraphState rt) (i : SyncedItem rt) : List (Proposal rt) :=
  if i.directChoice then
    s.proposals.values.filter fun q =>
      decide (q.status = .pending) && proposalUpdatesNode q i.node.id
  else []

def withdrawalOps (s : GraphState rt) (i : SyncedItem rt) : List (GraphOperation rt) :=
  if i.withdrawals s = [] then []
  else
    [.resolveProposals ((i.withdrawals s).map fun q =>
      { id := q.id
        status := .withdrawn
        reason := some ("The human decided " ++ i.node.id ++
          " directly, making this Proposal stale.") })]

def withdrawalLines (s : GraphState rt) (i : SyncedItem rt) : List String :=
  (i.withdrawals s).map fun q =>
    "Withdrew Proposal “" ++ q.title ++ "” because the human decided “" ++ i.title ++ "” directly."

/-- The release of the item's attempts. -/
def releaseOps (env : SyncEnv rt) (i : SyncedItem rt) :
    Except String (List (GraphOperation rt)) :=
  if i.item.cancelAttemptIds = [] then .ok []
  else
    (releasedAttempts env i.node i.item.cancelAttemptIds).map fun attempts =>
      [.updateNodes
        [{ id := i.node.id
           changes := Dict.ofList [("attempts", attempts)]
           baseUpdatedRev := some i.item.baseUpdatedRev }]]

/-- The standing the node gets: the staged one, and an edited node is asserted again. -/
def resultingStanding (i : SyncedItem rt) : Option Standing :=
  if i.changedFields ≠ [] ∧ i.directChoice = false ∧ i.item.standing = none ∧
      i.node.standing ≠ .asserted then some .asserted
  else i.item.standing

def standingOps (i : SyncedItem rt) : List (GraphOperation rt) :=
  match i.resultingStanding with
  | none => []
  | some standing =>
      if standing = i.node.standing then [] else [.setStanding i.node.id standing]

def standingLines (i : SyncedItem rt) : List String :=
  match i.resultingStanding with
  | none => []
  | some standing =>
      if standing = i.node.standing then []
      else ["“" ++ i.title ++ "” is now " ++ standing.name ++ "."]

end SyncedItem

/-- The patch of one node item; an item that comes to nothing has none. -/
def itemPatch (env : SyncEnv rt) (s : GraphState rt) (item : GraphSyncNodeChange) :
    Except String (List (Patch rt)) := do
  let i ← checkItem env s item
  let releases ← i.releaseOps env
  let ops := i.editOps ++ i.withdrawalOps s ++ releases ++ i.standingOps
  let lines := i.editLines env ++ i.withdrawalLines s ++
    (if releases = [] then [] else ["Released open experiment attempts for “" ++ i.title ++ "”."]) ++
    i.standingLines
  if ops = [] then pure []
  else
    pure [humanPatch ("Synced staged changes for “" ++ i.title ++ "”.") ops lines
      (if i.directChoice then some .decisionChoice else none)]

/-- The patch of a staged ontology that is not the graph's own. -/
def ontologyPatches (s : GraphState rt) (ontology : Option OntologyState) : List (Patch rt) :=
  match ontology with
  | none => []
  | some ontology =>
      if ontology = s.ontology then []
      else
        [humanPatch "Updated the project ontology." [.setOntology ontology]
          ["Updated the project ontology."]]

/-- A request that creates, connects, removes and judges nothing. -/
def GraphSyncRequest.EditsOnly (request : GraphSyncRequest rt) : Prop :=
  request.customNodes = [] ∧ request.addedEdges = [] ∧ request.removedEdgeIds = [] ∧
    request.removedNodeIds = [] ∧ request.proposals = []

/-- `_build_sync_patches` of a request that only edits nodes and the ontology. -/
def buildSyncPatches (env : SyncEnv rt) (s : GraphState rt) (request : GraphSyncRequest rt) :
    Except String (List (Patch rt)) := do
  let items ← request.nodes.mapM (itemPatch env s)
  pure (ontologyPatches s request.ontology ++ items.flatten)

end RcpGraph
