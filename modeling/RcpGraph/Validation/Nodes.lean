import RcpGraph.Validation.Ontology

/-!
Rules for the nodes a patch creates and updates, with the research types' own
rules: a Decision's ballot and transition, an Experiment's attempts, and the
compatibility-only fields no live patch may write.
-/

namespace RcpGraph

open Schema

variable {rt : Runtime}

/-- `SLUG_RE`. -/
def isSlug (id : String) : Bool :=
  match Text.splitFirst '/' id.toList with
  | none => false
  | some (front, back) => Text.isIdentifier front && Text.slugBlocks '-' true back

def slugPrefixOf (raw : RawNode rt) : String :=
  raw.declaredExtension.getD raw.type.slugPrefix

/-- `validate_new_node`. Its payload validation repeats the one that built the payload. -/
def newNodeIssues (s : GraphState rt) (p : Patch rt) (w : Writer) (raw : RawNode rt) :
    List Issue :=
  let revision := p.revisionRef
  rejectIf (raw.id ∈ s.nodes) "duplicate-node-id"
      ("Node " ++ Text.quoted raw.id ++ " already exists; use update_nodes.") revision ++
    rejectIf (!isSlug raw.id) "malformed-slug"
      ("Malformed node slug " ++ Text.quoted raw.id ++ ".") revision ++
    rejectIf (!(slugPrefixOf raw ++ "/").toList.isPrefixOf raw.id.toList) "wrong-slug-prefix"
      ("Node " ++ Text.quoted raw.id ++ " must use the " ++ slugPrefixOf raw ++
        "/ prefix for type " ++ Text.quoted (raw.declaredExtension.getD raw.type.name) ++ ".")
      revision ++
    rejectIf (raw.standing.getD .asserted ≠ .asserted && w.author ≠ some .human)
      "agent-created-trusted-node" "Agent-created nodes must start asserted." revision ++
    newNodeExtensionIssues s raw revision false false

/-- `_validate_grounded_scope`. -/
def groundedScopeIssues (rt : Runtime) (id : String) (scope sourceRefs : Json)
    (revision : Option Nat) : List Issue :=
  let scope := rt.normalizeText (scope.str?.getD "")
  let excerpts := (sourceRefs.arr?.getD []).filterMap fun ref =>
    ref.obj?.map fun fs => rt.normalizeText (((Assoc.find "excerpt" fs).bind Json.str?).getD "")
  rejectIf (scope ≠ "" && !excerpts.any fun e => Text.contains e scope)
    "ungrounded-hypothesis-scope"
    ("Hypothesis scope for " ++ Text.quoted id ++
      " is not explicitly present in a cited source excerpt.") revision [id]

/-- `validate_updated_node_authoring`. -/
def updatedNodeAuthoringIssues (n : ProjectNode rt) (changes : Dict String Json)
    (revision : Option Nat) : List Issue :=
  if n.type = .hypothesis && (changed changes "scope").truthy then
    groundedScopeIssues rt n.id (changed changes "scope")
      (changes.getD "source_refs" ((n.field? "source_refs").getD (.arr []))) revision
  else []

/-- The first node whose slug suffix is close to a new one's. -/
def duplicateFlag (rt : Runtime) (front back : List Char) (id : String)
    (revision : Option Nat) : List String → List Issue
  | [] => []
  | existing :: rest =>
      match Text.splitFirst '/' existing.toList with
      | none => [.raised "not enough values to unpack (expected 2, got 1)"]
      | some (front', back') =>
          if front = front' && rt.similar (String.ofList back) (String.ofList back') then
            [flag "possible-duplicate"
              (id ++ " may duplicate " ++ existing ++ "; review rather than merge automatically.")
              revision]
          else duplicateFlag rt front back id revision rest

/-- The part of a new Decision that only the choice action may write. -/
def newDecisionIssues (raw : RawNode rt) (revision : Option Nat) : List Issue :=
  let status := (raw.field? "status").getD (.str "open")
  let selected := (raw.field? "selected_option").getD .null
  if status = .str "revisit" then
    [reject "incoherent-decision-creation"
      ("Decision " ++ Text.quoted raw.id ++
        " cannot start revisit because it has no prior decision.") revision [raw.id]]
  else if selected ≠ .null ∨ status = .str "decided" then
    [reject "agent-created-decision-action"
      ("New Decision " ++ Text.quoted raw.id ++
        " cannot use decide_decision; selected_option and status decided are written only by the " ++
        "human Decision choice action.") revision [raw.id]]
  else
    rejectIf (status ≠ .str "open" && status ≠ .str "ready") "agent-created-decision-action"
      ("New Decision " ++ Text.quoted raw.id ++ " must start open or ready.") revision [raw.id]

/-- `validate_new_node_authoring`. -/
def newNodeAuthoringIssues (s : GraphState rt) (p : Patch rt) (w : Writer) (raw : RawNode rt)
    (carried : Bool) : List Issue :=
  let revision := p.revisionRef
  let scope := (raw.field? "scope").getD .null
  newNodeExtensionIssues s raw revision true (w.author = some .agent) ++
    rejectIf (!carried && raw.type = .evidence && (raw.field? "origin").isNone)
      "missing-evidence-origin"
      ("New Evidence node " ++ Text.quoted raw.id ++ " must explicitly supply origin.") revision
      [raw.id] ++
    (if !carried && raw.type = .hypothesis && scope.truthy then
      groundedScopeIssues rt raw.id scope ((raw.field? "source_refs").getD (.arr []))
        revision
    else []) ++
    rejectIf (w.author = some .agent && raw.type = .hypothesis &&
        (raw.field? "status").getD (.str "proposed") ≠ .str "proposed")
      "agent-created-belief-transition"
      ("Agent-created Hypothesis " ++ Text.quoted raw.id ++ " must start proposed.") revision
      [raw.id] ++
    (if raw.type = .decision then newDecisionIssues raw revision else []) ++
    match Text.splitFirst '/' raw.id.toList with
    | some (front, back) => duplicateFlag rt front back raw.id revision s.nodes.keys
    | none => duplicateFlag rt [] raw.id.toList raw.id revision s.nodes.keys

/-- What iterating over a JSON value yields. -/
def iterate : Json → Except String (List Json)
  | .arr xs => .ok xs
  | .obj fs => .ok (fs.map fun f => .str f.1)
  | .str s => .ok (s.toList.map fun c => .str c.toString)
  | .null => .error "'NoneType' object is not iterable"
  | .bool _ => .error "'bool' object is not iterable"
  | .num _ => .error "'int' object is not iterable"

/-- `validate_source_refs`. -/
def sourceRefIssues (refs : Json) (p : Patch rt) (w : Writer) (repositories : List String) :
    List Issue :=
  match iterate refs with
  | .error text => [.raised text]
  | .ok items =>
      items.flatMap fun item =>
        match (Fields.sourceRef rt).check rt.lax item with
        | .error text =>
            [reject "invalid-source-ref" ("Source reference is malformed: " ++ text ++ ".")
              p.revisionRef]
        | .ok ref =>
            let repository := ((ref.get? "truth_repository").bind Json.str?).getD ""
            rejectIf (w.author ≠ some .human && repository ∉ repositories)
              "source-outside-run-scope"
              ("Source reference uses " ++ Text.quoted repository ++
                ", which is not a project repository.") p.revisionRef

/-- `requires_proposal`. -/
def requiresProposal (n : ProjectNode rt) (changes : Dict String Json) : Bool :=
  match n.type with
  | .hypothesis => (changes.get? "status").any fun v => v ≠ .str (n.text "status")
  | .decision =>
      decide ("selected_option" ∈ changes) || decide (changed changes "status" = .str "decided")
  | _ => false

/-- Whether `value` is a member of a list value, by the language's equality. -/
def memberOfList (value : Json) (options : Json) : Bool :=
  (options.arr?.getD []).any fun o => o.pyEq value

/-- `decision_transition_error`. -/
def decisionTransitionError (n : ProjectNode rt) (changes : Dict String Json) : Option String :=
  let old := fun name => (n.field? name).getD .null
  let selected := changes.getD "selected_option" (old "selected_option")
  let status := changes.getD "status" (old "status")
  let options := changes.getD "options" (old "options")
  let isList := options.arr?.isSome
  let chosen := changed changes "selected_option"
  if chosen ≠ .null && isList && !memberOfList chosen options then
    some ("Decision " ++ n.id ++ " can select only an option listed in its resulting options.")
  else if status = .str "decided" && (selected = .null || !isList || !memberOfList selected options)
  then
    some ("Decision " ++ n.id ++
      " can be decided only with a selected option listed in its resulting options.")
  else if status = .str "revisit" && old "status" ≠ .str "revisit" && old "selected_option" = .null
  then some ("Decision " ++ n.id ++ " can be revisited only after it has a prior decision.")
  else if (old "status" = .str "open" || old "status" = .str "ready" || old "status" = .str "revisit")
      && chosen ≠ .null && status ≠ .str "decided" then
    some ("Decision " ++ n.id ++ " must become decided when an option is selected.")
  else none

/-- `reject_live_legacy_new_node`. -/
def liveLegacyNewNodeIssues (raw : RawNode rt) (revision : Option Nat) : List Issue :=
  rejectIf (raw.type = .experiment && raw.field? "status" = some (.str "unspecified"))
      "live-legacy-experiment-phase"
      ("New Experiment " ++ Text.quoted raw.id ++
        " cannot author compatibility-only phase 'unspecified'.") revision [raw.id] ++
    rejectIf (raw.type = .evidence && (raw.field? "legacy_strength").isSome)
      "live-legacy-evidence-strength"
      ("New Evidence " ++ Text.quoted raw.id ++
        " cannot set compatibility-only legacy_strength.") revision [raw.id]

/-- Whether a live update authors the compatibility-only Experiment phase. -/
def liveLegacyPhase (n : ProjectNode rt) (changes : Dict String Json) (admission : Bool) :
    Except String Bool :=
  if admission && n.type = .experiment then memberOf (changed changes "status") ["unspecified"]
  else .ok false

def liveLegacyStrength (n : ProjectNode rt) (changes : Dict String Json) (admission : Bool) : Bool :=
  admission && n.type = .evidence && decide ("legacy_strength" ∈ changes)

/-- `reject_live_legacy_update`. -/
def liveLegacyUpdateIssues (n : ProjectNode rt) (changes : Dict String Json)
    (revision : Option Nat) (admission : Bool) : List Issue :=
  (match liveLegacyPhase n changes admission with
    | .error text => [.raised text]
    | .ok phase =>
        rejectIf phase "live-legacy-experiment-phase"
          ("Update to Experiment " ++ Text.quoted n.id ++
            " cannot author compatibility-only phase 'unspecified'.") revision [n.id]) ++
    rejectIf (liveLegacyStrength n changes admission) "live-legacy-evidence-strength"
      ("Update to Evidence " ++ Text.quoted n.id ++
        " cannot set compatibility-only legacy_strength.") revision [n.id]

/-- `reject_incomplete_decision_ballot`. -/
def incompleteBallotIssues (n : ProjectNode rt) (revision : Option Nat) : List Issue :=
  rejectIf (n.type = .decision && (n.text "status" = "ready" || n.text "status" = "revisit") &&
      (Text.sortedSet (n.texts "options")).length < 2)
    "incomplete-decision-ballot"
    ("Decision " ++ n.id ++ " must have at least two distinct options before it can be queued as " ++
      n.text "status" ++ ".") revision [n.id]

/-- `evidence_relation_endpoint_error`. -/
def evidenceRelationEndpointError (relation : String) (source target : NodeType) : Option String :=
  if target = .hypothesis && (source = .evidence || (relation = "contradicts" && source = .hypothesis))
  then none
  else
    some ("Relation " ++ Text.quoted relation ++ " requires Evidence -> Hypothesis" ++
      (if relation = "contradicts" then " or Hypothesis -> Hypothesis" else "") ++
      " endpoints, not " ++ source.name ++ " -> " ++ target.name ++ ".")

/-- `expectation_applies`. -/
def expectationApplies (relation : String) (source target : Option NodeType) : Bool :=
  relation = "produces" && source.all (· = .experiment) && target.all (· = .evidence)

def activeAttempt (attempt : Json) : Bool :=
  ((attempt.get? "status").bind Json.str?).any fun s => s ∈ ["planned", "submitted", "running"]

/-- `has_active_experiment_attempt` of one version of a node. -/
def hasActiveAttempt (n : ProjectNode rt) : Bool :=
  n.type = .experiment &&
    (((n.field? "attempts").bind Json.arr?).getD []).any activeAttempt

end RcpGraph
