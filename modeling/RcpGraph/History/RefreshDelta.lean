import Mathlib.Data.Prod.Lex
import Mathlib.Data.List.Lex
import Mathlib.Data.List.Sort
import Mathlib.Data.String.Basic
import RcpGraph.History.Standings
import RcpGraph.Lib.JsonText

/-!
The refresh delta: an index of what changed since the last graph ingest, bounded
in entries and bytes. Contested nodes come first, then recent events from the
newest on, and the first candidate that does not fit ends the selection.
-/

namespace RcpGraph

variable {rt : Runtime}

namespace RefreshDelta

def REFRESH_DELTA_MAX_ENTRIES : Nat := 50
def REFRESH_DELTA_MAX_BYTES : Nat := 16 * 1024

/-- `model_fields_set` of the payloads: the fields their author wrote. -/
structure FieldsSet (rt : Runtime) where
  node : RawNode rt → List String
  update : NodeUpdate → List String
  edge : NewEdge → List String
  ambiguity : NewAmbiguity → List String
  proposal : NewProposal rt → List String
  term : NewGlossaryTerm → List String
  resolution : ProposalResolution → List String
  withdrawal : ProposalWithdrawal → List String

def outcomeOf : ResolutionStatus → Outcome
  | .approved => .approved
  | .rejected => .rejected
  | .withdrawn => .withdrawn

section Recent

variable (fields : FieldsSet rt) (s : GraphState rt) (p : Patch rt)

/-- `_node_entry`. -/
def nodeEntry (category : Category) (id : String) (fieldNames : List String) : EntryFields where
  category := category
  targetId := id
  targetType := targetType s id
  title := boundedTitle (titleOf s id)
  revision := p.revision
  author := p.author
  fieldNames := fieldNames
  currentStanding := standingAt s id

def proposalEntry (id : String) (reason : Option String) (decision : Outcome) : EntryFields where
  category := .proposalDecision
  targetId := id
  targetType := "proposal"
  title := boundedTitle (((s.proposals.get? id).map fun q => q.title).getD "")
  revision := p.revision
  author := p.author
  fieldNames := Text.sortedSet ("status" :: reason.toList)
  decision := some decision

/-- The targets of `_chat_entries`: id, type, title and field names. -/
def chatTargets : GraphOperation rt → List (String × String × String × List String)
  | .createNodes nodes =>
      nodes.map fun raw =>
        (raw.id, raw.type.name, ((raw.field? "title").bind Json.str?).getD "",
          Text.sortedSet (fields.node raw))
  | .updateNodes updates =>
      updates.map fun u => (u.id, targetType s u.id, titleOf s u.id, Text.sortedSet u.changes.keys)
  | .createEdges edges =>
      edges.map fun e => (e.edgeId, "edge", e.relation, Text.sortedSet (fields.edge e))
  | .removeEdges ids => ids.map fun id => (id, "edge", "", ["removed"])
  | .supersedeNodes items =>
      items.map fun i => (i.id, targetType s i.id, titleOf s i.id, ["status"])
  | .mergeNodes merges =>
      merges.map fun m => (m.duplicate, targetType s m.duplicate, titleOf s m.duplicate, ["status"])
  | .createAmbiguities ambiguities =>
      ambiguities.map fun a => (a.id, "ambiguity", "", Text.sortedSet (fields.ambiguity a))
  | .resolveAmbiguities resolutions => resolutions.map fun r => (r.id, "ambiguity", "", ["status"])
  | .createProposals proposals =>
      proposals.map fun raw =>
        (raw.proposal.id, "proposal", raw.proposal.title, Text.sortedSet (fields.proposal raw))
  | .upsertGlossary terms =>
      terms.map fun t => (t.term, "glossary_term", t.term, Text.sortedSet (fields.term t))
  | .setProjectTruthScope _ _ => [("project_truth_scope", "project", "", ["truth_scope"])]
  | _ => []

/-- `_chat_entries`. -/
def chatEntries (op : GraphOperation rt) : List EntryFields :=
  ((chatTargets fields s op).filter fun t => t.1 ≠ "").map fun t =>
    { category := .chatGraphUpdate
      targetId := t.1
      targetType := t.2.1
      title := boundedTitle t.2.2.1
      revision := p.revision
      author := p.author
      fieldNames := t.2.2.2
      currentStanding := standingAt s t.1 }

/-- The entries of one operation by its kind. -/
def decisionEntries : GraphOperation rt → List EntryFields
  | .updateNodes updates =>
      if p.kind = .approval then
        (updates.filter fun u => decide ("base_updated_rev" ∈ fields.update u)).map fun u =>
          nodeEntry s p .humanProseEdit u.id (Text.sortedSet u.changes.keys)
      else []
  | .resolveProposals resolutions =>
      resolutions.map fun r =>
        proposalEntry s p r.id
          (if "reason" ∈ fields.resolution r then some "rejection_reason" else none)
          (outcomeOf r.status)
  | .withdrawProposals proposals =>
      proposals.map fun w =>
        proposalEntry s p w.id
          (if "reason" ∈ fields.withdrawal w then some "resolution_reason" else none) .withdrawn
  | .resolveAmbiguities resolutions =>
      if p.author = some .human then
        resolutions.map fun r =>
          { category := .ambiguityDecision
            targetId := r.id
            targetType := "ambiguity"
            revision := p.revision
            author := p.author
            fieldNames := ["status"]
            decision := some (if r.dismissed then .dismissed else .resolved) }
      else []
  | .removeNodes ids =>
      ids.map fun id =>
        { category := .nodeRemoval
          targetId := id
          targetType := "node"
          revision := p.revision
          author := p.author
          fieldNames := ["removed"] }
  | _ => []

def isRemoval : GraphOperation rt → Bool
  | .removeNodes _ => true
  | _ => false

def operationEntries (op : GraphOperation rt) : List EntryFields :=
  decisionEntries fields s p op ++
    if (p.kind = .chat ∨ p.kind = .work) ∧ isRemoval op = false then chatEntries fields s p op
    else []

end Recent

/-- The key that `recent` is sorted by. -/
def sortKey (e : Entry) : ℤ ×ₗ String ×ₗ String ×ₗ String ×ₗ List String :=
  toLex (-(e.revision : ℤ),
    toLex (e.category.name, toLex (e.targetType, toLex (e.targetId, e.fieldNames))))

/-- `sorted` by that key. -/
def sorted (entries : List Entry) : List Entry :=
  entries.insertionSort fun a b => sortKey a ≤ sortKey b

/-- `_recent_entries`. -/
def recentEntries (fields : FieldsSet rt) (patches : List (Patch rt)) (s : GraphState rt) :
    Except String (List Entry) :=
  ((patches.flatMap fun p => p.ops.flatMap (operationEntries fields s p)).mapM
    EntryFields.validate).map sorted

/-- `_entry_identity`. -/
def entryIdentity (e : Entry) : String × Nat × String :=
  (e.targetId, e.revision, Text.join "," e.fieldNames)

/-- The accepted patches: those of the accepted steps, or those whose report rejects nothing. -/
def acceptedPatches (patches : List (Patch rt)) (m : MaterializationResult rt)
    (steps : Option (List (Patch rt × Bool))) : List (Patch rt) :=
  let accepted :=
    match steps with
    | some steps => (steps.filter Prod.snd).map Prod.fst
    | none =>
        patches.filter fun p => (m.reports.get? p.revision).any fun report => !rejected report
  accepted.insertionSort fun p q => p.revision ≤ q.revision

def baselineOf (accepted : List (Patch rt)) : Nat :=
  ((accepted.filter fun p => p.kind = .seed ∨ p.kind = .refresh).map fun p => p.revision).foldl max 0

/-- The entries a delta selects from: contested nodes, then recent events. -/
structure Candidates where
  mandatory : List Entry
  recent : List Entry

def Candidates.list (c : Candidates) : List Entry :=
  c.mandatory ++
    c.recent.filter fun e => entryIdentity e ∉ c.mandatory.map entryIdentity

/-- The candidates of `build_refresh_delta`. -/
def candidates (fields : FieldsSet rt) (accepted : List (Patch rt)) (s : GraphState rt) :
    Except String Candidates := do
  let baseline := baselineOf accepted
  let transitions ← standingTransitionEntries accepted s
  let mandatory ← currentContestedEntries s transitions
  let recent ← recentEntries fields (accepted.filter fun p => baseline < p.revision) s
  pure ⟨mandatory, sorted (transitions.filter (fun e => baseline < e.revision) ++ recent)⟩

/-- `_omitted_revision_range`. -/
def omittedRevisionRange (entries : List Entry) : Option (Nat × Nat) :=
  match entries.map fun e => e.revision with
  | [] => none
  | r :: rs => some (rs.foldl min r, rs.foldl max r)

section Encoding

def nat (n : Nat) : Json := .num n

def nullable {α : Type} (write : α → Json) : Option α → Json
  | some a => write a
  | none => .null

def Outcome.name : Outcome → String
  | approved => "approved"
  | rejected => "rejected"
  | withdrawn => "withdrawn"
  | resolved => "resolved"
  | dismissed => "dismissed"

/-- `model_dump(mode="json")` of an entry. -/
def Entry.dump (e : Entry) : Json :=
  .obj
    [ ("category", .str e.category.name), ("target_id", .str e.targetId),
      ("target_type", .str e.targetType), ("title", .str e.title), ("revision", nat e.revision),
      ("author", nullable (fun a => .str a.name) e.author),
      ("field_names", Json.strArr e.fieldNames),
      ("previous_standing", nullable (fun s => .str s.name) e.previousStanding),
      ("current_standing", nullable (fun s => .str s.name) e.currentStanding),
      ("decision", nullable (fun d => .str d.name) e.decision) ]

/-- What a delta is built from, before its bounds are checked. -/
structure Fields where
  afterRevision : Nat
  throughRevision : Nat
  entries : List Entry
  omittedCount : Nat
  omittedRange : Option (Nat × Nat)

/-- The document that `_candidate_encoded_size` measures, and the one a delta dumps to. -/
def Fields.dump (d : Fields) : Json :=
  .obj
    [ ("after_revision", nat d.afterRevision), ("through_revision", nat d.throughRevision),
      ("entries", .arr (d.entries.map Entry.dump)), ("omitted_count", nat d.omittedCount),
      ("omitted_from_revision", nullable (fun r => nat r.1) d.omittedRange),
      ("omitted_through_revision", nullable (fun r => nat r.2) d.omittedRange) ]

/-- `_encoded_size`. -/
def Fields.encodedSize (d : Fields) : Nat := (JsonText.dumps d.dump).utf8ByteSize

end Encoding

/-- `RefreshDelta`: the fields that passed `enforce_bounds`. -/
structure Delta extends Fields where
  entries_le : entries.length ≤ REFRESH_DELTA_MAX_ENTRIES
  ordered : afterRevision ≤ throughRevision
  size_le : toFields.encodedSize ≤ REFRESH_DELTA_MAX_BYTES

/-- Validation of a delta when it is built. -/
def Fields.validate (d : Fields) : Except String Delta :=
  if entries : d.entries.length ≤ REFRESH_DELTA_MAX_ENTRIES then
    if ordered : d.afterRevision ≤ d.throughRevision then
      if size : d.encodedSize ≤ REFRESH_DELTA_MAX_BYTES then .ok ⟨d, entries, ordered, size⟩
      else .error ("refresh_delta exceeds " ++ toString REFRESH_DELTA_MAX_BYTES ++ " bytes")
    else .error "through_revision cannot precede after_revision"
  else
    .error ("List should have at most " ++ toString REFRESH_DELTA_MAX_ENTRIES ++
      " items after validation")

/-- A delta with some entries selected and the others omitted. -/
def fieldsOf (baseline through : Nat) (selected omitted : List Entry) : Fields where
  afterRevision := baseline
  throughRevision := through
  entries := selected
  omittedCount := omitted.length
  omittedRange := omittedRevisionRange omitted

/-- The greedy loop: what is selected, and what is left out. -/
def select (baseline through : Nat) (selected : List Entry) : List Entry → List Entry × List Entry
  | [] => (selected, [])
  | e :: rest =>
      if REFRESH_DELTA_MAX_ENTRIES ≤ selected.length then (selected, e :: rest)
      else if REFRESH_DELTA_MAX_BYTES <
          (fieldsOf baseline through (selected ++ [e]) rest).encodedSize then (selected, e :: rest)
      else select baseline through (selected ++ [e]) rest

/-- `build_refresh_delta`. -/
def buildRefreshDelta (fields : FieldsSet rt) (patches : List (Patch rt))
    (m : MaterializationResult rt) (steps : Option (List (Patch rt × Bool))) :
    Except String Delta := do
  let accepted := acceptedPatches patches m steps
  let c ← candidates fields accepted m.state
  let chosen := select (baselineOf accepted) m.state.revision [] c.list
  (fieldsOf (baselineOf accepted) m.state.revision chosen.1 chosen.2).validate

end RefreshDelta

end RcpGraph
