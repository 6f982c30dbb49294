import RcpGraph.Core.Vocabulary

/-!
Node documents. Every node type declares its fields once, with the kind and the
default of each, and a node is a document that conforms to its type's
declaration. Identity, review standing and revision stamps are fields of the
structure, because no update may write them.
-/

namespace RcpGraph

open Schema

namespace Fields

def text : Kind := .str .any
def optText : Kind := .opt text
def texts : Kind := .list text
def nonEmptyText : Kind := .str (.minLength 1)
def choice (options : List String) : Kind := .str (.literal options)

/-- A required text that is stored stripped and may not be blank. -/
def stripped (refusal : String) : Normal where
  run s := if Text.strip s = "" then .error refusal else .ok (Text.strip s)
  stable s t h := by
    split at h
    next => cases h
    next hs =>
      cases h
      simp [hs]

def textField (name : String) : Field := .required name text
def optionalText (name : String) : Field := .withDefault name text (.str "") ⟨rfl, rfl⟩
def nullableText (name : String) : Field := .withDefault name optText .null ⟨rfl, rfl⟩

def listField (name : String) (k : Kind) : Field :=
  .withDefault name (.list k) (.arr []) ⟨rfl, rfl⟩

def textsField (name : String) : Field := listField name text

def flagField (name : String) : Field := .withDefault name .bool (.bool false) ⟨rfl, rfl⟩

/-- A choice field whose default is its first option. -/
def choiceField (name first : String) (others : List String) : Field :=
  .withDefault name (choice (first :: others)) (.str first)
    ⟨by simp [choice, Kind.str, Normal.literal, Normal.test, Except.map], rfl⟩

variable (rt : Runtime)

/-- `SourceRef`. -/
def sourceRef : Kind :=
  .record false
    [ textField "machine", textField "truth_repository",
      .required "source" (choice ["codex", "claude", "opencode", "app_chat"]),
      textField "session_id", textField "record_uuid",
      .required "timestamp" (.str rt.datetime),
      .required "excerpt" (.str (.maxLength 800)) ]
    (by simp [names, textField, Field.required])

/-- `ExperimentDecisionPin`. -/
def decisionPin : Kind :=
  .record true
    [ textField "decision_id", .required "decision_revision" (.int (some 0)),
      .required "selected_option" nonEmptyText ]
    (by simp [names, textField, Field.required])

/-- `ExperimentAttemptDebug`. -/
def attemptDebug : Kind :=
  .record true
    [ .required "mechanical_fault" nonEmptyText, .required "change" nonEmptyText,
      .required "predicted_effect" nonEmptyText ]
    (by simp [names, Field.required])

/-- `ExperimentAttempt`. -/
def attempt : Kind :=
  .record false
    [ textField "id", .required "sequence" (.int (some 1)), textField "purpose",
      choiceField "attempt_kind" "external_run" ["proposal_only"],
      listField "decision_bundle" decisionPin,
      .withDefault "debug" (.opt attemptDebug) .null ⟨rfl, rfl⟩,
      optionalText "configuration",
      choiceField "status" "planned"
        ["submitted", "running", "failed", "completed", "cancelled", "superseded"],
      textsField "job_refs", listField "source_refs" (sourceRef rt),
      nullableText "outcome", nullableText "failure_reason",
      .withDefault "started_at" (.opt (.str rt.datetime)) .null ⟨rfl, rfl⟩,
      .withDefault "finished_at" (.opt (.str rt.datetime)) .null ⟨rfl, rfl⟩ ]
    (by simp [names, textField, choiceField, listField, optionalText, textsField, nullableText,
          Field.required, Field.withDefault])

/-- `ExperimentProxy`. -/
def proxy : Kind :=
  .record true
    [ .required "stands_for" (.str (stripped "Value error, each side of a proxy must not be blank")),
      .required "measure" (.str (stripped "Value error, each side of a proxy must not be blank")) ]
    (by simp [names, Field.required])

/-- The content fields `BaseNode` declares. -/
def base : List Field :=
  [ textField "title",
    .withDefault "extension_fields" (.dict .scalar) (.obj []) ⟨rfl, rfl⟩,
    listField "source_refs" (sourceRef rt) ]

/-- The fields a node type declares for itself. -/
def own : NodeType → List Field
  | .researchQuestion =>
      [ textField "question", optionalText "motivation", optionalText "scope",
        choiceField "status" "open" ["answered", "abandoned", "superseded"] ]
  | .hypothesis =>
      [ textField "statement", optionalText "rationale", textsField "predictions",
        optionalText "scope",
        choiceField "status" "proposed"
          ["active", "supported", "weakened", "rejected", "superseded"] ]
  | .decision =>
      [ textField "question", textsField "options", nullableText "selected_option",
        nullableText "rationale", textsField "consequences",
        choiceField "status" "open" ["ready", "decided", "revisit", "superseded"] ]
  | .experiment =>
      [ textField "objective", optionalText "design", listField "proxies" proxy,
        textsField "limitations", textsField "expected_outcomes",
        textsField "interpretation_rules", textsField "completion_criteria",
        .withDefault "invocation_ceiling" (.int (some 1)) (.num 5) ⟨rfl, rfl⟩,
        choiceField "status" "proposed"
          ["designing", "implementing", "debugging", "running", "analyzing", "completed",
            "unspecified", "abandoned", "superseded"],
        listField "attempts" (attempt rt), optionalText "current_summary",
        nullableText "next_action", flagField "current_summary_stale",
        flagField "next_action_stale" ]
  | .evidence =>
      [ textField "observation", optionalText "interpretation",
        choiceField "role" "result" ["diagnostic"],
        .withDefault "legacy_strength"
          (.opt (choice ["diagnostic", "preliminary", "supporting", "confirmatory"])) .null
          ⟨rfl, rfl⟩,
        choiceField "validity" "valid" ["qualified", "invalid", "superseded"],
        .withDefault "origin"
          (choice ["internal_run", "external_publication", "external_instance", "analytic",
            "unknown"]) (.str "unknown") ⟨rfl, rfl⟩,
        textsField "artifact_refs" ]
  | .blocker =>
      [ textField "description",
        .withDefault "blocker_type"
          (choice ["scientific", "design", "data", "implementation", "infrastructure", "unknown"])
          (.str "unknown") ⟨rfl, rfl⟩,
        choiceField "status" "open" ["resolved", "superseded"],
        optionalText "resolution_condition", nullableText "recommended_action" ]

end Fields

variable (rt : Runtime)

/-- Every field of a node type that an update may name. -/
def contentFields (t : NodeType) : List Field := Fields.base rt ++ Fields.own rt t

theorem nodup_contentFields (t : NodeType) : (names (contentFields rt t)).Nodup := by
  cases t <;>
    simp [names, contentFields, Fields.base, Fields.own, Fields.textField, Fields.optionalText,
      Fields.nullableText, Fields.listField, Fields.textsField, Fields.flagField,
      Fields.choiceField, Field.required, Field.withDefault]

/-- A node as a patch writes it: only the fields its author set. -/
structure RawNode where
  id : String
  type : NodeType
  extensionType : Option (Option String)
  standing : Option Standing
  createdRev : Option Int
  updatedRev : Option Int
  content : Doc
  extensionType_ok : ∀ e, extensionType = some (some e) → Text.isIdentifier e.toList = true
  content_ok : readFields strict (contentFields rt type) content = .ok content

/-- A node of the graph: a completed document of its type. -/
structure ProjectNode where
  id : String
  type : NodeType
  extensionType : Option String
  standing : Standing
  createdRev : Nat
  updatedRev : Nat
  content : Doc
  conforms : Conforms (contentFields rt type) content

variable {rt}

instance : DecidableEq (RawNode rt) := fun a b =>
  decidable_of_iff
    (a.id = b.id ∧ a.type = b.type ∧ a.extensionType = b.extensionType ∧
      a.standing = b.standing ∧ a.createdRev = b.createdRev ∧ a.updatedRev = b.updatedRev ∧
      a.content = b.content) (by
    cases a
    cases b
    simp)

instance : DecidableEq (ProjectNode rt) := fun a b =>
  decidable_of_iff
    (a.id = b.id ∧ a.type = b.type ∧ a.extensionType = b.extensionType ∧
      a.standing = b.standing ∧ a.createdRev = b.createdRev ∧ a.updatedRev = b.updatedRev ∧
      a.content = b.content) (by
    cases a
    cases b
    simp)

namespace RawNode

/-- A payload without an extension type. -/
theorem no_extension (e : String) (h : (none : Option (Option String)) = some (some e)) :
    Text.isIdentifier e.toList = true := nomatch h

/-- A written content field. -/
def field? (raw : RawNode rt) (name : String) : Option Json := Assoc.find name raw.content

def declaredExtension (raw : RawNode rt) : Option String := raw.extensionType.join

/-- The node `create_nodes` materializes from this payload. -/
def create (raw : RawNode rt) (revision : Nat) : ProjectNode rt where
  id := raw.id
  type := raw.type
  extensionType := raw.declaredExtension
  standing := raw.standing.getD .asserted
  createdRev := revision
  updatedRev := revision
  content := completeFields (contentFields rt raw.type) raw.content
  conforms := conforms_of_read _ _ (nodup_contentFields rt raw.type) strict raw.content_ok

end RawNode

namespace ProjectNode

def field? (n : ProjectNode rt) (name : String) : Option Json := Assoc.find name n.content

/-- A text field; a missing or null field reads as the empty text. -/
def text (n : ProjectNode rt) (name : String) : String :=
  ((n.field? name).bind Json.str?).getD ""

/-- `getattr(node, "status", None)`. -/
def status? (n : ProjectNode rt) : Option String := (n.field? "status").bind Json.str?

def texts (n : ProjectNode rt) (name : String) : List String :=
  ((n.field? name).map Json.strings).getD []

/-- The renamed invocation budget is still read under its old name. -/
def migrateAttemptCeiling (t : NodeType) (doc : Doc) : Doc :=
  match t, Assoc.find "attempt_ceiling" doc with
  | .experiment, some v =>
      Assoc.write "invocation_ceiling" v (doc.filter fun e => e.1 ≠ "attempt_ceiling")
  | _, _ => doc

/-- The content after `data.update(changes)` and validation. -/
def reviseContent (n : ProjectNode rt) (co : Coercions) (changes : Dict String Json) :
    Except String Doc :=
  (readClosed co (contentFields rt n.type)
    (migrateAttemptCeiling n.type (Assoc.overwrite n.content changes.entries))).map
      (completeFields (contentFields rt n.type))

theorem reviseContent_settle (n : ProjectNode rt) (co : Coercions) (changes : Dict String Json)
    (doc : Doc) (h : n.reviseContent co changes = .ok doc) :
    settle co (contentFields rt n.type)
      (migrateAttemptCeiling n.type (Assoc.overwrite n.content changes.entries)) = .ok doc := by
  unfold reviseContent at h
  cases hr : readClosed co (contentFields rt n.type)
      (migrateAttemptCeiling n.type (Assoc.overwrite n.content changes.entries)) with
  | error e => simp [hr, Except.map] at h
  | ok kept =>
      simp only [hr, Except.map, Except.ok.injEq] at h
      simp [settle, (readClosed_ok co _ _ kept hr).1, Except.map, h]

/-- A node with new content, revision stamp and standing. -/
def revise (n : ProjectNode rt) (co : Coercions) (changes : Dict String Json) (revision : Nat)
    (standing : Standing) : Except String (ProjectNode rt) :=
  match h : n.reviseContent co changes with
  | .error e => .error e
  | .ok doc =>
      .ok
        { n with
          standing := standing
          updatedRev := revision
          content := doc
          conforms := conforms_settle co _ _ doc (nodup_contentFields rt n.type)
            (reviseContent_settle n co changes doc h) }

/-- `_retire_node` on one node. -/
def retire (n : ProjectNode rt) (revision : Nat) (preserveStanding : Bool) :
    Except String (ProjectNode rt) :=
  n.revise rt.lax (Dict.ofList [(n.type.lifecycleField, .str retiredValue)]) revision
    (if preserveStanding then n.standing else .asserted)

def withStanding (n : ProjectNode rt) (standing : Standing) (revision : Nat) : ProjectNode rt :=
  { n with standing := standing, updatedRev := revision }

/-- What `revise` leaves alone and what it writes. -/
theorem revise_ok (n n' : ProjectNode rt) (co : Coercions) (changes : Dict String Json)
    (revision : Nat) (standing : Standing) (h : n.revise co changes revision standing = .ok n') :
    n.reviseContent co changes = .ok n'.content ∧ n'.id = n.id ∧ n'.type = n.type ∧
      n'.extensionType = n.extensionType ∧ n'.standing = standing ∧
      n'.createdRev = n.createdRev ∧ n'.updatedRev = revision := by
  unfold revise at h
  split at h
  next => cases h
  next doc hdoc =>
    cases h
    exact ⟨hdoc, rfl, rfl, rfl, rfl, rfl, rfl⟩

theorem find_migrateAttemptCeiling (t : NodeType) (doc : Doc)
    (hn : (doc.map Prod.fst).Nodup) (name : String) (hname : name ≠ "invocation_ceiling")
    (hname' : name ≠ "attempt_ceiling") :
    Assoc.find name (migrateAttemptCeiling t doc) = Assoc.find name doc := by
  unfold migrateAttemptCeiling
  split
  next => 
    rw [Assoc.find_write, if_neg hname,
      Assoc.find_filter (fun k _ => decide (k ≠ "attempt_ceiling")) name doc hn]
    cases Assoc.find name doc <;> simp [Option.filter, hname']
  next => rfl

theorem nodup_content (n : ProjectNode rt) : (n.content.map Prod.fst).Nodup := by
  rw [← n.conforms.complete, keys_completeFields]
  exact nodup_contentFields rt n.type

/-- A declared field of a node is there. -/
theorem field?_isSome (n : ProjectNode rt) (f : Field) (hf : f ∈ contentFields rt n.type) :
    (n.field? f.name).isSome := by
  obtain ⟨j, hj, -⟩ := n.conforms.field (nodup_contentFields rt n.type) f hf
  simp [field?, hj]

/-- What an update leaves in a field that is stored as written. -/
theorem find_reviseContent (n : ProjectNode rt) (co : Coercions) (changes : Dict String Json)
    (doc : Doc) (h : n.reviseContent co changes = .ok doc) (f : Field)
    (hf : f ∈ contentFields rt n.type) (hv : f.kind.Verbatim)
    (hname : f.name ≠ "invocation_ceiling") (hname' : f.name ≠ "attempt_ceiling") :
    Assoc.find f.name doc = (changes.get? f.name).or (n.field? f.name) := by
  have hn := nodup_contentFields rt n.type
  have hfind := find_settle_verbatim co _ _ doc hn (reviseContent_settle n co changes doc h) f hf hv
  have hnodup := Assoc.nodup_overwrite n.content changes.entries n.nodup_content
  rw [hfind, find_migrateAttemptCeiling _ _ hnodup _ hname hname',
    Assoc.find_overwrite _ _ changes.nodup]
  obtain ⟨j, hj⟩ := Option.isSome_iff_exists.mp (n.field?_isSome f hf)
  rw [field?] at hj
  rw [Dict.get?, field?, hj]
  cases Assoc.find f.name changes.entries <;> rfl

theorem attempt_ceiling_undeclared (t : NodeType) :
    "attempt_ceiling" ∉ names (contentFields rt t) := by
  cases t <;>
    simp [names, contentFields, Fields.base, Fields.own, Fields.textField, Fields.optionalText,
      Fields.nullableText, Fields.listField, Fields.textsField, Fields.flagField,
      Fields.choiceField, Field.required, Field.withDefault]

/-- A field that is not declared is not there. -/
theorem field?_undeclared (n : ProjectNode rt) (name : String)
    (h : name ∉ names (contentFields rt n.type)) : n.field? name = none := by
  rw [field?, ← n.conforms.complete]
  exact find_completeFields_of_not_mem _ _ name h

/-- The document an update is read from, at a field the update does not name. -/
theorem find_migrated (n : ProjectNode rt) (changes : Dict String Json) (name : String)
    (hname : name ∉ changes.keys)
    (hceiling : name = "invocation_ceiling" → "attempt_ceiling" ∉ changes.keys) :
    Assoc.find name (migrateAttemptCeiling n.type (Assoc.overwrite n.content changes.entries)) =
      n.field? name ∨ name = "attempt_ceiling" := by
  have hnodup := Assoc.nodup_overwrite n.content changes.entries n.nodup_content
  have hkept := Assoc.find_overwrite_of_not_mem n.content changes.entries name hname
  by_cases hattempt : name = "attempt_ceiling"
  · exact .inr hattempt
  · left
    by_cases hinvocation : name = "invocation_ceiling"
    · have hnone : Assoc.find "attempt_ceiling" (Assoc.overwrite n.content changes.entries) =
          none := by
        rw [Assoc.find_overwrite_of_not_mem _ _ _ (hceiling hinvocation)]
        exact n.field?_undeclared _ (attempt_ceiling_undeclared n.type)
      have hsame : migrateAttemptCeiling n.type (Assoc.overwrite n.content changes.entries) =
          Assoc.overwrite n.content changes.entries := by
        unfold migrateAttemptCeiling
        rw [hnone]
        cases n.type <;> rfl
      rw [hsame]
      exact hkept
    · rw [find_migrateAttemptCeiling _ _ hnodup _ hinvocation hattempt]
      exact hkept

/-- An update leaves the fields alone that it does not name. -/
theorem field?_revise (n m : ProjectNode rt) (co : Coercions) (changes : Dict String Json)
    (revision : Nat) (standing : Standing) (h : n.revise co changes revision standing = .ok m)
    (name : String) (hname : name ∉ changes.keys)
    (hceiling : name = "invocation_ceiling" → "attempt_ceiling" ∉ changes.keys) :
    m.field? name = n.field? name := by
  obtain ⟨hdoc, -, htype, -⟩ := revise_ok n m co changes revision standing h
  have hsettle := reviseContent_settle n co changes m.content hdoc
  by_cases hdeclared : name ∈ names (contentFields rt n.type)
  · obtain ⟨f, hf, rfl⟩ := List.mem_map.mp hdeclared
    rcases n.find_migrated changes f.name hname hceiling with hsame | hattempt
    · exact find_settle_of_unchanged co _ n.content _ m.content (nodup_contentFields rt n.type)
        n.conforms hsettle f hf hsame
    · rw [hattempt] at hdeclared
      exact absurd hdeclared (attempt_ceiling_undeclared n.type)
  · rw [n.field?_undeclared name hdeclared]
    apply m.field?_undeclared
    rw [htype]
    exact hdeclared

/-- A flag holds what the update writes. -/
theorem flag_revise (n m : ProjectNode rt) (co : Coercions) (changes : Dict String Json)
    (revision : Nat) (standing : Standing) (h : n.revise co changes revision standing = .ok m)
    (name : String) (hf : Fields.flagField name ∈ contentFields rt n.type)
    (hname : name ≠ "invocation_ceiling") (hname' : name ≠ "attempt_ceiling") (b : Bool)
    (hb : changes.get? name = some (.bool b)) : m.field? name = some (.bool b) := by
  obtain ⟨hdoc, -⟩ := revise_ok n m co changes revision standing h
  have hnodup := Assoc.nodup_overwrite n.content changes.entries n.nodup_content
  have hwritten : Assoc.find name
      (migrateAttemptCeiling n.type (Assoc.overwrite n.content changes.entries)) =
        some (.bool b) := by
    rw [find_migrateAttemptCeiling _ _ hnodup _ hname hname',
      Assoc.find_overwrite _ _ changes.nodup]
    rw [Dict.get?] at hb
    rw [hb, Option.some_or]
  have hfind := find_settle co _ _ m.content (nodup_contentFields rt n.type)
    (reviseContent_settle n co changes m.content hdoc) (Fields.flagField name) hf
  rcases hfind with ⟨j, j', hj, hcheck, hout⟩ | ⟨hnone, -⟩
  · rw [show (Fields.flagField name).name = name from rfl, hwritten] at hj
    cases hj
    have hread : Kind.bool.check co (.bool b) = .ok (.bool b) := by
      simp [Kind.bool, co.bool_bool]
    rw [show (Fields.flagField name).kind = Kind.bool from rfl, hread] at hcheck
    cases hcheck
    exact hout
  · rw [show (Fields.flagField name).name = name from rfl, hwritten] at hnone
    cases hnone

end ProjectNode

end RcpGraph
