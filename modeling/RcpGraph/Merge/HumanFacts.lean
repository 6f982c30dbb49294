import Mathlib.Data.Prod.Lex
import Mathlib.Data.List.Sort
import Mathlib.Data.String.Basic
import RcpGraph.Merge.FieldWrites

/-!
Human review facts of a graph branch. The facts a merge carries to its destination are
read off the syntax of the branch's patches; the theorem compares them with the last
writer of every field, which application also writes implicitly.
-/

namespace RcpGraph

variable {rt : Runtime}

inductive HumanReviewOperation where
  | standingChange (nodeId : String) (standing : Standing)
  /-- One status update with a `human_edit` cause. -/
  | statusChange (nodeId : String) (status : Json)

structure SourceHumanFact where
  revision : Nat
  operationIndex : Nat
  operation : HumanReviewOperation

namespace BranchMerge

/-- `_human_review_value`. -/
def humanReviewValue : HumanReviewOperation → (String × ReviewField) × Json
  | .standingChange id standing => ((id, .standing), .str standing.name)
  | .statusChange id status => ((id, .status), status)

/-- `getattr` of the field of a node that is there. -/
def fieldAt (s : GraphState rt) (key : String × ReviewField) : Option Json := fieldIn s.nodes key

/-- `_require_source_human_change`. -/
def requireSourceHumanChange (base branch : GraphState rt) (operation : HumanReviewOperation) :
    Except String Unit :=
  let (key, value) := humanReviewValue operation
  if fieldAt branch key ≠ some value then
    .error "human review fact does not match the final source branch value"
  else if fieldAt base key = some value then
    .error "human review fact is not a change from the branch base"
  else .ok ()

def isBeliefAt (s : GraphState rt) (id : String) : Bool :=
  (s.nodes.get? id).any fun n => n.type.isBelief

/-- The review operations of one operation of a human. -/
def reviewOperations (branch : GraphState rt) : GraphOperation rt → List HumanReviewOperation
  | .setStanding id standing => [.standingChange id standing]
  | .updateNodes updates =>
      updates.filterMap fun u =>
        if isBeliefAt branch u.id then (u.changes.get? "status").map (.statusChange u.id) else none
  | _ => []

abbrev Latest := Dict (String × ReviewField) SourceHumanFact

def noteFacts (branch : GraphState rt) (revision index : Nat) (op : GraphOperation rt)
    (latest : Latest) : Latest :=
  (reviewOperations branch op).foldl
    (fun d r => d.insert (humanReviewValue r).1 ⟨revision, index, r⟩) latest

/-- An operation of another author retires the facts about what it writes. -/
def retireFacts (latest : Latest) : GraphOperation rt → Latest
  | .setStanding id _ => latest.erase (id, .standing)
  | .updateNodes updates =>
      updates.foldl (fun d u => if "status" ∈ u.changes then d.erase (u.id, .status) else d) latest
  | _ => latest

/-- The indexes of the operations that initiate a patch. -/
def initiatingIndexes (p : Patch rt) : List Nat :=
  match p.transition with
  | some trace =>
      (trace.initiatingGroups.flatMap (·.operationIndexes)).insertionSort (· ≤ ·)
  | none => List.range p.ops.length

def patchFacts (branch : GraphState rt) (p : Patch rt) (latest : Latest) : Except String Latest :=
  if p.admission ≠ .accepted then .ok latest
  else if p.author ≠ some .human then .ok (p.ops.foldl retireFacts latest)
  else
    Steps.run (fun index latest =>
      match p.ops[index]? with
      | none => .error "list index out of range"
      | some op => .ok (noteFacts branch p.revision index op latest))
      (initiatingIndexes p) latest

/-- `sorted` of the keys. -/
def sortedKeys (keys : List (String × ReviewField)) : List (String × ReviewField) :=
  keys.insertionSort fun k l => toLex (k.1, k.2.name) ≤ toLex (l.1, l.2.name)

/-- `branch_human_review_changes`. -/
def branchHumanReviewChanges (patches : List (Patch rt)) (base branch : GraphState rt) :
    Except String (List SourceHumanFact) := do
  let latest ← Steps.run (patchFacts branch) patches .empty
  pure (((sortedKeys latest.keys).filterMap latest.get?).filter fun change =>
    (requireSourceHumanChange base branch change.operation).isOk)

end BranchMerge

namespace BranchMerge

section Facts

variable (branch : GraphState rt)

/-- A status is a review field of beliefs only. -/
def tracked (key : String × ReviewField) : Bool :=
  match key.2 with
  | .standing => true
  | .status => isBeliefAt branch key.1

/-- What a fact says: the revision of its patch, the field and the value. -/
def SourceHumanFact.view (f : SourceHumanFact) : Nat × (String × ReviewField) × Json :=
  (f.revision, humanReviewValue f.operation)

/-- The fact of one update of a status. -/
theorem noteUpdate_get? (revision index : Nat) (u : NodeUpdate) (latest : Latest)
    (key : String × ReviewField) :
    ((noteFacts branch revision index (.updateNodes [u]) latest).get? key).map
        SourceHumanFact.view =
      (((if key = (u.id, .status) then u.changes.get? "status" else none).filter
        fun _ => tracked branch key).map fun v => (revision, key, v)).or
          ((latest.get? key).map SourceHumanFact.view) := by
  by_cases hbelief : isBeliefAt branch u.id = true
  · cases hget : u.changes.get? "status" with
    | none => simp [noteFacts, reviewOperations, hbelief, hget]
    | some v =>
        by_cases hkey : key = (u.id, .status)
        · subst hkey
          simp [noteFacts, reviewOperations, hbelief, hget, tracked, humanReviewValue,
            SourceHumanFact.view, Option.filter]
        · simp [noteFacts, reviewOperations, hbelief, hget, humanReviewValue, hkey]
  · by_cases hkey : key = (u.id, .status)
    · subst hkey
      simp [noteFacts, reviewOperations, hbelief, tracked]
    · simp [noteFacts, reviewOperations, hbelief, hkey]

theorem noteUpdates_get? (revision index : Nat) (updates : List NodeUpdate) (latest : Latest)
    (key : String × ReviewField) :
    ((noteFacts branch revision index (.updateNodes updates) latest).get? key).map
        SourceHumanFact.view =
      ((((GraphOperation.updateNodes updates : GraphOperation rt).explicitValue key).filter
        fun _ => tracked branch key).map fun v => (revision, key, v)).or
          ((latest.get? key).map SourceHumanFact.view) := by
  induction updates generalizing latest with
  | nil =>
      obtain ⟨id, field⟩ := key
      cases field <;> simp [noteFacts, reviewOperations, GraphOperation.explicitValue]
  | cons u us ih =>
      have hcons : noteFacts branch revision index (.updateNodes (u :: us)) latest =
          noteFacts branch revision index (.updateNodes us)
            (noteFacts branch revision index (.updateNodes [u]) latest) := by
        simp only [noteFacts, reviewOperations, ← List.foldl_append, ← List.filterMap_append]
        rfl
      rw [hcons, ih, noteUpdate_get?, explicitValue_updateNodes]
      generalize (if key = (u.id, .status) then u.changes.get? "status" else none) = head
      cases (GraphOperation.updateNodes us : GraphOperation rt).explicitValue key with
      | none => simp
      | some v => cases head <;> cases tracked branch key <;> simp [Option.filter]

theorem noteFacts_get? (revision index : Nat) (op : GraphOperation rt) (latest : Latest)
    (key : String × ReviewField) :
    ((noteFacts branch revision index op latest).get? key).map SourceHumanFact.view =
      (((op.explicitValue key).filter fun _ => tracked branch key).map fun v =>
        (revision, key, v)).or ((latest.get? key).map SourceHumanFact.view) := by
  cases op with
  | setStanding id standing =>
      obtain ⟨x, field⟩ := key
      cases field with
      | standing =>
          by_cases hx : id = x
          · subst hx
            simp [noteFacts, reviewOperations, GraphOperation.explicitValue, tracked,
              SourceHumanFact.view, humanReviewValue, Option.filter]
          · simp [noteFacts, reviewOperations, GraphOperation.explicitValue, humanReviewValue, hx,
              Ne.symm hx]
      | status => simp [noteFacts, reviewOperations, GraphOperation.explicitValue, humanReviewValue]
  | updateNodes updates => exact noteUpdates_get? branch revision index updates latest key
  | _ => simp [noteFacts, reviewOperations, GraphOperation.explicitValue]

theorem retireFacts_get? (op : GraphOperation rt) (latest : Latest) (key : String × ReviewField) :
    (retireFacts latest op).get? key =
      if (op.explicitValue key).isSome then none else latest.get? key := by
  cases op with
  | setStanding id standing =>
      obtain ⟨x, field⟩ := key
      cases field with
      | standing =>
          by_cases hx : id = x
          · simp [retireFacts, GraphOperation.explicitValue, Dict.get?_erase, hx]
          · simp [retireFacts, GraphOperation.explicitValue, Dict.get?_erase, hx, Ne.symm hx]
      | status => simp [retireFacts, GraphOperation.explicitValue, Dict.get?_erase]
  | updateNodes updates =>
      induction updates generalizing latest with
      | nil =>
          obtain ⟨id, field⟩ := key
          cases field <;> simp [retireFacts, GraphOperation.explicitValue]
      | cons u us ih =>
          rw [explicitValue_updateNodes]
          have hcons : retireFacts latest (.updateNodes (u :: us) : GraphOperation rt) =
              retireFacts (if "status" ∈ u.changes then latest.erase (u.id, .status) else latest)
                (.updateNodes us : GraphOperation rt) := rfl
          rw [hcons, ih]
          cases (GraphOperation.updateNodes us : GraphOperation rt).explicitValue key with
          | some v => simp
          | none =>
              by_cases hmem : "status" ∈ u.changes
              · have hget := (Dict.mem_iff_isSome _ _).mp hmem
                by_cases hkey : key = (u.id, .status) <;>
                  simp [hmem, hkey, hget, Dict.get?_erase]
              · have hget := (Dict.not_mem_iff _ _).mp hmem
                simp [hmem, hget]
  | _ => simp [retireFacts, GraphOperation.explicitValue]

/-- The operations that initiate a validated patch are its first ones. -/
theorem initiatingIndexes_of_valid (s : GraphState rt) (p : Patch rt) (vc : ValidationContext rt)
    (request : PatchRequest) (hv : rejected (validatePatch s p vc request) = false) :
    ∃ k ≤ p.ops.length, initiatingIndexes p = List.range k ∧
      ∀ op ∈ p.ops.drop k, validateGuidanceOperation op = .ok () := by
  cases htrace : p.transition with
  | none => exact ⟨p.ops.length, Nat.le_refl _, by simp [initiatingIndexes, htrace], by simp⟩
  | some trace =>
      simp only [validatePatch, htrace, validateTransitionPatch] at hv
      split at hv
      next => simp [rejected] at hv
      next =>
        cases hsplit : validateTransitionTrace s p trace with
        | error text => simp [hsplit, rejected, transitionInvalid] at hv
        | ok sources =>
            have split := validateTransitionTrace_ok s p trace sources hsplit
            refine ⟨(sources.flatMap (·.ops)).length, ?_, ?_, split.guidance⟩
            · rw [split.source_ops, List.length_take]
              exact Nat.min_le_right _ _
            · simp only [initiatingIndexes, htrace, split.source_indexes]
              exact (List.pairwise_le_range).insertionSort_eq

/-- The facts of the first operations of a human's patch. -/
theorem noted_run (p : Patch rt) (latest : Latest) (k : Nat) (hk : k ≤ p.ops.length) :
    ∃ latest', Steps.run (fun index latest =>
        match p.ops[index]? with
        | none => .error "list index out of range"
        | some op => .ok (noteFacts branch p.revision index op latest)) (List.range k) latest =
          (.ok latest' : Except String Latest) ∧
      ∀ key, (latest'.get? key).map SourceHumanFact.view =
        (((lastValue (p.ops.take k) key).filter fun _ => tracked branch key).map fun v =>
          (p.revision, key, v)).or ((latest.get? key).map SourceHumanFact.view) := by
  induction k with
  | zero => exact ⟨latest, rfl, fun key => by simp [lastValue]⟩
  | succ k ih =>
      obtain ⟨mid, hmid, hview⟩ := ih (Nat.le_of_succ_le hk)
      have hlt : k < p.ops.length := hk
      refine ⟨noteFacts branch p.revision k p.ops[k] mid, ?_, fun key => ?_⟩
      · rw [List.range_succ]
        refine (Steps.run_append_ok _ _ _ _ _).mpr ⟨mid, hmid, ?_⟩
        rw [Steps.run, List.getElem?_eq_getElem hlt]
        rfl
      · rw [noteFacts_get?, hview, List.take_add_one, List.getElem?_eq_getElem hlt, Option.toList_some,
          lastValue_append, lastValue_singleton]
        cases p.ops[k].explicitValue key with
        | none => simp
        | some v =>
            cases lastValue (p.ops.take k) key <;> cases tracked branch key <;>
              simp [Option.filter]

theorem retired_run (ops : List (GraphOperation rt)) (latest : Latest)
    (key : String × ReviewField) :
    (ops.foldl retireFacts latest).get? key =
      if (lastValue ops key).isSome then none else latest.get? key := by
  induction ops generalizing latest with
  | nil => simp [lastValue]
  | cons op ops ih =>
      rw [List.foldl_cons, ih, retireFacts_get?, ← List.singleton_append, lastValue_append,
        lastValue_singleton]
      cases lastValue ops key <;> cases op.explicitValue key <;> simp

end Facts

section Runs

/-- The accepted patches and receipts that lead from a graph to another one, with the
operations of the accepted ones. -/
inductive BranchRun (base : GraphState rt) :
    List (Patch rt) → List (OpStep rt) → GraphState rt → Prop
  | base : BranchRun base [] [] base
  | accept (ps : List (Patch rt)) (steps : List (OpStep rt)) (s t : GraphState rt) (p : Patch rt)
      (vc : ValidationContext rt) (request : PatchRequest) (messages : List ValidationMessage)
      (before : BranchRun base ps steps s) (admitted : p.admission = .accepted)
      (valid : rejected (validatePatch s p vc request) = false)
      (applied : applyValidPatch s p = .ok t) :
      BranchRun base (ps ++ [p]) (steps ++ p.steps s) (t.record messages)
  | receipt (ps : List (Patch rt)) (steps : List (OpStep rt)) (s : GraphState rt) (p : Patch rt)
      (before : BranchRun base ps steps s) (refused : p.admission = .rejected) :
      BranchRun base (ps ++ [p]) steps (s.skip p)

theorem lastValue_of_guidance (ops : List (GraphOperation rt))
    (h : ∀ op ∈ ops, validateGuidanceOperation op = .ok ()) (key : String × ReviewField) :
    lastValue ops key = none := by
  rw [lastValue, List.findSome?_eq_none_iff]
  intro op hop
  exact explicitValue_of_guidance op (h op (List.mem_reverse.mp hop)) key

/-- The last value that a human's operations named last. -/
def lastHuman (steps : List (OpStep rt)) (key : String × ReviewField) :
    Option (OpStep rt × Json) :=
  (lastExplicit steps key).filter fun x => decide (x.1.patch.author = some .human)

/-- The facts noted over a run are the fields that a human named last. -/
theorem latest_of_run (branch : GraphState rt) {base s : GraphState rt} {ps : List (Patch rt)}
    {steps : List (OpStep rt)} (h : BranchRun base ps steps s) :
    ∃ latest, Steps.run (patchFacts branch) ps .empty = .ok latest ∧
      ∀ key, (latest.get? key).map SourceHumanFact.view =
        ((lastHuman steps key).filter fun _ => tracked branch key).map fun x =>
          (x.1.patch.revision, key, x.2) := by
  induction h with
  | base => exact ⟨.empty, rfl, fun key => by simp [lastHuman, lastExplicit]⟩
  | accept ps steps s t p vc request messages before admitted valid applied ih =>
      obtain ⟨latest, hrun, hview⟩ := ih
      obtain ⟨hops, hpatch⟩ := ops_steps p s t applied
      have hlast : ∀ key, (lastExplicit (p.steps s) key).map (fun x => (x.1.patch, x.2)) =
          (lastValue p.ops key).map (p, ·) := by
        intro key
        rw [lastExplicit_patch p _ hpatch, hops]
      have hnext : ∀ latest', patchFacts branch p latest = .ok latest' →
          Steps.run (patchFacts branch) (ps ++ [p]) .empty = .ok latest' := fun latest' h =>
        (Steps.run_append_ok _ _ _ _ _).mpr ⟨latest, hrun, (Steps.run_cons_ok _ _ _ _ _).mpr
          ⟨latest', h, rfl⟩⟩
      by_cases hauthor : p.author = some .human
      · obtain ⟨k, hk, hindexes, hguidance⟩ := initiatingIndexes_of_valid s p vc request valid
        obtain ⟨latest', hnoted, hview'⟩ := noted_run branch p latest k hk
        refine ⟨latest', hnext latest' ?_, fun key => ?_⟩
        · rw [patchFacts, if_neg (by simp [admitted]), if_neg (by simp [hauthor]), hindexes]
          exact hnoted
        · have hvalue : lastValue p.ops key = lastValue (p.ops.take k) key := by
            rw [← List.take_append_drop k p.ops, lastValue_append,
              lastValue_of_guidance _ hguidance, Option.none_or, List.take_append_drop]
          rw [hview', hview, lastHuman, lastHuman, lastExplicit_append]
          have hkey := hlast key
          rw [hvalue] at hkey
          cases hpatchValue : lastExplicit (p.steps s) key with
          | none =>
              rw [hpatchValue] at hkey
              cases hv : lastValue (p.ops.take k) key with
              | none => simp
              | some v => simp [hv] at hkey
          | some x =>
              rw [hpatchValue] at hkey
              cases hv : lastValue (p.ops.take k) key with
              | none => simp [hv] at hkey
              | some v =>
                  simp only [hv, Option.map_some, Option.some.injEq, Prod.mk.injEq] at hkey
                  cases htracked : tracked branch key with
                  | true => simp [Option.filter, hkey.1, hkey.2, hauthor]
                  | false => simp
      · refine ⟨p.ops.foldl retireFacts latest, hnext _ ?_, fun key => ?_⟩
        · rw [patchFacts, if_neg (by simp [admitted]), if_pos hauthor]
        · rw [retired_run, lastHuman, lastExplicit_append]
          have hkey := hlast key
          cases hv : lastValue p.ops key with
          | none =>
              rw [hv, Option.map_none, Option.map_eq_none_iff] at hkey
              rw [hkey, Option.none_or]
              simp only [Option.isSome_none, Bool.false_eq_true, if_false]
              exact hview key
          | some v =>
              rw [hv] at hkey
              obtain ⟨x, hx, hpx⟩ := Option.map_eq_some_iff.mp hkey
              simp only [Prod.mk.injEq] at hpx
              rw [hx]
              simp [Option.filter, hpx.1, hauthor]
  | receipt ps steps s p before refused ih =>
      obtain ⟨latest, hrun, hview⟩ := ih
      refine ⟨latest, ?_, hview⟩
      refine (Steps.run_append_ok _ _ _ _ _).mpr ⟨latest, hrun, ?_⟩
      rw [Steps.run, patchFacts, if_pos (by simp [refused])]
      rfl

/-- A run of a branch is a chain of sound steps. -/
theorem BranchRun.sound {base s : GraphState rt} {ps : List (Patch rt)} {steps : List (OpStep rt)}
    (h : BranchRun base ps steps s) (hbase : base.Keyed) :
    s.Keyed ∧ (∀ st ∈ steps, st.Sound) ∧ Linked base.nodes steps s.nodes := by
  induction h with
  | base => exact ⟨hbase, by simp, .nil _⟩
  | accept ps steps s t p vc request messages before admitted valid applied ih =>
      obtain ⟨hkeyed, hsound, hlinked⟩ := ih
      obtain ⟨hnew, hnext⟩ := steps_sound s t p vc request hkeyed valid applied
      refine ⟨keyed_applyValidPatch s t p hkeyed applied, ?_, hlinked.append hnext⟩
      intro st hst
      rcases List.mem_append.mp hst with hst | hst
      · exact hsound st hst
      · exact (hnew st hst).1
  | receipt ps steps s p before refused ih => exact ih

/-- A value that the branch gave to a review field. -/
def Changed (base branch : GraphState rt) (key : String × ReviewField) (v : Json) : Prop :=
  fieldAt branch key = some v ∧ fieldAt base key ≠ some v ∧ tracked branch key = true

theorem requireSourceHumanChange_isOk (base branch : GraphState rt) (r : HumanReviewOperation) :
    (requireSourceHumanChange base branch r).isOk = true ↔
      fieldAt branch (humanReviewValue r).1 = some (humanReviewValue r).2 ∧
        fieldAt base (humanReviewValue r).1 ≠ some (humanReviewValue r).2 := by
  unfold requireSourceHumanChange
  by_cases h : fieldAt branch (humanReviewValue r).1 = some (humanReviewValue r).2
  · by_cases hb : fieldAt base (humanReviewValue r).1 = some (humanReviewValue r).2
    · simp [h, hb, Except.isOk, Except.toBool]
    · simp [h, hb, Except.isOk, Except.toBool]
  · simp [h, Except.isOk, Except.toBool]

/-- The field a fact is about. -/
def SourceHumanFact.key (f : SourceHumanFact) : String × ReviewField :=
  (humanReviewValue f.operation).1

/-- The facts of notes that are kept under their own fields. -/
theorem keys_of_notes (latest : Latest)
    (h : ∀ key f, latest.get? key = some f → SourceHumanFact.key f = key)
    (keys : List (String × ReviewField)) (hkeys : ∀ key ∈ keys, key ∈ latest) :
    (keys.filterMap latest.get?).map SourceHumanFact.key = keys := by
  induction keys with
  | nil => rfl
  | cons key keys ih =>
      obtain ⟨hkey, hrest⟩ := List.forall_mem_cons.mp hkeys
      obtain ⟨f, hf⟩ := (Dict.mem_iff_exists _ _).mp hkey
      rw [List.filterMap_cons_some hf, List.map_cons, ih hrest, h key f hf]

/-- The facts a branch carries are the changed fields that a human named last. -/
theorem facts_of_run {base branch : GraphState rt} {ps : List (Patch rt)}
    {steps : List (OpStep rt)} (h : BranchRun base ps steps branch) :
    ∃ facts, branchHumanReviewChanges ps base branch = .ok facts ∧
      (facts.map SourceHumanFact.key).Nodup ∧
      (∀ f ∈ facts, fieldAt branch (SourceHumanFact.key f) =
        some (humanReviewValue f.operation).2) ∧
      ∀ key, key ∈ facts.map SourceHumanFact.key ↔
        ∃ st v, lastHuman steps key = some (st, v) ∧ Changed base branch key v := by
  obtain ⟨latest, hrun, hview⟩ := latest_of_run branch h
  have hstored : ∀ key f, latest.get? key = some f → ∃ st v, lastHuman steps key = some (st, v) ∧
      tracked branch key = true ∧ humanReviewValue f.operation = (key, v) := by
    intro key f hf
    have hkey := hview key
    rw [hf, Option.map_some, eq_comm, Option.map_eq_some_iff] at hkey
    obtain ⟨x, hx, hfx⟩ := hkey
    rw [Option.filter_eq_some_iff] at hx
    simp only [SourceHumanFact.view, Prod.mk.injEq] at hfx
    exact ⟨x.1, x.2, hx.1, by simpa using hx.2, hfx.2.symm⟩
  have hown : ∀ key f, latest.get? key = some f → SourceHumanFact.key f = key := by
    intro key f hf
    obtain ⟨st, v, -, -, hvalue⟩ := hstored key f hf
    rw [SourceHumanFact.key, hvalue]
  have hsorted : (sortedKeys latest.keys).Perm latest.keys := List.perm_insertionSort _ _
  have hkeys := keys_of_notes latest hown (sortedKeys latest.keys) fun key hkey =>
    hsorted.mem_iff.mp hkey
  refine ⟨_, by rw [branchHumanReviewChanges, hrun]; rfl, ?_, ?_, ?_⟩
  · refine List.Nodup.sublist (List.Sublist.map _ List.filter_sublist) ?_
    rw [hkeys]
    exact hsorted.nodup_iff.mpr latest.nodup
  · intro f hf
    exact ((requireSourceHumanChange_isOk base branch f.operation).mp
      (List.mem_filter.mp hf).2).1
  · intro key
    constructor
    · intro hmem
      obtain ⟨f, hf, rfl⟩ := List.mem_map.mp hmem
      obtain ⟨hf, hok⟩ := List.mem_filter.mp hf
      obtain ⟨stored, -, hget⟩ := List.mem_filterMap.mp hf
      obtain rfl := hown stored f hget
      obtain ⟨st, v, hlast, htracked, hvalue⟩ := hstored _ f hget
      rw [requireSourceHumanChange_isOk, hvalue] at hok
      exact ⟨st, v, hlast, hok.1, hok.2, htracked⟩
    · rintro ⟨st, v, hlast, hbranch, hbase, htracked⟩
      have hkey := hview key
      rw [hlast] at hkey
      simp only [Option.filter, htracked, if_true, Option.map_some] at hkey
      obtain ⟨f, hf, hfview⟩ := Option.map_eq_some_iff.mp hkey
      simp only [SourceHumanFact.view, Prod.mk.injEq] at hfview
      refine List.mem_map.mpr ⟨f, List.mem_filter.mpr ⟨List.mem_filterMap.mpr
        ⟨key, hsorted.mem_iff.mpr (Dict.mem_of_get? hf), hf⟩, ?_⟩, hown key f hf⟩
      rw [requireSourceHumanChange_isOk, hfview.2]
      exact ⟨hbranch, hbase⟩

/-- A field whose last write, named or not, is the change of the branch, by an operation with
which a human initiated a patch. -/
def HumanLast (steps : List (OpStep rt)) (base branch : GraphState rt)
    (key : String × ReviewField) : Prop :=
  ∃ st e, lastEvent steps key = some (st, e) ∧ st.patch.author = some .human ∧
    st.generated = false ∧ Changed base branch key e.value

/-- The facts carried are one for each field that a human wrote last. -/
def CarriesLastWords (ps : List (Patch rt)) (steps : List (OpStep rt))
    (base branch : GraphState rt) : Prop :=
  ∃ facts, branchHumanReviewChanges ps base branch = .ok facts ∧
    (facts.map SourceHumanFact.key).Nodup ∧
    (∀ f ∈ facts, fieldAt branch (SourceHumanFact.key f) =
      some (humanReviewValue f.operation).2) ∧
    ∀ key, key ∈ facts.map SourceHumanFact.key ↔ HumanLast steps base branch key

/-- The last write of a changed field is one that no operation names, and its author is
not a human exactly when the last value named for it is a human's same value. -/
def Unspoken (steps : List (OpStep rt)) (base branch : GraphState rt)
    (key : String × ReviewField) : Prop :=
  ∃ st v, lastEvent steps key = some (st, .implicit v) ∧ Changed base branch key v ∧
    (st.patch.author = some .human ↔ ∀ x, lastHuman steps key = some x → x.2 ≠ v)

theorem carried_iff_last {base branch : GraphState rt} {ps : List (Patch rt)}
    {steps : List (OpStep rt)} (h : BranchRun base ps steps branch) (hbase : base.Keyed)
    (key : String × ReviewField) :
    ((∃ st v, lastHuman steps key = some (st, v) ∧ Changed base branch key v) ↔
      HumanLast steps base branch key) ↔ ¬Unspoken steps base branch key := by
  obtain ⟨-, hsound, hlinked⟩ := h.sound hbase
  have hinitiates : ∀ st e, lastEvent steps key = some (st, e) →
      st.patch.author = some .human → st.generated = false := by
    intro st e hlast hauthor
    obtain ⟨hst, hevent⟩ := lastEvent_mem steps key st e hlast
    by_contra hgenerated
    rw [Bool.not_eq_false] at hgenerated
    rw [(hsound st hst).event_generated hgenerated hauthor] at hevent
    cases hevent
  cases hlast : lastEvent steps key with
  | none =>
      have hnone := unnamed_of_unwritten steps key hlast
      simp [HumanLast, Unspoken, lastHuman, hnone, hlast]
  | some x =>
      obtain ⟨st, e⟩ := x
      cases e with
      | explicit v =>
          have hexplicit := lastExplicit_of_lastEvent steps key st v hlast
          simp only [HumanLast, Unspoken, lastHuman, hexplicit, hlast]
          by_cases hauthor : st.patch.author = some .human
          · simp [hauthor, hinitiates st _ hlast hauthor, FieldEvent.value, Option.filter]
          · simp [hauthor, FieldEvent.value, Option.filter]
      | implicit v =>
          -- the value of a field that is there is the one written last
          have hfinal : ∀ w, Changed base branch key w → w = v := by
            intro w hw
            have hvalue := hlinked.last hsound key w hw.1
            rw [hlast] at hvalue
            exact (Option.some.inj hvalue).symm
          have hleft : (∃ st w, lastHuman steps key = some (st, w) ∧ Changed base branch key w) ↔
              Changed base branch key v ∧ ∃ x, lastHuman steps key = some x ∧ x.2 = v := by
            constructor
            · rintro ⟨st, w, hhuman, hchanged⟩
              obtain rfl := hfinal w hchanged
              exact ⟨hchanged, _, hhuman, rfl⟩
            · rintro ⟨hchanged, x, hhuman, rfl⟩
              exact ⟨x.1, x.2, hhuman, hchanged⟩
          have hright : HumanLast steps base branch key ↔
              st.patch.author = some .human ∧ Changed base branch key v := by
            simp only [HumanLast, hlast]
            constructor
            · rintro ⟨st', e, heq, hauthor, -, hchanged⟩
              cases heq
              exact ⟨hauthor, hchanged⟩
            · rintro ⟨hauthor, hchanged⟩
              exact ⟨st, _, rfl, hauthor, hinitiates st _ hlast hauthor, hchanged⟩
          have hunspoken : Unspoken steps base branch key ↔ Changed base branch key v ∧
              (st.patch.author = some .human ↔
                ¬∃ x, lastHuman steps key = some x ∧ x.2 = v) := by
            simp only [Unspoken, hlast, not_exists, not_and]
            constructor
            · rintro ⟨st, v, heq, hunspoken⟩
              cases heq
              exact hunspoken
            · intro hunspoken
              exact ⟨st, v, rfl, hunspoken⟩
          rw [hleft, hright, hunspoken]
          by_cases hauthor : st.patch.author = some .human
          · by_cases hnamed : ∃ x, lastHuman steps key = some x ∧ x.2 = v
            · simp [hauthor, hnamed]
            · simp [hauthor, hnamed]
          · by_cases hnamed : ∃ x, lastHuman steps key = some x ∧ x.2 = v
            · simp [hauthor, hnamed]
            · simp [hauthor, hnamed]

/-- The facts a branch carries are the last words of its humans exactly when no changed
field was written last without being named, against the author of the last name. -/
theorem carries_iff_spoken {base branch : GraphState rt} {ps : List (Patch rt)}
    {steps : List (OpStep rt)} (h : BranchRun base ps steps branch) (hbase : base.Keyed) :
    CarriesLastWords ps steps base branch ↔ ∀ key, ¬Unspoken steps base branch key := by
  obtain ⟨facts, hfacts, hnodup, hvalues, hmem⟩ := facts_of_run h
  constructor
  · rintro ⟨facts', hfacts', -, -, hmem'⟩ key
    rw [hfacts] at hfacts'
    cases hfacts'
    rw [← carried_iff_last h hbase key, ← hmem key]
    exact hmem' key
  · intro hspoken
    refine ⟨facts, hfacts, hnodup, hvalues, fun key => ?_⟩
    rw [hmem key]
    exact (carried_iff_last h hbase key).mpr (hspoken key)

end Runs

section Concrete

/-- The chain of steps of patches that all pass. -/
theorem branchRun_of_replayAll (vc : ValidationContext rt) (base : GraphState rt)
    (ps qs : List (Patch rt)) (steps : List (OpStep rt)) (s : GraphState rt)
    (r : List (OpStep rt) × GraphState rt) (hs : BranchRun base qs steps s)
    (hadmitted : ∀ p ∈ ps, p.admission = .accepted) (h : replayAll vc ps s = some r) :
    BranchRun base (qs ++ ps) (steps ++ r.1) r.2 := by
  induction ps generalizing qs steps s r with
  | nil =>
      cases h
      simpa using hs
  | cons p ps ih =>
      obtain ⟨hp, hps⟩ := List.forall_mem_cons.mp hadmitted
      rw [replayAll] at h
      split at h
      next => cases h
      next hvalid =>
        cases happlied : applyValidPatch s p with
        | error text => simp [happlied] at h
        | ok t =>
            simp only [happlied, Option.map_eq_some_iff] at h
            obtain ⟨r', hr', rfl⟩ := h
            have hnext := BranchRun.accept qs steps s t p vc {} [] hs hp (by simpa using hvalid)
              happlied
            have hrecord : t.record [] = t := by simp [GraphState.record]
            rw [hrecord] at hnext
            have hrest := ih (qs ++ [p]) (steps ++ p.steps s) t r' hnext hps hr'
            rw [List.append_assoc, List.append_assoc] at hrest
            exact hrest

/-- An agent asks a question. -/
def askPatch : Patch .plain where
  revision := 1
  kind := .work
  author := some .agent
  producer := .agent
  createdAt := "2026-01-01T00:00:00Z"
  summary := "Ask."
  runTruthScope := ["repo"]
  ops := [.createNodes [{ RefreshDelta.contestedDraft with standing := none }]]

/-- A human reviews it. -/
def reviewPatch (revision : Nat) (standing : Standing) : Patch .plain where
  revision := revision
  kind := .approval
  author := some .human
  producer := .human
  createdAt := "2026-01-02T00:00:00Z"
  summary := "Review."
  ops := [.setStanding "rq/a" standing]

/-- An agent edits its title, which resets the standing. -/
def retitlePatch : Patch .plain where
  revision := 4
  kind := .work
  author := some .agent
  producer := .agent
  createdAt := "2026-01-03T00:00:00Z"
  summary := "Retitle."
  runTruthScope := ["repo"]
  ops := [.updateNodes [{ id := "rq/a", changes := .ofList [("title", .str "Another title")] }]]

/-- A graph that replays from nothing, and a branch from it. -/
def branchFrom (qs ps : List (Patch .plain)) :
    Option (GraphState .plain × List (OpStep .plain) × GraphState .plain) :=
  let vc : ValidationContext .plain := { projectTruthScope := ["repo"], mode := .replay }
  (replayAll vc qs (.initial .plain ["repo"])).bind fun base =>
    (replayAll vc ps base.2).map fun r => (base.2, r.1, r.2)

theorem branchFrom_run (qs ps : List (Patch .plain)) (base branch : GraphState .plain)
    (steps : List (OpStep .plain)) (hadmitted : ∀ p ∈ ps, p.admission = .accepted)
    (h : branchFrom qs ps = some (base, steps, branch)) :
    base.Keyed ∧ BranchRun base ps steps branch := by
  simp only [branchFrom, Option.bind_eq_some_iff, Option.map_eq_some_iff] at h
  obtain ⟨r, hbase, r', hbranch, heq⟩ := h
  cases heq
  refine ⟨?_, ?_⟩
  · exact (replayRun_of_replayAll _ _ [] [] _ _ (.initial ["repo"]) hbase).sound.1
  · exact branchRun_of_replayAll _ _ ps [] [] _ _ .base hadmitted hbranch

/-- A human asserts a contested question, an agent's edit resets it to the same value. -/
theorem restored_carried :
    ¬∀ (base branch : GraphState .plain) (ps : List (Patch .plain))
        (steps : List (OpStep .plain)), base.Keyed → BranchRun base ps steps branch →
      CarriesLastWords ps steps base branch := by
  have hrun : (branchFrom [askPatch, reviewPatch 2 .contested]
      [reviewPatch 3 .asserted, retitlePatch]).any (fun r =>
        (branchHumanReviewChanges [reviewPatch 3 .asserted, retitlePatch] r.1 r.2.2).toOption.any
            (fun facts => facts.map SourceHumanFact.key = [("rq/a", .standing)]) &&
          (lastEvent r.2.1 ("rq/a", .standing)).any fun e => e.1.patch.author = some .agent) =
      true := by decide +kernel
  intro hcarries
  obtain ⟨⟨base, steps, branch⟩, hbranch, hfacts⟩ := (Option.any_eq_true _ _).mp hrun
  obtain ⟨hkeyed, hrun⟩ := branchFrom_run _ _ base branch steps (by simp [reviewPatch, retitlePatch])
    hbranch
  simp only [Bool.and_eq_true, Option.any_eq_true, decide_eq_true_eq] at hfacts
  obtain ⟨⟨facts, hreturned, hkeys⟩, ⟨st, e⟩, hlast, hagent⟩ := hfacts
  obtain ⟨facts', hreturned', -, -, hmem⟩ := hcarries base branch _ steps hkeyed hrun
  rw [hreturned'] at hreturned
  cases hreturned
  obtain ⟨st', e', hlast', hhuman, -⟩ := (hmem ("rq/a", .standing)).mp (by simp [hkeys])
  rw [hlast] at hlast'
  cases hlast'
  rw [hagent] at hhuman
  cases hhuman

/-- The same branch with a second review after the edit: the last word is a human's. -/
theorem carries_review :
    ∃ (base branch : GraphState .plain) (steps : List (OpStep .plain)),
      BranchRun base [reviewPatch 3 .asserted, retitlePatch, reviewPatch 5 .asserted] steps
          branch ∧
        HumanLast steps base branch ("rq/a", .standing) ∧
        CarriesLastWords [reviewPatch 3 .asserted, retitlePatch, reviewPatch 5 .asserted] steps
          base branch := by
  have hrun : (branchFrom [askPatch, reviewPatch 2 .contested]
      [reviewPatch 3 .asserted, retitlePatch, reviewPatch 5 .asserted]).any (fun r =>
        decide (r.2.1.map (fun st => (st.patch.author, st.generated, st.op)) =
          [(some .human, false, .setStanding "rq/a" .asserted),
            (some .agent, false,
              .updateNodes [{ id := "rq/a", changes := .ofList [("title", .str "Another title")] }]),
            (some .human, false, .setStanding "rq/a" .asserted)]) &&
          decide (fieldAt r.2.2 ("rq/a", .standing) = some (.str "asserted")) &&
          decide (fieldAt r.1 ("rq/a", .standing) ≠ some (.str "asserted"))) = true := by
    decide +kernel
  obtain ⟨⟨base, steps, branch⟩, hbranch, hfacts⟩ := (Option.any_eq_true _ _).mp hrun
  obtain ⟨hkeyed, hrun⟩ := branchFrom_run _ _ base branch steps (by simp [reviewPatch, retitlePatch])
    hbranch
  simp only [Bool.and_eq_true, decide_eq_true_eq] at hfacts
  obtain ⟨⟨hops, hbranchField⟩, hbaseField⟩ := hfacts
  obtain ⟨first, rest, rfl, hfirst, hrest⟩ := List.map_eq_cons_iff.mp hops
  obtain ⟨second, rest, rfl, hsecond, hrest⟩ := List.map_eq_cons_iff.mp hrest
  obtain ⟨third, rest, rfl, hthird, hrest⟩ := List.map_eq_cons_iff.mp hrest
  obtain rfl := List.map_eq_nil_iff.mp hrest
  simp only [Prod.mk.injEq] at hfirst hsecond hthird
  have hnil : ∀ key, lastEvent ([] : List (OpStep .plain)) key = none := fun _ => rfl
  have hlast : lastEvent [first, second, third] ("rq/a", .standing) =
      some (third, .explicit (.str "asserted")) := by
    simp only [lastEvent_cons, hnil, OpStep.event_setStanding hthird.2.2, if_true]
    rfl
  have hother : ∀ key, key ≠ ("rq/a", ReviewField.standing) →
      lastEvent [first, second, third] key = none := by
    intro key hkey
    have hedit : second.event key = none :=
      OpStep.event_updateNodes hsecond.2.2 (by decide) key hkey
    simp only [lastEvent_cons, hnil, OpStep.event_setStanding hfirst.2.2,
      OpStep.event_setStanding hthird.2.2, hedit, if_neg hkey]
    rfl
  refine ⟨base, branch, _, hrun, ?_, (carries_iff_spoken hrun hkeyed).mpr fun key => ?_⟩
  · exact ⟨third, _, hlast, hthird.1, hthird.2.1, hbranchField, hbaseField, rfl⟩
  · rintro ⟨st, v, himplicit, -⟩
    by_cases hkey : key = ("rq/a", .standing)
    · rw [hkey, hlast] at himplicit
      cases himplicit
    · rw [hother key hkey] at himplicit
      cases himplicit

end Concrete

end BranchMerge

end RcpGraph
