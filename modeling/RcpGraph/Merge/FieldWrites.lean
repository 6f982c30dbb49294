import RcpGraph.History.Standings

/-!
The writes of the review fields of a node. An operation names a value, or writes one
without naming it: a reset of the standing, the lifecycle change of a node that retires,
or the fields of a node it creates. Of a field that is there in the end, the last write
is the value.
-/

namespace RcpGraph

open Schema

variable {rt : Runtime}

inductive ReviewField where
  | standing
  | status
  deriving DecidableEq, Repr

def ReviewField.name : ReviewField → String
  | standing => "standing"
  | status => "status"

/-- `getattr` of a review field. -/
def ProjectNode.reviewField (n : ProjectNode rt) : ReviewField → Option Json
  | .standing => some (.str n.standing.name)
  | .status => n.field? "status"

/-- The field of a node that is there. -/
def fieldIn (nodes : Dict String (ProjectNode rt)) (key : String × ReviewField) : Option Json :=
  (nodes.get? key.1).bind fun n => n.reviewField key.2

section Events

/-- What an operation does to a field of a node. -/
inductive FieldEvent where
  | explicit (value : Json)
  /-- A standing reset, the lifecycle change of a node that retires, or a creation. -/
  | implicit (value : Json)
  deriving DecidableEq

def FieldEvent.value : FieldEvent → Json
  | explicit v | implicit v => v

/-- The value that an operation names for a field. -/
def GraphOperation.explicitValue (op : GraphOperation rt) (key : String × ReviewField) :
    Option Json :=
  match op, key.2 with
  | .setStanding id standing, .standing =>
      if id = key.1 then some (.str standing.name) else none
  | .updateNodes updates, .status =>
      (updates.reverse.find? fun u => decide (u.id = key.1 ∧ "status" ∈ u.changes)).bind
        fun u => u.changes.get? "status"
  | _, _ => none

/-- The nodes an operation retires. -/
def GraphOperation.retires : GraphOperation rt → List String
  | .supersedeNodes items => items.map (·.id)
  | .mergeNodes merges => merges.map (·.duplicate)
  | _ => []

/-- The value that an operation of a patch writes to a field without naming it. -/
def GraphOperation.implicitValue (p : Patch rt) (s : GraphState rt) (op : GraphOperation rt)
    (key : String × ReviewField) : Option Json :=
  match op, key.2 with
  | .createNodes nodes, field =>
      (nodes.reverse.find? fun raw => raw.id = key.1).bind fun raw =>
        (raw.create p.revision).reviewField field
  | op, .standing =>
      if p.kind ≠ .approval ∧ key.1 ∈ RefreshDelta.nodesResetByOperation op then
        some (.str Standing.asserted.name)
      else none
  | op, .status =>
      if key.1 ∈ op.retires ∧
          (s.nodeType? key.1).map NodeType.lifecycleField = some "status" then
        some (.str retiredValue)
      else none

def OpStep.event (st : OpStep rt) (key : String × ReviewField) : Option FieldEvent :=
  ((st.op.explicitValue key).map .explicit).or
    ((st.op.implicitValue st.patch st.before key).map .implicit)

/-- The last step that writes a field, and what. -/
def lastEvent (steps : List (OpStep rt)) (key : String × ReviewField) :
    Option (OpStep rt × FieldEvent) :=
  steps.reverse.findSome? fun st => (st.event key).map (st, ·)

/-- The last step that names a field, and the value it gives. -/
def lastExplicit (steps : List (OpStep rt)) (key : String × ReviewField) :
    Option (OpStep rt × Json) :=
  steps.reverse.findSome? fun st => (st.op.explicitValue key).map (st, ·)

theorem lastExplicit_append (xs ys : List (OpStep rt)) (key : String × ReviewField) :
    lastExplicit (xs ++ ys) key = (lastExplicit ys key).or (lastExplicit xs key) := by
  rw [lastExplicit, List.reverse_append, List.findSome?_append]
  rfl

/-- The last value that operations name for a field. -/
def lastValue (ops : List (GraphOperation rt)) (key : String × ReviewField) : Option Json :=
  ops.reverse.findSome? fun op => op.explicitValue key

theorem lastValue_append (xs ys : List (GraphOperation rt)) (key : String × ReviewField) :
    lastValue (xs ++ ys) key = (lastValue ys key).or (lastValue xs key) := by
  rw [lastValue, List.reverse_append, List.findSome?_append]
  rfl

theorem lastValue_singleton (op : GraphOperation rt) (key : String × ReviewField) :
    lastValue [op] key = op.explicitValue key := by
  cases h : op.explicitValue key <;> simp [lastValue, h]

/-- What the steps of one patch name is what its operations name. -/
theorem lastExplicit_patch (p : Patch rt) (steps : List (OpStep rt))
    (h : ∀ st ∈ steps, st.patch = p) (key : String × ReviewField) :
    (lastExplicit steps key).map (fun x => (x.1.patch, x.2)) =
      (lastValue (steps.map (·.op)) key).map (p, ·) := by
  rw [lastExplicit, lastValue, ← List.map_reverse, List.findSome?_map]
  have hrev : ∀ st ∈ steps.reverse, st.patch = p := fun st hst => h st (List.mem_reverse.mp hst)
  generalize steps.reverse = rev at hrev ⊢
  induction rev with
  | nil => rfl
  | cons st steps ih =>
      rw [List.findSome?_cons, List.findSome?_cons]
      cases hvalue : st.op.explicitValue key with
      | some v => simp [hvalue, hrev st List.mem_cons_self]
      | none =>
          simp only [Option.map_none, Function.comp_apply, hvalue]
          exact ih fun st hst => hrev st (List.mem_cons_of_mem _ hst)

/-- The steps of a run are its operations. -/
theorem ops_opSteps (p : Patch rt) (generated : List Nat) (ops : List (GraphOperation rt × Nat))
    (s t : GraphState rt)
    (h : Steps.run (fun (op, i) => applyOp p (decide (i ∈ generated)) op) ops s = .ok t) :
    (opSteps p generated ops s).map (·.op) = ops.map Prod.fst ∧
      ∀ st ∈ opSteps p generated ops s, st.patch = p := by
  induction ops generalizing s with
  | nil => exact ⟨rfl, by simp [opSteps]⟩
  | cons x ops ih =>
      obtain ⟨u, hu, hrest⟩ := (Steps.run_cons_ok _ _ _ _ _).mp h
      simp only at hu
      obtain ⟨hops, hpatch⟩ := ih u hrest
      rw [opSteps, hu]
      exact ⟨by rw [List.map_cons, List.map_cons, hops], List.forall_mem_cons.mpr ⟨rfl, hpatch⟩⟩

theorem ops_steps (p : Patch rt) (s t : GraphState rt) (h : applyValidPatch s p = .ok t) :
    (p.steps s).map (·.op) = p.ops ∧ ∀ st ∈ p.steps s, st.patch = p := by
  obtain ⟨u, hrun, -⟩ := applyPatch_ok p _ s t h
  obtain ⟨hops, hpatch⟩ := ops_opSteps p _ _ s u hrun
  rw [List.zipIdx_map_fst] at hops
  exact ⟨hops, hpatch⟩

/-- The last of some updates that names a status. -/
theorem explicitValue_updateNodes (u : NodeUpdate) (us : List NodeUpdate)
    (key : String × ReviewField) :
    (GraphOperation.updateNodes (u :: us) : GraphOperation rt).explicitValue key =
      ((GraphOperation.updateNodes us : GraphOperation rt).explicitValue key).or
        (if key = (u.id, .status) then u.changes.get? "status" else none) := by
  obtain ⟨id, field⟩ := key
  cases field with
  | standing => simp [GraphOperation.explicitValue]
  | status =>
      simp only [GraphOperation.explicitValue, List.reverse_cons, List.find?_append]
      cases hfind : us.reverse.find? fun u => decide (u.id = id ∧ "status" ∈ u.changes) with
      | some w =>
          have hw := List.find?_some hfind
          rw [decide_eq_true_eq, Dict.mem_iff_exists] at hw
          obtain ⟨-, v, hv⟩ := hw
          simp [hv]
      | none =>
          rw [Option.none_or, Option.bind_none, Option.none_or, List.find?_cons, List.find?_nil]
          by_cases hid : u.id = id
          · cases hget : u.changes.get? "status" with
            | none => simp [hid, hget, Dict.mem_iff_isSome]
            | some v => simp [hid, hget, Dict.mem_iff_isSome]
          · simp [hid, Ne.symm hid]

/-- A generated operation names no standing and no status. -/
theorem explicitValue_of_guidance (op : GraphOperation rt)
    (h : validateGuidanceOperation op = .ok ()) (key : String × ReviewField) :
    op.explicitValue key = none := by
  cases op with
  | updateNodes updates =>
      obtain ⟨id, field⟩ := key
      cases field with
      | standing => rfl
      | status =>
          simp only [validateGuidanceOperation] at h
          split at h
          next => cases h
          next =>
            have hstatus : ∀ u ∈ updates, "status" ∉ u.changes := by
              intro u hu hmem
              have hok := (Steps.run_check _ _).mp h u hu
              split at hok
              next => cases hok
              next hfields =>
                rw [not_or, not_not] at hfields
                exact absurd (hfields.2 "status" hmem) (by decide)
            have hnone : (updates.reverse.find? fun u =>
                decide (u.id = id ∧ "status" ∈ u.changes)) = none := by
              rw [List.find?_eq_none]
              intro u hu
              simp [hstatus u (List.mem_reverse.mp hu)]
            simp only [GraphOperation.explicitValue, hnone, Option.bind_none]
  | _ => cases h

end Events

section Frame

variable (p : Patch rt)

theorem fieldIn_standing (s : GraphState rt) (x : String) :
    fieldIn s.nodes (x, .standing) = (standingAt s x).map fun after => .str after.name := by
  rw [fieldIn, standingAt]
  cases s.nodes.get? x <;> rfl

/-- The status of a node is stored as written, where its type has one. -/
theorem status_declared (n : ProjectNode rt) (h : (n.field? "status").isSome) :
    ∃ f ∈ contentFields rt n.type, f.name = "status" ∧ f.kind.Verbatim := by
  cases htype : n.type with
  | evidence =>
      rw [n.field?_undeclared "status" (by
        rw [htype]
        simp [names, contentFields, Fields.base, Fields.own, Fields.textField,
          Fields.optionalText, Fields.listField, Fields.textsField, Fields.choiceField,
          Field.required, Field.withDefault])] at h
      cases h
  | researchQuestion =>
      exact ⟨Fields.choiceField "status" "open" ["answered", "abandoned", "superseded"],
        by simp [contentFields, Fields.own], rfl, Kind.verbatim_str _ _⟩
  | hypothesis =>
      exact ⟨Fields.choiceField "status" "proposed"
        ["active", "supported", "weakened", "rejected", "superseded"],
        by simp [contentFields, Fields.own], rfl, Kind.verbatim_str _ _⟩
  | decision =>
      exact ⟨Fields.choiceField "status" "open" ["ready", "decided", "revisit", "superseded"],
        by simp [contentFields, Fields.own], rfl, Kind.verbatim_str _ _⟩
  | experiment =>
      exact ⟨Fields.choiceField "status" "proposed"
        ["designing", "implementing", "debugging", "running", "analyzing", "completed",
          "unspecified", "abandoned", "superseded"],
        by simp [contentFields, Fields.own], rfl, Kind.verbatim_str _ _⟩
  | blocker =>
      exact ⟨Fields.choiceField "status" "open" ["resolved", "superseded"],
        by simp [contentFields, Fields.own], rfl, Kind.verbatim_str _ _⟩

/-- A revision leaves the status it names, or the one that was there. -/
theorem field_revise (n m : ProjectNode rt) (co : Coercions) (changes : Dict String Json)
    (revision : Nat) (standing : Standing) (h : n.revise co changes revision standing = .ok m)
    (v : Json) (hv : m.field? "status" = some v) :
    (changes.get? "status").or (n.field? "status") = some v := by
  obtain ⟨hcontent, -, htype, -⟩ := ProjectNode.revise_ok n m co changes revision standing h
  obtain ⟨f, hf, hname, hverbatim⟩ := status_declared m (by rw [hv]; rfl)
  have hfind := n.find_reviseContent co changes m.content hcontent f (htype ▸ hf) hverbatim
    (by rw [hname]; decide) (by rw [hname]; decide)
  rw [hname] at hfind
  rw [← hfind]
  exact hv

/-- The status around one rewrite of a node. -/
theorem status_insert (s t : GraphState rt) (n m : ProjectNode rt) (id x : String) (co : Coercions)
    (changes : Dict String Json) (revision : Nat) (standing : Standing)
    (hn : s.nodes.get? id = some n) (hm : n.revise co changes revision standing = .ok m)
    (ht : t.nodes = s.nodes.insert id m) (v : Json)
    (hv : fieldIn t.nodes (x, .status) = some v) :
    (if x = id then changes.get? "status" else none).or (fieldIn s.nodes (x, .status)) =
      some v := by
  rw [ht, fieldIn, Dict.get?_insert] at hv
  by_cases hx : x = id
  · subst hx
    rw [if_pos rfl] at hv
    rw [if_pos rfl, fieldIn, hn]
    exact field_revise n m co changes revision standing hm v hv
  · rw [if_neg hx] at hv
    rw [if_neg hx, Option.none_or]
    exact hv

theorem status_updateNode (generated : Bool) (u : NodeUpdate) (s t : GraphState rt) (hs : s.Keyed)
    (h : updateNode p generated u s = .ok t) (x : String) (v : Json)
    (hv : fieldIn t.nodes (x, .status) = some v) :
    (if x = u.id then u.changes.get? "status" else none).or (fieldIn s.nodes (x, .status)) =
      some v := by
  obtain ⟨n, m, hn, -, hm, rfl⟩ := updateNode_ok p generated u s t h
  exact status_insert s _ n m u.id x _ _ _ _ hn hm (by simp [hs u.id n hn]) v hv

theorem status_lifecycle (t : NodeType) (v : Json) :
    (Dict.ofList [(t.lifecycleField, v)]).get? "status" =
      if t.lifecycleField = "status" then some v else none := by
  cases t <;> rfl

/-- A node that retires gets the retired value where its lifecycle field is the status. -/
theorem status_retireNode (id : String) (cause : Option BeliefCause) (s t : GraphState rt)
    (h : retireNode p id cause s = .ok t) (x : String) (v : Json)
    (hv : fieldIn t.nodes (x, .status) = some v) :
    (if x = id ∧ (s.nodeType? x).map NodeType.lifecycleField = some "status" then
      some (.str retiredValue) else none).or (fieldIn s.nodes (x, .status)) = some v := by
  obtain ⟨n, m, hn, hm, rfl⟩ := retireNode_ok p id cause s t h
  have key := status_insert s _ n m id x _ _ _ _ hn hm (by simp) v hv
  by_cases hx : x = id
  · subst hx
    have htype : s.nodeType? x = some n.type := by rw [GraphState.nodeType?, hn]; rfl
    rw [if_pos rfl, status_lifecycle] at key
    simpa [htype] using key
  · rw [if_neg hx] at key
    rw [if_neg (fun h => hx h.1)]
    exact key

theorem status_updateNodes (generated : Bool) (updates : List NodeUpdate) (s t : GraphState rt)
    (hs : s.Keyed) (h : Steps.run (updateNode p generated) updates s = .ok t) (x : String)
    (v : Json) (hv : fieldIn t.nodes (x, .status) = some v) :
    ((GraphOperation.updateNodes updates : GraphOperation rt).explicitValue (x, .status)).or
      (fieldIn s.nodes (x, .status)) = some v := by
  induction updates generalizing s with
  | nil =>
      cases h
      exact hv
  | cons u us ih =>
      obtain ⟨w, hw, hrun⟩ := (Steps.run_cons_ok _ _ _ _ _).mp h
      have hkeyed := (updateNode_rewrites p generated u s w hs hw).1.keyed hs
      have hrest := ih w hkeyed hrun
      rw [explicitValue_updateNodes, Option.or_assoc]
      cases hlast : (GraphOperation.updateNodes us : GraphOperation rt).explicitValue
          (x, .status) with
      | some q =>
          rw [hlast] at hrest
          exact hrest
      | none =>
          rw [hlast, Option.none_or] at hrest
          have hstep := status_updateNode p generated u s w hs hw x v hrest
          rw [Option.none_or]
          by_cases hx : x = u.id
          · simpa [hx] using hstep
          · simpa [hx] using hstep

/-- A run of retirements, one item after another. -/
theorem status_retired {α : Type} (f : α → GraphState rt → Except String (GraphState rt))
    (id : α → String)
    (step : ∀ a s t, s.Keyed → f a s = .ok t → Rewrites (id a) s t ∧
      ∀ x v, fieldIn t.nodes (x, .status) = some v →
        (if x = id a ∧ (s.nodeType? x).map NodeType.lifecycleField = some "status" then
          some (.str retiredValue) else none).or (fieldIn s.nodes (x, .status)) = some v)
    (as : List α) (s t : GraphState rt) (hs : s.Keyed) (h : Steps.run f as s = .ok t)
    (x : String) (v : Json) (hv : fieldIn t.nodes (x, .status) = some v) :
    (if x ∈ as.map id ∧ (s.nodeType? x).map NodeType.lifecycleField = some "status" then
      some (.str retiredValue) else none).or (fieldIn s.nodes (x, .status)) = some v := by
  induction as generalizing s with
  | nil =>
      cases h
      simpa using hv
  | cons a as ih =>
      obtain ⟨u, hu, hrun⟩ := (Steps.run_cons_ok _ _ _ _ _).mp h
      obtain ⟨hrewrites, hstep⟩ := step a s u hs hu
      have hrest := ih u (hrewrites.keyed hs) hrun
      rw [hrewrites.nodeType? x] at hrest
      by_cases hlifecycle : (s.nodeType? x).map NodeType.lifecycleField = some "status"
      · by_cases htail : x ∈ as.map id
        · rw [if_pos ⟨htail, hlifecycle⟩] at hrest
          rw [if_pos ⟨List.mem_cons_of_mem _ htail, hlifecycle⟩]
          exact hrest
        · rw [if_neg (fun h => htail h.1), Option.none_or] at hrest
          have hhead := hstep x v hrest
          by_cases hx : x = id a
          · rw [if_pos ⟨hx, hlifecycle⟩] at hhead
            rw [if_pos ⟨by simp [hx], hlifecycle⟩]
            exact hhead
          · rw [if_neg (fun h => hx h.1)] at hhead
            rw [if_neg (fun h => htail ((List.mem_cons.mp h.1).resolve_left hx))]
            exact hhead
      · rw [if_neg (fun h => hlifecycle h.2), Option.none_or] at hrest
        have hhead := hstep x v hrest
        rw [if_neg (fun h => hlifecycle h.2)] at hhead
        rw [if_neg (fun h => hlifecycle h.2)]
        exact hhead

/-- A status that is there after an operation was written by it or was there before. -/
theorem status_applyOp (generated : Bool) (op : GraphOperation rt) (s t : GraphState rt)
    (hs : s.Keyed) (h : applyOp p generated op s = .ok t) (x : String) (v : Json)
    (hv : fieldIn t.nodes (x, .status) = some v) :
    ((op.explicitValue (x, .status)).or (op.implicitValue p s (x, .status))).or
      (fieldIn s.nodes (x, .status)) = some v := by
  obtain ⟨-, hsupersede, hmerge⟩ := applyOp_rewrites p generated
  have hother : op.nodeTargets = [] → fieldIn s.nodes (x, .status) = some v := by
    intro htargets
    rw [← nodes_applyOp_other p generated op htargets s t h]
    exact hv
  cases op with
  | createNodes nodes =>
      cases h
      rw [fieldIn, get?_createNodes] at hv
      simp only [GraphOperation.explicitValue, GraphOperation.implicitValue, Option.none_or]
      cases hfind : nodes.reverse.find? fun raw => raw.id = x with
      | none =>
          rw [hfind] at hv
          exact hv
      | some raw =>
          rw [hfind] at hv
          simp only [Option.bind_some] at hv ⊢
          rw [hv]
          rfl
  | updateNodes updates =>
      have key := status_updateNodes p generated updates s t hs h x v hv
      have hnone : (GraphOperation.updateNodes updates : GraphOperation rt).implicitValue p s
          (x, .status) = none := by
        simp [GraphOperation.implicitValue, GraphOperation.retires]
      rw [hnone, Option.or_none]
      exact key
  | supersedeNodes items =>
      exact status_retired _ (·.id) (fun i s t hs h => ⟨hsupersede i s t hs h, fun x v hv => by
        obtain ⟨u, hu, rfl⟩ := supersedeNode_ok p i s t h
        refine status_retireNode p i.id i.cause s u hu x v ?_
        cases hedge : i.edge? p.revision <;> simpa [hedge, addEdge] using hv⟩) items s t hs h x v hv
  | mergeNodes merges =>
      exact status_retired _ (·.duplicate) (fun m s t hs h => ⟨hmerge m s t hs h, fun x v hv => by
        obtain ⟨u, hu, rfl⟩ := mergeNode_ok p m s t h
        exact status_retireNode p m.duplicate m.cause s u hu x v hv⟩) merges s t hs h x v hv
  | setStanding id standing =>
      obtain ⟨n, hn, rfl⟩ := setStanding_ok p.revision id standing s t h
      rw [fieldIn, Dict.get?_insert, hs id n hn] at hv
      have hsame : fieldIn s.nodes (x, .status) = some v := by
        by_cases hx : x = id
        · subst hx
          rw [if_pos rfl] at hv
          rw [fieldIn, hn]
          exact hv
        · rw [if_neg hx] at hv
          exact hv
      simpa [GraphOperation.explicitValue, GraphOperation.implicitValue, GraphOperation.retires]
        using hsame
  | removeNodes ids =>
      cases h
      rw [fieldIn, removeNodes, Dict.get?_filter] at hv
      have hsame : fieldIn s.nodes (x, .status) = some v := by
        rw [fieldIn]
        cases hn : s.nodes.get? x with
        | none => simp [hn] at hv
        | some n =>
            rw [hn, Option.filter] at hv
            split at hv
            next => exact hv
            next => cases hv
      simpa [GraphOperation.explicitValue, GraphOperation.implicitValue, GraphOperation.retires]
        using hsame
  | _ =>
      simpa [GraphOperation.explicitValue, GraphOperation.implicitValue, GraphOperation.retires]
        using hother rfl

/-- A standing that is there after an operation was written by it or was there before. -/
theorem standing_applyOp (generated : Bool) (op : GraphOperation rt) (s t : GraphState rt)
    (hs : s.Keyed) (h : applyOp p generated op s = .ok t) (x : String) (v : Json)
    (hv : fieldIn t.nodes (x, .standing) = some v) :
    ((op.explicitValue (x, .standing)).or (op.implicitValue p s (x, .standing))).or
      (fieldIn s.nodes (x, .standing)) = some v := by
  by_cases hcreate : ∃ nodes, op = .createNodes nodes
  · obtain ⟨nodes, rfl⟩ := hcreate
    cases h
    rw [fieldIn, get?_createNodes] at hv
    simp only [GraphOperation.explicitValue, GraphOperation.implicitValue, Option.none_or]
    cases hfind : nodes.reverse.find? fun raw => raw.id = x with
    | none =>
        rw [hfind] at hv
        exact hv
    | some raw =>
        rw [hfind] at hv
        simp only [Option.bind_some] at hv ⊢
        rw [hv]
        rfl
  · have hop : ∀ nodes, op ≠ .createNodes nodes := fun nodes h => hcreate ⟨nodes, h⟩
    obtain ⟨hnamed, hrest⟩ := writes_applyOp p generated op s t hs hop h
    rw [fieldIn_standing] at hv ⊢
    have hvalue : (op.explicitValue (x, .standing)).or (op.implicitValue p s (x, .standing)) =
        if x ∈ (standingWrites p op).1 then some (.str (standingWrites p op).2.name) else none := by
      cases op with
      | createNodes nodes => exact absurd rfl (hop nodes)
      | setStanding id standing =>
          by_cases hx : x = id
          · simp [GraphOperation.explicitValue, standingWrites, hx]
          · simp [GraphOperation.explicitValue, GraphOperation.implicitValue, standingWrites,
              RefreshDelta.nodesResetByOperation, hx, Ne.symm hx]
      | _ =>
          by_cases hkind : p.kind = .approval <;>
            simp [GraphOperation.explicitValue, GraphOperation.implicitValue, standingWrites, hkind,
              RefreshDelta.nodesResetByOperation]
    rw [hvalue]
    by_cases hx : x ∈ (standingWrites p op).1
    · rw [(hnamed x hx).2] at hv
      rw [if_pos hx]
      exact hv
    · rw [if_neg hx, Option.none_or]
      rcases hrest x hx with heq | hnone
      · rw [← heq]
        exact hv
      · rw [hnone] at hv
        cases hv

/-- A review field that is there after an operation was written by it or was there before. -/
theorem field_applyOp (generated : Bool) (op : GraphOperation rt) (s t : GraphState rt)
    (hs : s.Keyed) (h : applyOp p generated op s = .ok t) (key : String × ReviewField) (v : Json)
    (hv : fieldIn t.nodes key = some v) :
    ((op.explicitValue key).or (op.implicitValue p s key)).or (fieldIn s.nodes key) = some v := by
  obtain ⟨x, field⟩ := key
  cases field with
  | standing => exact standing_applyOp p generated op s t hs h x v hv
  | status => exact status_applyOp p generated op s t hs h x v hv

end Frame

section Last

/-- A step leaves what it writes, or what was there. -/
theorem OpStep.Sound.field {st : OpStep rt} (h : st.Sound) (key : String × ReviewField) (v : Json)
    (hv : fieldIn st.after.nodes key = some v) :
    ((st.event key).map FieldEvent.value).or (fieldIn st.before.nodes key) = some v := by
  rw [← field_applyOp st.patch st.generated st.op st.before st.after h.keyed h.runs key v hv,
    OpStep.event]
  cases st.op.explicitValue key with
  | some w => rfl
  | none => cases st.op.implicitValue st.patch st.before key <;> rfl

/-- What a human's patch generates writes no review field. -/
theorem OpStep.Sound.event_generated {st : OpStep rt} (h : st.Sound)
    (hgenerated : st.generated = true) (hauthor : st.patch.author = some .human)
    (key : String × ReviewField) : st.event key = none := by
  have hguidance := h.guidance hgenerated
  have hkind : st.patch.kind = .approval := by
    by_contra hkind
    rw [h.author, if_neg hkind] at hauthor
    cases hauthor
  have himplicit : st.op.implicitValue st.patch st.before key = none := by
    obtain ⟨id, field⟩ := key
    cases hop : st.op with
    | updateNodes updates =>
        cases field <;> simp [GraphOperation.implicitValue, GraphOperation.retires, hkind]
    | _ => simp [hop, validateGuidanceOperation] at hguidance
  rw [OpStep.event, explicitValue_of_guidance st.op hguidance key, himplicit]
  rfl

/-- A judgment writes the standing of its node and names it. -/
theorem OpStep.event_setStanding {st : OpStep rt} {id : String} {standing : Standing}
    (h : st.op = .setStanding id standing) (key : String × ReviewField) :
    st.event key =
      if key = (id, .standing) then some (.explicit (.str standing.name)) else none := by
  obtain ⟨x, field⟩ := key
  cases field with
  | standing =>
      by_cases hx : id = x
      · simp [OpStep.event, h, GraphOperation.explicitValue, hx]
      · simp [OpStep.event, h, GraphOperation.explicitValue, GraphOperation.implicitValue,
          RefreshDelta.nodesResetByOperation, hx, Ne.symm hx]
  | status =>
      simp [OpStep.event, h, GraphOperation.explicitValue, GraphOperation.implicitValue,
        GraphOperation.retires]

/-- An update that names no status writes the standing of its node at most. -/
theorem OpStep.event_updateNodes {st : OpStep rt} {u : NodeUpdate} (h : st.op = .updateNodes [u])
    (hstatus : "status" ∉ u.changes) (key : String × ReviewField) (hkey : key ≠ (u.id, .standing)) :
    st.event key = none := by
  obtain ⟨x, field⟩ := key
  cases field with
  | standing =>
      have hx : ¬x = u.id := fun hx => hkey (by rw [hx])
      simp [OpStep.event, h, GraphOperation.explicitValue, GraphOperation.implicitValue,
        RefreshDelta.nodesResetByOperation, hx]
  | status =>
      simp [OpStep.event, h, GraphOperation.explicitValue, GraphOperation.implicitValue,
        GraphOperation.retires, hstatus]

theorem lastEvent_mem (steps : List (OpStep rt)) (key : String × ReviewField) (st : OpStep rt)
    (e : FieldEvent) (h : lastEvent steps key = some (st, e)) :
    st ∈ steps ∧ st.event key = some e := by
  obtain ⟨st', hst, heq⟩ := List.exists_of_findSome?_eq_some h
  obtain ⟨e', he, heq⟩ := Option.map_eq_some_iff.mp heq
  cases heq
  exact ⟨List.mem_reverse.mp hst, he⟩

theorem lastEvent_cons (st : OpStep rt) (steps : List (OpStep rt)) (key : String × ReviewField) :
    lastEvent (st :: steps) key = (lastEvent steps key).or ((st.event key).map (st, ·)) := by
  rw [lastEvent, List.reverse_cons, List.findSome?_append]
  cases h : st.event key <;> simp [lastEvent, h]

theorem lastExplicit_cons (st : OpStep rt) (steps : List (OpStep rt))
    (key : String × ReviewField) :
    lastExplicit (st :: steps) key =
      (lastExplicit steps key).or ((st.op.explicitValue key).map (st, ·)) := by
  rw [lastExplicit, List.reverse_cons, List.findSome?_append]
  cases h : st.op.explicitValue key <;> simp [lastExplicit, h]

/-- A field that is there in the end has the value of its last write. -/
theorem Linked.last {d d' : Dict String (ProjectNode rt)} {steps : List (OpStep rt)}
    (h : Linked d steps d') (hsound : ∀ st ∈ steps, st.Sound) (key : String × ReviewField)
    (v : Json) (hv : fieldIn d' key = some v) :
    ((lastEvent steps key).map fun e => e.2.value).or (fieldIn d key) = some v := by
  induction h with
  | nil d => exact hv
  | cons st steps d tail ih =>
      obtain ⟨hst, hsteps⟩ := List.forall_mem_cons.mp hsound
      have hrest := ih hsteps hv
      rw [lastEvent_cons]
      cases hlast : lastEvent steps key with
      | some e =>
          rw [hlast] at hrest
          exact hrest
      | none =>
          rw [hlast, Option.map_none, Option.none_or] at hrest
          have hfield := hst.field key v hrest
          cases hevent : st.event key with
          | some e =>
              rw [hevent] at hfield
              exact hfield
          | none =>
              rw [hevent] at hfield
              exact hfield

/-- A field that nothing writes is a field that nothing names. -/
theorem unnamed_of_unwritten (steps : List (OpStep rt)) (key : String × ReviewField)
    (h : lastEvent steps key = none) : lastExplicit steps key = none := by
  rw [lastEvent, List.findSome?_eq_none_iff] at h
  rw [lastExplicit, List.findSome?_eq_none_iff]
  intro st hst
  have hevent := h st hst
  rw [Option.map_eq_none_iff, OpStep.event, Option.or_eq_none_iff, Option.map_eq_none_iff] at hevent
  rw [hevent.1]
  rfl

/-- A last write that names the field is the last one that does. -/
theorem lastExplicit_of_lastEvent (steps : List (OpStep rt)) (key : String × ReviewField)
    (st : OpStep rt) (v : Json) (h : lastEvent steps key = some (st, .explicit v)) :
    lastExplicit steps key = some (st, v) := by
  induction steps with
  | nil => cases h
  | cons first steps ih =>
      rw [lastEvent_cons] at h
      rw [lastExplicit_cons]
      cases hlast : lastEvent steps key with
      | some e =>
          rw [hlast] at h ih
          rw [ih h]
          rfl
      | none =>
          have hnone := unnamed_of_unwritten steps key hlast
          rw [hlast, Option.none_or, OpStep.event] at h
          rw [hnone, Option.none_or]
          cases hvalue : first.op.explicitValue key with
          | some w =>
              rw [hvalue] at h
              simp only [Option.map_some, Option.some_or, Option.some.injEq, Prod.mk.injEq,
                FieldEvent.explicit.injEq] at h
              rw [Option.map_some, h.1, h.2]
          | none =>
              rw [hvalue] at h
              cases himplicit : first.op.implicitValue first.patch first.before key with
              | none => simp [himplicit] at h
              | some w => simp [himplicit] at h

end Last

end RcpGraph
