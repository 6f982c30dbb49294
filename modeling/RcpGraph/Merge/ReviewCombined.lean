import RcpGraph.Merge.ReviewExecution

/-!
When the combined review operations write what the operations they come from write. A
folded operation is executed where the first of its kind stood, so a field keeps its last
write exactly when the kind of operations that begins last among those that write it
writes it last, or writes the same last.
-/

namespace RcpGraph

open LastWrite

variable {rt : Runtime}

/-- What is combined: the updates of one node alone under one intent, or equal operations. -/
inductive ReviewKind (rt : Runtime) where
  | alone (intent nodeId : String)
  | equal (form : OperationForm rt)
  deriving DecidableEq

namespace ProposalOperation

def kind (op : ProposalOperation rt) : ReviewKind rt :=
  match op.updates? with
  | some [u] => .alone op.intent u.id
  | _ => .equal op.form

/-- A node keeps one standing change, so another one voids it. -/
def voids (op : ProposalOperation rt) (k : ReviewKind rt) : Bool :=
  match op, k with
  | .standingChange id _, .equal (.other (.standingChange nodeId _)) => decide (nodeId = id)
  | _, _ => false

def isStanding : ProposalOperation rt → Bool
  | .standingChange _ _ => true
  | _ => false

/-- The standing that an operation sets. -/
def standing? : ProposalOperation rt → String → Option Standing
  | .standingChange id standing, nodeId => if id = nodeId then some standing else none
  | _, _ => none

/-- What an update of one node alone gives under a name. -/
def changed (op : ProposalOperation rt) (name : String) : Option Json :=
  match op.form with
  | .updateNodes _ [u] => Assoc.find name u.changes
  | _ => none

/-- An operation into which the members of a kind are folded gives what the last of them gives. -/
def Folds (op : ProposalOperation rt) (members : List (ProposalOperation rt)) : Prop :=
  ∀ name, op.changed name = last changed members name

end ProposalOperation

section Forms

def UpdateForm.write (u : UpdateForm) (place : Place) : Option Written :=
  (place.aspectOf u.id).bind fun aspect =>
    (aspect.changeNames.findSome? fun name => Assoc.find name u.changes).map .value

def NodeForm.written (n : NodeForm) : Aspect → Written
  | .field name => ((Assoc.find name.val n.content).map .value).getD .absent
  | .lifecycle => ((Assoc.find n.type.lifecycleField n.content).map .value).getD .absent
  | .standing => .standing n.standing
  | .identity => .identity n.type n.extensionType

def NodeForm.write (n : NodeForm) (place : Place) : Option Written :=
  (place.aspectOf n.id).map n.written

/-- What equal operations write, as `==` reads it. -/
def OperationForm.write : OperationForm rt → Place → Option Written
  | .updateNodes _ nodes, place => last UpdateForm.write nodes place
  | .createNodes nodes, place => last NodeForm.write nodes place
  | .createEdges _ edges, place => last EdgeForm.write edges place
  | .setCoverage _, _ => none
  | .other operation, place => (operation.write place).map Written.form

/-- What the members of a kind write, folded into one. -/
def ReviewKind.joined (k : ReviewKind rt) (members : List (ProposalOperation rt))
    (place : Place) : Option Written :=
  match k with
  | .alone _ nodeId =>
      (place.aspectOf nodeId).bind fun aspect =>
        (aspect.changeNames.findSome? (last ProposalOperation.changed members)).map .value
  | .equal form => form.write place

/-- What an operation writes, as `==` reads it. -/
def ProposalOperation.formWrite (op : ProposalOperation rt) (place : Place) : Option Written :=
  (op.write place).map Written.form

theorem find_equalForm (u : NodeUpdate) (name : String) :
    Assoc.find name u.form.changes = (u.changes.get? name).map Json.equalForm :=
  Json.find_equalFormFields name u.changes.entries u.changes.nodup

theorem update_write (u : NodeUpdate) (place : Place) :
    (u.write place).map Written.form = u.form.write place := by
  rw [NodeUpdate.write, UpdateForm.write]
  change Option.map _ ((place.aspectOf u.id).bind _) = (place.aspectOf u.id).bind _
  cases place.aspectOf u.id with
  | none => rfl
  | some aspect =>
      simp only [Option.bind_some, NodeUpdate.wrote, find_equalForm, Option.map_map]
      induction aspect.changeNames with
      | nil => rfl
      | cons name names ih =>
          rw [List.findSome?_cons, List.findSome?_cons]
          cases u.changes.get? name with
          | some v => rfl
          | none => exact ih

theorem written_form (raw : RawNode rt) (aspect : Aspect) :
    ((raw.create 0).written aspect).form = raw.form.written aspect := by
  have hfield : ∀ name, (((raw.create 0).field? name).map Written.value |>.getD .absent).form =
      ((Assoc.find name raw.form.content).map .value).getD .absent := by
    intro name
    have hfind : Assoc.find name raw.form.content =
        ((raw.create 0).field? name).map Json.equalForm :=
      Json.find_equalFormFields name (raw.create 0).content (raw.create 0).nodup_content
    rw [hfind]
    cases (raw.create 0).field? name <;> rfl
  cases aspect with
  | field name => exact hfield name.val
  | lifecycle => exact hfield raw.type.lifecycleField
  | standing => rfl
  | identity => rfl

theorem creation_write (raw : RawNode rt) (place : Place) :
    (raw.write place).map Written.form = raw.form.write place := by
  rw [RawNode.write, NodeForm.write, Option.map_map]
  change _ = (place.aspectOf raw.id).map _
  cases place.aspectOf raw.id with
  | none => rfl
  | some aspect => exact congrArg some (written_form raw aspect)

theorem edge_write (e : EdgeForm) (place : Place) :
    (e.write place).map Written.form = e.write place := by
  cases place with
  | node id aspect => rfl
  | edge id source target =>
      rw [EdgeForm.write]
      split
      · split <;> rfl
      · rfl

/-- What every member writes as `==` reads it, the list writes. -/
theorem last_forms {α β : Type} (write : α → Place → Option Written) (form : α → β)
    (write' : β → Place → Option Written)
    (h : ∀ a place, (write a place).map Written.form = write' (form a) place) (as : List α)
    (place : Place) : (last write as place).map Written.form = last write' (as.map form) place := by
  rw [last_map, ← last_map_value]
  exact last_congr _ as place place fun a _ => h a place

theorem formWrite_eq (op : ProposalOperation rt) (place : Place) :
    op.formWrite place = op.form.write place := by
  rw [ProposalOperation.formWrite]
  cases op with
  | contentChange legacy nodes => exact last_forms _ _ _ update_write nodes place
  | statusChange legacy nodes => exact last_forms _ _ _ update_write nodes place
  | legacyCreateNodes nodes => exact last_forms _ _ _ creation_write nodes place
  | createRelations legacy edges =>
      exact last_forms _ _ _ (fun e place => edge_write e.form place) edges place
  | legacySetCoverage coverage => rfl
  | _ => rfl

theorem changed_of_form {a b : ProposalOperation rt} (h : a.form = b.form) (name : String) :
    a.changed name = b.changed name := by
  rw [ProposalOperation.changed, ProposalOperation.changed, h]

theorem form_eq_other {a b : ProposalOperation rt} (h : a.form = .other b) : a = b := by
  cases a <;> first | exact OperationForm.other.inj h | cases h

theorem form_eq_updates {a : ProposalOperation rt} {intent : String} {nodes : List UpdateForm}
    (h : a.form = .updateNodes intent nodes) :
    ∃ us, a.updates? = some us ∧ a.intent = intent ∧ us.map NodeUpdate.form = nodes := by
  cases a with
  | contentChange legacy us =>
      obtain ⟨hintent, hnodes⟩ := OperationForm.updateNodes.inj h
      exact ⟨us, rfl, hintent, hnodes⟩
  | statusChange legacy us =>
      obtain ⟨hintent, hnodes⟩ := OperationForm.updateNodes.inj h
      exact ⟨us, rfl, hintent, hnodes⟩
  | _ => cases h

theorem form_of_updates {a : ProposalOperation rt} {us : List NodeUpdate}
    (h : a.updates? = some us) : a.form = .updateNodes a.intent (us.map NodeUpdate.form) := by
  cases a <;> cases h <;> rfl

theorem updates_of_form {a b : ProposalOperation rt} (h : a.form = b.form) {us : List NodeUpdate}
    (ha : a.updates? = some us) :
    ∃ vs, b.updates? = some vs ∧ b.intent = a.intent ∧
      vs.map NodeUpdate.form = us.map NodeUpdate.form :=
  form_eq_updates (h.symm.trans (form_of_updates ha))

theorem kind_alone {op : ProposalOperation rt} {u : NodeUpdate} (h : op.updates? = some [u]) :
    op.kind = .alone op.intent u.id := by
  rw [ProposalOperation.kind, h]

theorem kind_equal {op : ProposalOperation rt} (h : ∀ u, op.updates? ≠ some [u]) :
    op.kind = .equal op.form := by
  rw [ProposalOperation.kind]
  split
  next u hu => exact absurd hu (h u)
  next => rfl

/-- An operation that equals the update of one node is one. -/
theorem single_of_form {a b : ProposalOperation rt} (h : a.form = b.form) {u : NodeUpdate}
    (ha : a.updates? = some [u]) :
    ∃ v, b.updates? = some [v] ∧ b.intent = a.intent ∧ v.id = u.id := by
  obtain ⟨vs, hb, hintent, hforms⟩ := updates_of_form h ha
  cases vs with
  | nil => cases hforms
  | cons v vs =>
      obtain ⟨hv, hvs⟩ := List.cons.inj hforms
      rw [List.map_eq_nil_iff.mp hvs] at hb
      exact ⟨v, hb, hintent, congrArg UpdateForm.id hv⟩

theorem kind_of_form {a b : ProposalOperation rt} (h : a.form = b.form) : a.kind = b.kind := by
  by_cases ha : ∃ u, a.updates? = some [u]
  · obtain ⟨u, hu⟩ := ha
    obtain ⟨v, hv, hintent, hid⟩ := single_of_form h hu
    rw [kind_alone hu, kind_alone hv, hintent, hid]
  · have hb : ∀ v, b.updates? ≠ some [v] := by
      intro v hv
      obtain ⟨u, hu, -⟩ := single_of_form h.symm hv
      exact ha ⟨u, hu⟩
    rw [kind_equal fun u hu => ha ⟨u, hu⟩, kind_equal hb, h]

theorem isStanding_of_form {a b : ProposalOperation rt} (h : a.form = b.form) :
    a.isStanding = b.isStanding := by
  cases hb : b.isStanding with
  | true =>
      cases b with
      | standingChange id standing => rw [form_eq_other h]; rfl
      | _ => cases hb
  | false =>
      cases a with
      | standingChange id standing =>
          rw [form_eq_other h.symm] at hb
          exact hb
      | _ => rfl

theorem changed_single {op : ProposalOperation rt} {u : NodeUpdate}
    (h : op.updates? = some [u]) (name : String) :
    op.changed name = (u.changes.get? name).map Json.equalForm := by
  rw [ProposalOperation.changed, form_of_updates h]
  exact find_equalForm u name

/-- What an update of one node alone writes comes from what it gives. -/
theorem formWrite_single {op : ProposalOperation rt} {u : NodeUpdate}
    (h : op.updates? = some [u]) (place : Place) :
    op.formWrite place = (place.aspectOf u.id).bind fun aspect =>
      (aspect.changeNames.findSome? op.changed).map .value := by
  have hchanged : op.changed = fun name => Assoc.find name u.form.changes := by
    funext name
    rw [changed_single h, find_equalForm]
  rw [formWrite_eq, form_of_updates h, hchanged]
  exact last_singleton UpdateForm.write u.form place

theorem changed_equal {op : ProposalOperation rt} (h : ∀ u, op.updates? ≠ some [u])
    (name : String) : op.changed name = none := by
  rw [ProposalOperation.changed]
  split
  next intent u hform =>
    obtain ⟨us, hus, -, hmap⟩ := form_eq_updates hform
    cases us with
    | nil => cases hmap
    | cons v vs =>
        obtain ⟨-, hvs⟩ := List.cons.inj hmap
        rw [List.map_eq_nil_iff.mp hvs] at hus
        exact absurd hus (h v)
  next => rfl

/-- The members of a kind of equal operations are equal. -/
theorem form_of_kind {op : ProposalOperation rt} {form : OperationForm rt}
    (h : op.kind = .equal form) : op.form = form := by
  by_cases hop : ∃ u, op.updates? = some [u]
  · obtain ⟨u, hu⟩ := hop
    rw [kind_alone hu] at h
    cases h
  · rw [kind_equal fun u hu => hop ⟨u, hu⟩] at h
    exact ReviewKind.equal.inj h

theorem single_of_kind {op : ProposalOperation rt} {intent nodeId : String}
    (h : op.kind = .alone intent nodeId) : ∃ u, op.updates? = some [u] ∧ u.id = nodeId := by
  by_cases hop : ∃ u, op.updates? = some [u]
  · obtain ⟨u, hu⟩ := hop
    rw [kind_alone hu] at h
    exact ⟨u, hu, (ReviewKind.alone.inj h).2⟩
  · rw [kind_equal fun u hu => hop ⟨u, hu⟩] at h
    cases h

/-- An operation into which a kind is folded writes what the kind writes. -/
theorem formWrite_joined {op : ProposalOperation rt} {members : List (ProposalOperation rt)}
    (h : op.Folds members) (place : Place) :
    op.formWrite place = op.kind.joined members place := by
  cases hkind : op.kind with
  | alone intent nodeId =>
      obtain ⟨u, hu, rfl⟩ := single_of_kind hkind
      have hchanged : op.changed = last ProposalOperation.changed members := funext h
      rw [formWrite_single hu, hchanged]
      rfl
  | equal form => rw [formWrite_eq, form_of_kind hkind]; rfl

/-- What no kind writes, none of its members writes. -/
theorem formWrite_of_joined {operations : List (ProposalOperation rt)} {k : ReviewKind rt}
    {place : Place} (h : k.joined (ofKind ProposalOperation.kind k operations) place = none)
    {op : ProposalOperation rt} (hop : op ∈ ofKind ProposalOperation.kind k operations) :
    op.formWrite place = none := by
  have hkind := (kind_of_mem ProposalOperation.kind hop).2
  cases k with
  | equal form =>
      rw [formWrite_eq, form_of_kind hkind]
      exact h
  | alone intent nodeId =>
      obtain ⟨u, hu, rfl⟩ := single_of_kind hkind
      rw [formWrite_single hu]
      simp only [ReviewKind.joined] at h
      cases haspect : place.aspectOf u.id with
      | none => rfl
      | some aspect =>
          rw [haspect, Option.bind_some, Option.map_eq_none_iff, List.findSome?_eq_none_iff] at h
          rw [Option.bind_some, Option.map_eq_none_iff, List.findSome?_eq_none_iff]
          intro name hname
          exact (last_eq_none _ _ _).mp (h name hname) op hop

theorem voids_alone (op : ProposalOperation rt) (intent nodeId : String) :
    op.voids (.alone intent nodeId) = false := by
  cases op <;> rfl

theorem voids_of_not {op : ProposalOperation rt} (h : op.isStanding = false) (k : ReviewKind rt) :
    op.voids k = false := by
  cases op with
  | standingChange id standing => cases h
  | _ => rfl

/-- A standing change voids the standing changes of its node. -/
theorem voids_standing (id : String) (standing : Standing) (op : ProposalOperation rt) :
    (ProposalOperation.standingChange id standing).voids op.kind = op.setsStandingOf id := by
  cases op with
  | contentChange legacy nodes =>
      rcases nodes with _ | ⟨u, _ | ⟨v, rest⟩⟩ <;> rfl
  | statusChange legacy nodes =>
      rcases nodes with _ | ⟨u, _ | ⟨v, rest⟩⟩ <;> rfl
  | _ => rfl

/-- A standing change writes all that the changes it voids write. -/
theorem formWrite_voids {op other : ProposalOperation rt} {place : Place}
    (hvoids : op.voids other.kind = true) (h : op.formWrite place = none) :
    other.formWrite place = none := by
  cases op with
  | standingChange id standing =>
      rw [voids_standing] at hvoids
      cases other with
      | standingChange nodeId after =>
          have hid : nodeId = id := of_decide_eq_true hvoids
          rw [ProposalOperation.formWrite, ProposalOperation.write] at h ⊢
          rw [hid]
          split at h
          next => cases h
          next hplace => rw [if_neg hplace]; rfl
      | _ => cases hvoids
  | _ => cases hvoids

end Forms

section Step

theorem updates_withUpdates {op : ProposalOperation rt} {us : List NodeUpdate}
    (h : op.updates? = some us) (vs : List NodeUpdate) :
    (op.withUpdates vs).updates? = some vs ∧ (op.withUpdates vs).intent = op.intent := by
  cases op <;> cases h <;> exact ⟨rfl, rfl⟩

theorem isStanding_of_updates {op : ProposalOperation rt} {us : List NodeUpdate}
    (h : op.updates? = some us) : op.isStanding = false := by
  cases op <;> cases h <;> rfl

/-- Two updates of the same node alone under one intent. -/
theorem foldUpdate_eq_some {prior op folded : ProposalOperation rt}
    (h : foldUpdate prior op = some folded) :
    ∃ old new, prior.updates? = some [old] ∧ op.updates? = some [new] ∧
      prior.intent = op.intent ∧ old.id = new.id ∧
      folded = op.withUpdates [{ new with changes := old.changes.update new.changes.entries }] := by
  rw [foldUpdate] at h
  split at h
  next old new hprior hop =>
    split at h
    next hsame => exact ⟨old, new, hprior, hop, hsame.1, hsame.2, (Option.some.inj h).symm⟩
    next => cases h
  next => cases h

/-- A folded update takes the place of a prior one of its kind, and gives over it. -/
theorem foldUpdate_some {prior op folded : ProposalOperation rt}
    (h : foldUpdate prior op = some folded) :
    prior.kind = op.kind ∧ folded.kind = op.kind ∧ prior.isStanding = false ∧
      folded.isStanding = false ∧ prior.updates? ≠ none ∧
      ∀ name, folded.changed name = (op.changed name).or (prior.changed name) := by
  obtain ⟨old, new, hprior, hop, hintent, hid, rfl⟩ := foldUpdate_eq_some h
  obtain ⟨hfolded, hsame⟩ := updates_withUpdates hop
    [{ new with changes := old.changes.update new.changes.entries }]
  refine ⟨?_, ?_, isStanding_of_updates hprior, isStanding_of_updates hfolded, ?_, fun name => ?_⟩
  · rw [kind_alone hprior, kind_alone hop, hintent, hid]
  · rw [kind_alone hfolded, kind_alone hop, hsame]
  · rw [hprior]
    exact Option.some_ne_none _
  · rw [changed_single hfolded, changed_single hop, changed_single hprior,
      Dict.get?_update _ _ new.changes.nodup]
    change Option.map _ ((new.changes.get? name).or _) = _
    cases new.changes.get? name <;> rfl

theorem foldUpdate_other {prior op : ProposalOperation rt} (h : op.updates? = none) :
    foldUpdate prior op = none := by
  rw [foldUpdate, h]
  split
  next hnone => cases hnone
  next => rfl

/-- An update that a prior one does not take in is of another kind. -/
theorem foldUpdate_none {prior op : ProposalOperation rt} (h : foldUpdate prior op = none)
    (hform : prior.form ≠ op.form) : prior.kind ≠ op.kind := by
  intro hkind
  by_cases hop : ∃ new, op.updates? = some [new]
  · obtain ⟨new, hnew⟩ := hop
    rw [kind_alone hnew] at hkind
    by_cases hprior : ∃ old, prior.updates? = some [old]
    · obtain ⟨old, hold⟩ := hprior
      rw [kind_alone hold] at hkind
      obtain ⟨hintent, hid⟩ := ReviewKind.alone.inj hkind
      rw [foldUpdate, hold, hnew] at h
      simp only [hintent, hid, and_self, if_true] at h
      cases h
    · rw [kind_equal fun old hold => hprior ⟨old, hold⟩] at hkind
      cases hkind
  · rw [kind_equal fun new hnew => hop ⟨new, hnew⟩] at hkind
    by_cases hprior : ∃ old, prior.updates? = some [old]
    · obtain ⟨old, hold⟩ := hprior
      rw [kind_alone hold] at hkind
      cases hkind
    · rw [kind_equal fun old hold => hprior ⟨old, hold⟩] at hkind
      exact hform (ReviewKind.equal.inj hkind)

theorem foldFirst_some {op : ProposalOperation rt} {result folded : List (ProposalOperation rt)}
    (h : foldFirst op result = some folded) :
    ∃ before prior after new, result = before ++ prior :: after ∧
      foldUpdate prior op = some new ∧ folded = before ++ new :: after := by
  induction result generalizing folded with
  | nil => cases h
  | cons prior result ih =>
      rw [foldFirst] at h
      cases hfold : foldUpdate prior op with
      | some new =>
          rw [hfold] at h
          cases h
          exact ⟨[], prior, result, new, rfl, hfold, rfl⟩
      | none =>
          rw [hfold] at h
          obtain ⟨rest, hrest, rfl⟩ := Option.map_eq_some_iff.mp h
          obtain ⟨before, old, after, new, rfl, hnew, rfl⟩ := ih hrest
          exact ⟨prior :: before, old, after, new, rfl, hnew, rfl⟩

theorem foldFirst_none {op : ProposalOperation rt} {result : List (ProposalOperation rt)}
    (h : foldFirst op result = none) : ∀ prior ∈ result, foldUpdate prior op = none := by
  induction result with
  | nil =>
      intro prior hprior
      cases hprior
  | cons old result ih =>
      rw [foldFirst] at h
      cases hfold : foldUpdate old op with
      | some new =>
          rw [hfold] at h
          cases h
      | none =>
          rw [hfold] at h
          intro prior hprior
          cases List.mem_cons.mp hprior with
          | inl heq => exact heq ▸ hfold
          | inr hrest => exact ih (Option.map_eq_none_iff.mp h) prior hrest

/-- The combined operations so far: a slot for each kind of writer, and the last standings. -/
structure Combined (operations result : List (ProposalOperation rt)) : Prop where
  slots : Slots ProposalOperation.kind ProposalOperation.voids ProposalOperation.Folds operations
    result
  standing : ∀ nodeId, last ProposalOperation.standing? result nodeId =
    last ProposalOperation.standing? operations nodeId
  single : ∀ nodeId, (result.filter (·.setsStandingOf nodeId)).length ≤ 1
  kept : ∀ op ∈ operations, op.updates? = none → op.isStanding = false →
    op.form ∈ result.map ProposalOperation.form

theorem standing_of_not {op : ProposalOperation rt} (h : op.isStanding = false) (nodeId : String) :
    op.standing? nodeId = none ∧ op.setsStandingOf nodeId = false := by
  cases op with
  | standingChange id standing => cases h
  | _ => exact ⟨rfl, rfl⟩

/-- An operation that equals a combined one is left out. -/
theorem Combined.skip {operations result : List (ProposalOperation rt)}
    (h : Combined operations result) (op : ProposalOperation rt)
    (hform : op.form ∈ result.map ProposalOperation.form) :
    Combined (operations ++ [op]) result := by
  obtain ⟨prior, hprior, heq⟩ := List.mem_map.mp hform
  refine ⟨?_, fun nodeId => ?_, h.single, fun other hother hnone hnot => ?_⟩
  · refine h.slots.skip op prior hprior (kind_of_form heq) fun hfolds name => ?_
    rw [last_concat, ← hfolds name, changed_of_form heq, Option.or_self]
  · rw [last_concat, ← h.standing]
    cases op with
    | standingChange id standing =>
        have hmem := form_eq_other heq ▸ hprior
        by_cases hid : id = nodeId
        · -- The node has one standing change, this one.
          have honly : result.filter (·.setsStandingOf nodeId) = [.standingChange id standing] := by
            have hin : ProposalOperation.standingChange id standing ∈
                result.filter (·.setsStandingOf nodeId) :=
              List.mem_filter.mpr ⟨hmem, decide_eq_true hid⟩
            have hlength := h.single nodeId
            cases hfilter : result.filter (·.setsStandingOf nodeId) with
            | nil =>
                rw [hfilter] at hin
                cases hin
            | cons first rest =>
                rw [hfilter] at hin hlength
                have hrest : rest = [] := List.length_eq_zero_iff.mp (by
                  rw [List.length_cons] at hlength
                  omega)
                rw [hrest, List.mem_singleton] at hin
                rw [hrest, hin]
          have hlast := last_filter ProposalOperation.standing? (·.setsStandingOf nodeId) result nodeId
            (by
              intro item _ hitem
              cases item with
              | standingChange other standing => exact if_neg (of_decide_eq_false hitem)
              | _ => rfl)
          rw [← hlast, honly, last_singleton, Option.or_self]
        · rw [ProposalOperation.standing?, if_neg hid]
          rfl
    | _ => rfl
  · cases List.mem_append.mp hother with
    | inl hold => exact h.kept other hold hnone hnot
    | inr hnew => exact List.mem_singleton.mp hnew ▸ hform

/-- An operation of a new kind gives what its kind gives. -/
theorem folds_begun {operations result : List (ProposalOperation rt)}
    (h : Combined operations result) (op : ProposalOperation rt)
    (hnew : ∀ prior ∈ result, prior.kind ≠ op.kind) :
    op.Folds (ofKind ProposalOperation.kind op.kind (operations ++ [op])) := by
  intro name
  rw [ofKind_concat_same, last_concat]
  have hnone : last ProposalOperation.changed
      (ofKind ProposalOperation.kind op.kind operations) name = none := by
    cases hkind : op.kind with
    | alone intent nodeId =>
        -- Nothing voids the updates of a node alone, so there are none yet.
        have hfirst : ¬∃ x ∈ operations, x.kind = .alone intent nodeId := by
          intro hold
          have hbegun := mem_begun ProposalOperation.kind ProposalOperation.voids operations
            (fun x => voids_alone x intent nodeId) hold
          obtain ⟨prior, hprior, heq⟩ := (h.slots.mem_kind _).mpr hbegun
          exact hnew prior hprior (heq.trans hkind.symm)
        rw [ofKind_eq_nil ProposalOperation.kind operations hfirst]
        rfl
    | equal form =>
        rw [last_eq_none]
        intro member hmember
        have hmemberKind := (kind_of_mem ProposalOperation.kind hmember).2
        refine changed_equal (fun u hu => ?_) name
        rw [kind_alone hu] at hmemberKind
        cases hmemberKind
  rw [hnone, Option.or_none]

/-- An operation that nothing before it is of the kind of comes last. -/
theorem Combined.append {operations result : List (ProposalOperation rt)}
    (h : Combined operations result) (op : ProposalOperation rt)
    (hstanding : op.isStanding = false)
    (hnew : ∀ prior ∈ result, prior.kind ≠ op.kind) :
    Combined (operations ++ [op]) (result ++ [op]) := by
  refine ⟨?_, fun nodeId => ?_, fun nodeId => ?_, fun other hother hnone hnot => ?_⟩
  · have hbegin := h.slots.begin op hnew (folds_begun h op hnew)
    have hall : (result.filter fun prior => !op.voids prior.kind) = result := by
      rw [List.filter_eq_self]
      intro prior _
      rw [voids_of_not hstanding]
      rfl
    rw [hall] at hbegin
    exact hbegin
  · rw [last_concat, last_concat, h.standing]
  · have hnone : [op].filter (·.setsStandingOf nodeId) = [] := by
      rw [List.filter_cons_of_neg (by
        rw [(standing_of_not hstanding nodeId).2]
        exact Bool.false_ne_true), List.filter_nil]
    rw [List.filter_append, hnone, List.append_nil]
    exact h.single nodeId
  · rw [List.map_append, List.mem_append]
    cases List.mem_append.mp hother with
    | inl hold => exact .inl (h.kept other hold hnone hnot)
    | inr heq => exact .inr (List.mem_map_of_mem heq)

/-- An update folded into a prior one. -/
theorem Combined.fold {operations before after : List (ProposalOperation rt)}
    {prior new : ProposalOperation rt}
    (h : Combined operations (before ++ prior :: after)) (op : ProposalOperation rt)
    (hop : op.updates? ≠ none) (hfold : foldUpdate prior op = some new) :
    Combined (operations ++ [op]) (before ++ new :: after) := by
  obtain ⟨hprior, hnew, hnot, hnot', hupdates, hchanged⟩ := foldUpdate_some hfold
  have hstanding : op.isStanding = false := by
    obtain ⟨us, hus⟩ := Option.ne_none_iff_exists'.mp hop
    exact isStanding_of_updates hus
  refine ⟨?_, fun nodeId => ?_, fun nodeId => ?_, fun other hother hnone hnotStanding => ?_⟩
  · refine h.slots.fold op new hprior hnew fun hfolds name => ?_
    rw [hchanged, hfolds name, last_concat]
  · have hsame := h.standing nodeId
    rw [last_concat, (standing_of_not hstanding nodeId).1, ← hsame, last_middle, last_middle,
      (standing_of_not hnot nodeId).1, (standing_of_not hnot' nodeId).1]
    rfl
  · have hsame : ∀ x : ProposalOperation rt, x.isStanding = false →
        (before ++ x :: after).filter (·.setsStandingOf nodeId) =
          before.filter (·.setsStandingOf nodeId) ++ after.filter (·.setsStandingOf nodeId) := by
      intro x hx
      rw [List.filter_append, List.filter_cons_of_neg (by
        rw [(standing_of_not hx nodeId).2]
        exact Bool.false_ne_true)]
    rw [hsame new hnot', ← hsame prior hnot]
    exact h.single nodeId
  · cases List.mem_append.mp hother with
    | inr heq => exact absurd (List.mem_singleton.mp heq ▸ hnone) hop
    | inl hold =>
        obtain ⟨kept, hkept, hform⟩ := List.mem_map.mp (h.kept other hold hnone hnotStanding)
        refine List.mem_map.mpr ⟨kept, ?_, hform⟩
        rw [List.mem_append, List.mem_cons] at hkept ⊢
        refine hkept.imp id fun hlater => .inr (hlater.resolve_left fun heq => ?_)
        rw [heq] at hform
        obtain ⟨us, hus⟩ := Option.ne_none_iff_exists'.mp hupdates
        obtain ⟨vs, hvs, -⟩ := updates_of_form hform hus
        cases hnone.symm.trans hvs

/-- The last standing of a node replaces the one before. -/
theorem Combined.restand {operations result : List (ProposalOperation rt)}
    (h : Combined operations result) (id : String) (standing : Standing)
    (hform : (ProposalOperation.standingChange id standing).form ∉
      result.map ProposalOperation.form) :
    Combined (operations ++ [.standingChange id standing])
      (result.filter (fun item => !item.setsStandingOf id) ++ [.standingChange id standing]) := by
  have hsets : ∀ item : ProposalOperation rt, item.isStanding = false →
      item.setsStandingOf id = false := fun item hitem => (standing_of_not hitem id).2
  refine ⟨?_, fun nodeId => ?_, fun nodeId => ?_, fun other hother hnone hnot => ?_⟩
  · have hnew : ∀ prior ∈ result,
        prior.kind ≠ (ProposalOperation.standingChange id standing).kind := by
      intro prior hprior heq
      exact hform (List.mem_map.mpr ⟨prior, hprior, form_of_kind heq⟩)
    have hbegin := h.slots.begin _ hnew (folds_begun h _ hnew)
    simp only [voids_standing] at hbegin
    exact hbegin
  · rw [last_concat, last_concat, ← h.standing]
    by_cases hid : id = nodeId
    · rw [ProposalOperation.standing?, if_pos hid]
      rfl
    · rw [last_filter]
      intro item _ hitem
      cases item with
      | standingChange other _ =>
          have hother : other = id := by simpa [ProposalOperation.setsStandingOf] using hitem
          exact if_neg fun heq => hid (hother ▸ heq)
      | _ => rfl
  · rw [List.filter_append]
    by_cases hid : id = nodeId
    · have hnone : (result.filter fun item => !item.setsStandingOf id).filter
          (·.setsStandingOf nodeId) = [] := by
        rw [List.filter_eq_nil_iff, ← hid]
        intro item hitem
        have hnot := (List.mem_filter.mp hitem).2
        rw [Bool.not_eq_true'] at hnot
        rw [hnot]
        exact Bool.false_ne_true
      rw [hnone, List.nil_append]
      exact List.length_filter_le _ _
    · have hnone : [(.standingChange id standing : ProposalOperation rt)].filter
          (·.setsStandingOf nodeId) = [] := by
        rw [List.filter_cons_of_neg (by simp [ProposalOperation.setsStandingOf, hid]), List.filter_nil]
      rw [hnone, List.append_nil, List.filter_comm]
      exact (List.length_filter_le _ _).trans (h.single nodeId)
  · rw [List.map_append, List.mem_append]
    cases List.mem_append.mp hother with
    | inr heq =>
        rw [List.mem_singleton] at heq
        rw [heq] at hnot
        cases hnot
    | inl hold =>
        obtain ⟨kept, hkept, hform⟩ := List.mem_map.mp (h.kept other hold hnone hnot)
        refine .inl (List.mem_map.mpr ⟨kept, List.mem_filter.mpr ⟨hkept, ?_⟩, hform⟩)
        rw [hsets kept (isStanding_of_form hform ▸ hnot)]
        rfl

theorem combineReviewOp_combined {operations result : List (ProposalOperation rt)}
    (h : Combined operations result) (op : ProposalOperation rt) :
    Combined (operations ++ [op]) (combineReviewOp result op) := by
  rw [combineReviewOp]
  by_cases hform : op.form ∈ result.map ProposalOperation.form
  · rw [if_pos hform]
    exact h.skip op hform
  · rw [if_neg hform]
    have hforms : ∀ prior ∈ result, prior.form ≠ op.form := by
      intro prior hprior heq
      exact hform (heq ▸ List.mem_map_of_mem hprior)
    have hplace : op.isStanding = false → op.updates? = none →
        Combined (operations ++ [op]) (result ++ [op]) := by
      intro hstanding hnone
      exact h.append op hstanding fun prior hprior =>
        foldUpdate_none (foldUpdate_other hnone) (hforms prior hprior)
    have hupdate : op.isStanding = false → op.updates? ≠ none →
        Combined (operations ++ [op]) ((foldFirst op result).getD (result ++ [op])) := by
      intro hstanding hop
      cases hfirst : foldFirst op result with
      | some folded =>
          obtain ⟨before, prior, after, new, hresult, hfold, hfolded⟩ := foldFirst_some hfirst
          rw [Option.getD_some, hfolded]
          exact (hresult ▸ h).fold op hop hfold
      | none =>
          rw [Option.getD_none]
          exact h.append op hstanding fun prior hprior => foldUpdate_none
            (foldFirst_none hfirst prior hprior) (hforms prior hprior)
    cases op with
    | contentChange legacy nodes => exact hupdate rfl (Option.some_ne_none _)
    | statusChange legacy nodes => exact hupdate rfl (Option.some_ne_none _)
    | standingChange id standing => exact h.restand id standing hform
    | _ => exact hplace rfl rfl

theorem combineReviewOps_combined (operations : List (ProposalOperation rt)) :
    Combined operations (combineReviewOps operations) := by
  induction operations using List.reverseRecOn with
  | nil => exact ⟨.nil, fun _ => rfl, fun _ => Nat.zero_le 1, fun _ h => absurd h List.not_mem_nil⟩
  | append_singleton operations op ih =>
      rw [combineReviewOps, List.foldl_append]
      exact combineReviewOp_combined ih op

end Step

variable (operations : List (ProposalOperation rt))

/-- Executing the combined operations writes what executing the operations writes: the last
write of every place and the last standing of every node, and no other effect is gone. -/
def KeepsWrites : Prop :=
  (∀ place, last ProposalOperation.formWrite (combineReviewOps operations) place =
    last ProposalOperation.formWrite operations place) ∧
  (∀ nodeId, last ProposalOperation.standing? (combineReviewOps operations) nodeId =
    last ProposalOperation.standing? operations nodeId) ∧
  ∀ op ∈ operations, op.updates? = none → op.isStanding = false →
    ∃ kept ∈ combineReviewOps operations, kept.form = op.form

/-- Of the kinds of operations that write a place, the one that begins last writes it last, or
what it writes, folded into one, is what is written last. -/
def EndsInOrder : Prop :=
  ∀ place k, finalKind ProposalOperation.kind ProposalOperation.voids ReviewKind.joined operations
      place = some k →
    k.joined (ofKind ProposalOperation.kind k operations) place =
      last ProposalOperation.formWrite operations place

theorem keepsWrites_iff : KeepsWrites operations ↔ EndsInOrder operations := by
  have hcombined : Combined operations (combineReviewOps operations) :=
    combineReviewOps_combined operations
  have hplace := fun place => hcombined.slots.last_eq_iff ProposalOperation.formWrite
    ReviewKind.joined (fun op hfolds => formWrite_joined hfolds)
    (fun k place hnone op hop => formWrite_of_joined hnone hop)
    (fun op other place hvoids hnone => formWrite_voids hvoids hnone) place
  have hkept : ∀ op ∈ operations, op.updates? = none → op.isStanding = false →
      ∃ kept ∈ combineReviewOps operations, kept.form = op.form := by
    intro op hop hnone hnot
    exact List.mem_map.mp (hcombined.kept op hop hnone hnot)
  constructor
  · intro hkeeps place
    exact (hplace place).mp (hkeeps.1 place)
  · intro horder
    exact ⟨fun place => (hplace place).mpr (horder place), hcombined.standing, hkept⟩

/-- The combined operations keep what is written exactly when the operations end in order, and
writes are what an approval does: a place shows what is written there last, and holds what it
held where nothing is written. -/
theorem combined_review_ops_iff :
    (KeepsWrites operations ↔ EndsInOrder operations) ∧
      ∀ (p : Patch rt) (s t : GraphState rt), p.kind = .approval → s.Keyed →
        (executeReview p operations s = .ok t →
          ∀ place, s.Leaves t place (last ProposalOperation.write operations place)) ∧
        (EndsInOrder operations → executeReview p (combineReviewOps operations) s = .ok t →
          ∀ place, ∃ written, s.Leaves t place written ∧
            written.map Written.form = last ProposalOperation.formWrite operations place) := by
  refine ⟨keepsWrites_iff operations, fun p s t hp hs => ⟨fun hrun place => ?_,
    fun horder hrun place => ?_⟩⟩
  · exact executeReview_leaves p hp operations s t hs hrun place
  · have hkeeps := ((keepsWrites_iff operations).mpr horder).1 place
    refine ⟨_, executeReview_leaves p hp _ s t hs hrun place, ?_⟩
    rw [← hkeeps, ← last_map_value]
    rfl

/-- Three updates of one node, the second together with another node. -/
def overtakenUpdates : List (ProposalOperation .plain) :=
  [ .contentChange false [⟨"hypothesis/a", .ofList [("statement", .str "one")], none, none⟩],
    .contentChange false
      [ ⟨"hypothesis/a", .ofList [("statement", .str "two")], none, none⟩,
        ⟨"hypothesis/b", .ofList [("statement", .str "other")], none, none⟩ ],
    .contentChange false [⟨"hypothesis/a", .ofList [("statement", .str "three")], none, none⟩] ]

def statementOfA : Place := .node "hypothesis/a" (.field ⟨"statement", by decide⟩)

/-- The third is folded into the first, and the second then has the last word. -/
theorem folded_update_overtaken : ¬KeepsWrites overtakenUpdates := by
  intro hkeeps
  have hlast := hkeeps.1 statementOfA
  revert hlast
  decide

def restatement (id text : String) : ProposalOperation .plain :=
  .contentChange false [⟨id, .ofList [("statement", .str text)], none, none⟩]

/-- The same updates, each of one node alone. -/
def orderedUpdates : List (ProposalOperation .plain) :=
  [ restatement "hypothesis/a" "one", restatement "hypothesis/b" "other",
    restatement "hypothesis/a" "three" ]

def reviewedDraft (id : String) : RawNode .plain where
  id := id
  type := .hypothesis
  extensionType := none
  standing := none
  createdRev := none
  updatedRev := none
  content := [("title", .str "Title"), ("statement", .str "zero")]
  extensionType_ok := RawNode.no_extension
  content_ok := by rfl

def reviewedGraph : GraphState .plain where
  nodes := (Dict.empty.insert "hypothesis/a" ((reviewedDraft "hypothesis/a").create 1)).insert
    "hypothesis/b" ((reviewedDraft "hypothesis/b").create 1)

def reviewApproval : Patch .plain where
  revision := 2
  kind := .approval
  author := some .human
  producer := .human
  createdAt := "2026-01-01T00:00:00Z"
  summary := "Approve."
  ops := []

theorem keyed_reviewedGraph : reviewedGraph.Keyed := by
  intro id n hn
  rw [reviewedGraph, Dict.get?_insert, Dict.get?_insert] at hn
  split at hn
  next hid =>
    cases hn
    exact hid.symm
  next =>
    split at hn
    next hid =>
      cases hn
      exact hid.symm
    next => cases hn

/-- A restatement writes one field of its node. -/
theorem formWrite_restatement (id text : String) (place : Place) :
    (restatement id text).formWrite place =
      if place = .node id (.field ⟨"statement", by decide⟩) then some (.value (.str text))
      else none := by
  have hchanged : ∀ name, (restatement id text).changed name =
      if "statement" = name then some (.str text) else none := fun name => rfl
  rw [formWrite_single (u := ⟨id, .ofList [("statement", .str text)], none, none⟩) rfl]
  cases place with
  | edge x source target => rfl
  | node x aspect =>
      by_cases hx : id = x
      · subst hx
        rw [Place.aspectOf, if_pos rfl, Option.bind_some]
        cases aspect with
        | field name =>
            rw [Aspect.changeNames]
            by_cases hname : name = ⟨"statement", by decide⟩
            · subst hname
              exact (if_pos rfl).symm
            · have hval : "statement" ≠ name.val := fun heq => hname (Subtype.ext heq.symm)
              rw [if_neg fun heq => hname (Aspect.field.inj (Place.node.inj heq).2)]
              split <;> simp [hchanged, hval]
        | _ => exact (if_neg fun heq => by cases heq).symm
      · rw [Place.aspectOf, if_neg hx, Option.bind_none,
          if_neg fun heq => hx (Place.node.inj heq).1.symm]

theorem endsInOrder_ordered : EndsInOrder orderedUpdates := by
  refine (keepsWrites_iff orderedUpdates).mp ⟨fun place => ?_, fun nodeId => rfl,
    fun op hop hnone _ => ?_⟩
  · have hcombined : combineReviewOps orderedUpdates =
        [restatement "hypothesis/a" "three", restatement "hypothesis/b" "other"] := by rfl
    rw [hcombined]
    simp only [orderedUpdates, last, List.reverse_cons, List.reverse_nil, List.nil_append,
      List.cons_append, List.findSome?_cons, List.findSome?_nil, formWrite_restatement]
    by_cases ha : place = .node "hypothesis/a" (.field ⟨"statement", by decide⟩)
    · simp [ha]
    · simp [ha]
  · simp only [orderedUpdates, List.mem_cons, List.not_mem_nil, or_false] at hop
    rcases hop with rfl | rfl | rfl <;> cases hnone

theorem combined_review_ops_iff_ordered :
    ∃ t, executeReview reviewApproval (combineReviewOps orderedUpdates) reviewedGraph = .ok t ∧
      ∃ written, reviewedGraph.Leaves t statementOfA written ∧
        written.map Written.form = some (.value (.str "three")) := by
  have hok : (executeReview reviewApproval (combineReviewOps orderedUpdates)
      reviewedGraph).isOk = true := by decide +kernel
  cases hrun : executeReview reviewApproval (combineReviewOps orderedUpdates) reviewedGraph with
  | error e =>
      rw [hrun] at hok
      cases hok
  | ok t =>
      obtain ⟨-, hleaves⟩ := (combined_review_ops_iff orderedUpdates).2 reviewApproval reviewedGraph t
        rfl keyed_reviewedGraph
      exact ⟨t, rfl, hleaves endsInOrder_ordered hrun statementOfA⟩

end RcpGraph
