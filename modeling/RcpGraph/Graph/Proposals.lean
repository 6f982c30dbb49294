import RcpGraph.Graph.Endpoints
import RcpGraph.History.Admitted

/-!
The life of a Proposal. It is filed once, as pending; filing, resolution and
withdrawal are judged on the graph before their operation, and no operation
writes a Proposal that is no longer pending.
-/

namespace RcpGraph

variable {rt : Runtime}

/-- A Proposal record at a revision: resolved exactly when it is no longer pending, and
not before it was raised. -/
structure Proposal.CoherentAt (q : Proposal rt) (revision : Nat) : Prop where
  resolved : q.status ≠ .pending ↔ q.resolvedRev.isSome = true
  raised : q.raisedRev ≤ revision
  order : ∀ r, q.resolvedRev = some r → q.raisedRev ≤ r ∧ r ≤ revision

theorem Proposal.CoherentAt.mono {q : Proposal rt} {a b : Nat} (h : q.CoherentAt a) (hab : a ≤ b) :
    q.CoherentAt b :=
  ⟨h.resolved, h.raised.trans hab, fun r hr => ⟨(h.order r hr).1, (h.order r hr).2.trans hab⟩⟩

/-- The Proposals an operation files. -/
def GraphOperation.filings : GraphOperation rt → List (NewProposal rt)
  | .createProposals proposals => proposals
  | _ => []

def NewProposal.id (raw : NewProposal rt) : String := raw.proposal.id

/-- A Proposal as it has to be filed. -/
def NewProposal.Pending (raw : NewProposal rt) : Prop :=
  raw.proposal.status = .pending ∧ raw.proposal.resolvedRev = none

section Effects

/-- Operations that are not about Proposals. -/
def GraphOperation.movesProposals : GraphOperation rt → Bool
  | .createProposals _ | .resolveProposals _ | .withdrawProposals _ => true
  | _ => false

@[simp] theorem recordBeliefTransition_proposals (s : GraphState rt) (n m : ProjectNode rt)
    (r : Nat) (cause : Option BeliefCause) :
    (recordBeliefTransition s n m r cause).proposals = s.proposals := by
  unfold recordBeliefTransition
  cases cause with
  | none => rfl
  | some c =>
      simp only
      split <;> rfl

theorem proposals_retireNode (p : Patch rt) (id : String) (cause : Option BeliefCause)
    (s t : GraphState rt) (h : retireNode p id cause s = .ok t) : t.proposals = s.proposals := by
  obtain ⟨n, m, -, -, rfl⟩ := retireNode_ok p id cause s t h
  simp

theorem proposals_applyOp_other (p : Patch rt) (generated : Bool) (op : GraphOperation rt)
    (hop : op.movesProposals = false) (s t : GraphState rt)
    (h : applyOp p generated op s = .ok t) : t.proposals = s.proposals := by
  cases op with
  | createNodes nodes =>
      cases h
      exact foldl_constant (createNode p.revision) (·.proposals) (fun _ _ => rfl) nodes s
  | updateNodes updates =>
      exact Steps.run_constant _ (·.proposals) updates (fun u _ s t h => by
        obtain ⟨n, m, -, -, -, rfl⟩ := updateNode_ok p generated u s t h
        simp) s t h
  | createEdges edges =>
      exact Steps.run_constant _ (·.proposals) edges (fun e _ s t h => by
        obtain ⟨id, declared, -, -, rfl⟩ := createEdge_ok p.revision e s t h
        rfl) s t h
  | supersedeNodes items =>
      exact Steps.run_constant _ (·.proposals) items (fun i _ s t h => by
        obtain ⟨u, hu, rfl⟩ := supersedeNode_ok p i s t h
        have := proposals_retireNode p i.id i.cause s u hu
        cases i.edge? p.revision <;> exact this) s t h
  | mergeNodes merges =>
      exact Steps.run_constant _ (·.proposals) merges (fun m _ s t h => by
        obtain ⟨u, hu, rfl⟩ := mergeNode_ok p m s t h
        exact proposals_retireNode p m.duplicate m.cause s u hu) s t h
  | resolveAmbiguities rs =>
      exact Steps.run_constant _ (·.proposals) rs (fun r _ s t h => by
        obtain ⟨as, rfl⟩ := resolveAmbiguity_ok r s t h
        rfl) s t h
  | createAmbiguities as =>
      cases h
      exact foldl_constant (createAmbiguity p.revision) (·.proposals) (fun _ _ => rfl) as s
  | upsertGlossary terms =>
      cases h
      exact foldl_constant (upsertTerm p.revision) (·.proposals) (fun _ _ => rfl) terms s
  | setStanding id standing =>
      obtain ⟨n, -, rfl⟩ := setStanding_ok p.revision id standing s t h
      rfl
  | createProposals _ | resolveProposals _ | withdrawProposals _ => cases hop
  | removeEdges _ | removeNodes _ | setCoverage _ | setProjectTruthScope _ _ | setOntology _ =>
      cases h
      rfl

end Effects

/-- The Proposals of a graph on the way from `s` to `revision`, where the operations have
filed `filed` so far. -/
structure ProposalsAt (s : GraphState rt) (revision : Nat) (filed : List (NewProposal rt))
    (u : GraphState rt) : Prop where
  stored : ∀ id q, u.proposals.get? id = some q → q.id = id ∧ q.CoherentAt revision
  kept : ∀ id q, s.proposals.get? id = some q → q.status ≠ .pending →
    u.proposals.get? id = some q
  known : ∀ id, id ∈ u.proposals ↔ id ∈ s.proposals ∨ id ∈ filed.map NewProposal.id
  once : (filed.map NewProposal.id).Nodup
  fresh : ∀ raw ∈ filed, raw.id ∉ s.proposals
  pending : ∀ raw ∈ filed, raw.Pending

section Step

variable {s : GraphState rt} {filed : List (NewProposal rt)} {u : GraphState rt}

theorem ProposalsAt.congr {revision : Nat} (h : ProposalsAt s revision filed u) (t : GraphState rt)
    (hsame : t.proposals = u.proposals) : ProposalsAt s revision filed t := by
  refine ⟨?_, ?_, ?_, h.once, h.fresh, h.pending⟩ <;> rw [hsame]
  · exact h.stored
  · exact h.kept
  · exact h.known

theorem ProposalsAt.file {p : Patch rt} (h : ProposalsAt s p.revision filed u)
    (raw : NewProposal rt) (hnew : raw.id ∉ u.proposals) (hpending : raw.Pending) :
    ProposalsAt s p.revision (filed ++ [raw]) (createProposal p raw u) := by
  obtain ⟨hstored, hkept, hknown, honce, hfresh, hall⟩ := h
  have hunknown : raw.id ∉ s.proposals ∧ raw.id ∉ filed.map NewProposal.id := by
    rw [hknown, not_or] at hnew
    exact hnew
  refine ⟨fun id q hq => ?_, fun id q hq hp => ?_, fun id => ?_, ?_, fun r hr => ?_, fun r hr => ?_⟩
  · simp only [createProposal, Dict.get?_insert] at hq
    split at hq
    next hid =>
      cases hq
      refine ⟨hid.symm, ?_, Nat.le_refl _, fun r hr => ?_⟩
      · simp [hpending.1, hpending.2]
      · rw [show raw.proposal.resolvedRev = none from hpending.2] at hr
        cases hr
    next => exact hstored id q hq
  · have hne : id ≠ raw.proposal.id := by
      rintro rfl
      exact hunknown.1 (Dict.mem_of_get? hq)
    simp only [createProposal, Dict.get?_insert, if_neg hne]
    exact hkept id q hq hp
  · simp only [createProposal, Dict.mem_insert, hknown, List.map_append, List.map_cons,
      List.map_nil, List.mem_append, List.mem_singleton, NewProposal.id]
    tauto
  · rw [List.map_append, List.nodup_append]
    refine ⟨honce, List.nodup_singleton _, ?_⟩
    rintro a ha b hb rfl
    rw [List.map_singleton, List.mem_singleton] at hb
    exact hunknown.2 (hb ▸ ha)
  · rcases List.mem_append.mp hr with hr | hr
    · exact hfresh r hr
    · rw [List.mem_singleton.mp hr]
      exact hunknown.1
  · rcases List.mem_append.mp hr with hr | hr
    · exact hall r hr
    · rw [List.mem_singleton.mp hr]
      exact hpending

theorem ProposalsAt.fileAll {p : Patch rt} (raws : List (NewProposal rt))
    (h : ProposalsAt s p.revision filed u) (hnew : ∀ raw ∈ raws, raw.id ∉ u.proposals)
    (hdistinct : (raws.map NewProposal.id).Nodup) (hpending : ∀ raw ∈ raws, raw.Pending) :
    ProposalsAt s p.revision (filed ++ raws)
      (raws.foldl (fun u raw => createProposal p raw u) u) := by
  induction raws generalizing filed u with
  | nil => simpa using h
  | cons raw raws ih =>
      rw [List.map_cons, List.nodup_cons] at hdistinct
      have hstep := h.file raw (hnew raw List.mem_cons_self) (hpending raw List.mem_cons_self)
      rw [List.foldl_cons, show filed ++ raw :: raws = (filed ++ [raw]) ++ raws by simp]
      refine ih hstep (fun r hr => ?_) hdistinct.2
        (fun r hr => hpending r (List.mem_cons_of_mem raw hr))
      simp only [createProposal, Dict.mem_insert, not_or]
      refine ⟨?_, hnew r (List.mem_cons_of_mem raw hr)⟩
      rintro heq
      exact hdistinct.1 (List.mem_map.mpr ⟨r, hr, heq⟩)

/-- A step that closes a Proposal which was pending before its operation. -/
theorem ProposalsAt.close {revision : Nat} (h : ProposalsAt s revision filed u) (id : String)
    (q closed : Proposal rt) (hq : u.proposals.get? id = some q) (hid : closed.id = q.id)
    (hstatus : closed.status ≠ .pending) (hraised : closed.raisedRev = q.raisedRev)
    (hresolved : closed.resolvedRev = some revision)
    (hopen : ∀ q, s.proposals.get? id = some q → q.status = .pending) (t : GraphState rt)
    (ht : t.proposals = u.proposals.insert q.id closed) : ProposalsAt s revision filed t := by
  obtain ⟨hstored, hkept, hknown, honce, hfresh, hall⟩ := h
  obtain ⟨hqid, hcoherent⟩ := hstored id q hq
  rw [hqid] at ht hid
  refine ⟨fun x r hr => ?_, fun x r hr hp => ?_, fun x => ?_, honce, hfresh, hall⟩
  · rw [ht, Dict.get?_insert] at hr
    split at hr
    next hx =>
      cases hr
      refine ⟨hid.trans hx.symm, ?_, ?_, fun r hr => ?_⟩
      · simp [hstatus, hresolved]
      · rw [hraised]
        exact hcoherent.raised
      · rw [hresolved] at hr
        cases hr
        rw [hraised]
        exact ⟨hcoherent.raised, Nat.le_refl _⟩
    next => exact hstored x r hr
  · have hne : x ≠ id := by
      rintro rfl
      exact hp (hopen r hr)
    rw [ht, Dict.get?_insert, if_neg hne]
    exact hkept x r hr hp
  · rw [ht, Dict.mem_insert, ← hknown]
    constructor
    · rintro (rfl | hx)
      · exact Dict.mem_of_get? hq
      · exact hx
    · exact .inr

theorem resolveProposal_closes (p : Patch rt) (r : ProposalResolution) (u t : GraphState rt)
    (h : resolveProposal p r u = .ok t) :
    ∃ q closed, u.proposals.get? r.id = some q ∧ t.proposals = u.proposals.insert q.id closed ∧
      closed.id = q.id ∧ closed.status ≠ .pending ∧ closed.raisedRev = q.raisedRev ∧
      closed.resolvedRev = some p.revision := by
  simp only [resolveProposal, bind, Except.bind, pure, Except.pure] at h
  cases hq : proposalAt u r.id with
  | error e => simp [hq] at h
  | ok q =>
      simp only [hq, Except.ok.injEq] at h
      rw [← h]
      refine ⟨q, _, (proposalAt_ok u r.id q).mp hq, rfl, rfl, ?_, rfl, rfl⟩
      cases r.status <;> simp [ResolutionStatus.toProposalStatus]

theorem withdrawProposal_closes (p : Patch rt) (w : ProposalWithdrawal) (u t : GraphState rt)
    (h : withdrawProposal p w u = .ok t) :
    ∃ q closed, u.proposals.get? w.id = some q ∧ t.proposals = u.proposals.insert q.id closed ∧
      closed.id = q.id ∧ closed.status ≠ .pending ∧ closed.raisedRev = q.raisedRev ∧
      closed.resolvedRev = some p.revision := by
  simp only [withdrawProposal, bind, Except.bind, pure, Except.pure] at h
  cases hq : proposalAt u w.id with
  | error e => simp [hq] at h
  | ok q =>
      simp only [hq, Except.ok.injEq] at h
      rw [← h]
      exact ⟨q, _, (proposalAt_ok u w.id q).mp hq, rfl, rfl, by simp, rfl, rfl⟩

/-- A run of closings, each of a Proposal that was pending before the operation. -/
theorem ProposalsAt.closeAll {α : Type} {p : Patch rt}
    (f : α → GraphState rt → Except String (GraphState rt)) (id : α → String) (as : List α)
    (closes : ∀ a u t, f a u = .ok t → ∃ q closed, u.proposals.get? (id a) = some q ∧
      t.proposals = u.proposals.insert q.id closed ∧ closed.id = q.id ∧
      closed.status ≠ .pending ∧ closed.raisedRev = q.raisedRev ∧
      closed.resolvedRev = some p.revision)
    (h : ProposalsAt s p.revision filed u)
    (hopen : ∀ a ∈ as, ∃ q, u.proposals.get? (id a) = some q ∧ q.status = .pending)
    (t : GraphState rt) (hrun : Steps.run f as u = .ok t) : ProposalsAt s p.revision filed t := by
  have pending : ∀ a ∈ as, ∀ q, s.proposals.get? (id a) = some q → q.status = .pending := by
    intro a ha q hq
    by_contra hp
    obtain ⟨q', hq', hp'⟩ := hopen a ha
    rw [h.kept (id a) q hq hp] at hq'
    cases hq'
    exact hp hp'
  refine Steps.run_invariant f (ProposalsAt s p.revision filed) as (fun a ha v w hv hw => ?_) u t h
    hrun
  obtain ⟨q, closed, hq, hw, hid, hstatus, hraised, hresolved⟩ := closes a v w hw
  exact hv.close (id a) q closed hq hid hstatus hraised hresolved (pending a ha) w hw

end Step

section Judged

theorem pending_of_accepted (ctx : OpContext rt) (verb id : String)
    (h : refused (pendingProposalIssues ctx verb id) = false) :
    ∃ q, ctx.state.proposals.get? id = some q ∧ q.status = .pending := by
  unfold pendingProposalIssues at h
  cases hq : ctx.state.proposals.get? id with
  | none => simp [hq] at h
  | some q => exact ⟨q, rfl, by simpa [hq] using h⟩

/-- Accepted filings are new to the graph and to each other. -/
theorem filings_new (ctx : OpContext rt) (hmode : ctx.mode = .admission) (seen : List String)
    (raws : List (NewProposal rt)) (h : refused (createProposalsIssues ctx seen raws) = false) :
    (∀ raw ∈ raws, raw.id ∉ ctx.state.proposals ∧ raw.id ∉ seen) ∧
      (raws.map NewProposal.id).Nodup := by
  induction raws generalizing seen with
  | nil => simp
  | cons raw raws ih =>
      simp only [createProposalsIssues, refused_append, Bool.or_eq_false_iff, refused_rejectIf,
        OpContext.admission, hmode, decide_true, Bool.true_and, decide_eq_false_iff_not] at h
      obtain ⟨⟨hseen, hissues⟩, hrest⟩ := h
      obtain ⟨hnew, hdistinct⟩ := ih (raw.proposal.id :: seen) hrest
      have hhead : raw.id ∉ ctx.state.proposals := by
        intro hmem
        change raw.proposal.id ∈ ctx.state.proposals at hmem
        simp [proposalIssues, hmem] at hissues
      constructor
      · intro r hr
        rcases List.mem_cons.mp hr with rfl | hr
        · exact ⟨hhead, hseen⟩
        · exact ⟨(hnew r hr).1, fun hs => (hnew r hr).2 (List.mem_cons_of_mem _ hs)⟩
      · rw [List.map_cons, List.nodup_cons]
        refine ⟨fun hmem => ?_, hdistinct⟩
        obtain ⟨r, hr, heq⟩ := List.mem_map.mp hmem
        refine (hnew r hr).2 ?_
        rw [heq]
        exact List.mem_cons_self

/-- One accepted operation. -/
theorem ProposalsAt.step (ctx : OpContext rt) (hmode : ctx.mode = .admission) (p : Patch rt)
    (op : GraphOperation rt) (hpending : ∀ raw ∈ op.filings, raw.Pending) (s u t : GraphState rt)
    (ha : Alike ctx.state u) (hr : refused (patchRules ctx op) = false)
    (happ : applyOp p false op u = .ok t) (filed : List (NewProposal rt))
    (h : ProposalsAt s p.revision filed u) : ProposalsAt s p.revision (filed ++ op.filings) t := by
  cases op with
  | createProposals raws =>
      simp only [patchRules, refused_append, Bool.or_eq_false_iff] at hr
      obtain ⟨hnew, hdistinct⟩ := filings_new ctx hmode [] raws hr.1
      cases happ
      refine h.fileAll raws (fun raw hraw => ?_) hdistinct hpending
      rw [← ha.proposals]
      exact (hnew raw hraw).1
  | resolveProposals resolutions =>
      simp only [patchRules, effectRules, rulesOf, structuralIssues, refused_append,
        Bool.or_eq_false_iff, not_refused_flatMap] at hr
      simp only [GraphOperation.filings, List.append_nil]
      refine h.closeAll (resolveProposal p) (·.id) resolutions (resolveProposal_closes p)
        (fun r hmem => ?_) t happ
      rw [← ha.proposals]
      exact pending_of_accepted ctx "resolve" r.id (hr.1 r hmem)
  | withdrawProposals withdrawals =>
      simp only [patchRules, effectRules, rulesOf, structuralIssues, refused_append,
        Bool.or_eq_false_iff, not_refused_flatMap] at hr
      simp only [GraphOperation.filings, List.append_nil]
      refine h.closeAll (withdrawProposal p) (·.id) withdrawals (withdrawProposal_closes p)
        (fun w hmem => ?_) t happ
      rw [← ha.proposals]
      exact pending_of_accepted ctx "withdraw" w.id (hr.1 w hmem)
  | _ =>
      have hsame := proposals_applyOp_other p false _ rfl u t happ
      simp only [GraphOperation.filings, List.append_nil]
      exact h.congr t hsame

/-- Bookkeeping files every Proposal as pending. -/
theorem pending_prepareOperations (s : GraphState rt) (p : Patch rt)
    (ops : List (GraphOperation rt)) (spellings : Dict String String) (op : GraphOperation rt)
    (h : op ∈ prepareOperations s p ops spellings) (raw : NewProposal rt)
    (hraw : raw ∈ op.filings) : raw.Pending := by
  induction ops generalizing spellings with
  | nil => cases h
  | cons o ops ih =>
      cases o with
      | createProposals proposals =>
          rcases List.mem_cons.mp h with rfl | h
          · obtain ⟨r, -, rfl⟩ := List.mem_map.mp hraw
            exact ⟨rfl, rfl⟩
          · exact ih _ h
      | _ =>
          rcases List.mem_cons.mp h with rfl | h
          · cases hraw
          · exact ih _ h

end Judged

section Appends

theorem filings_finalized (ops finals : List (GraphOperation rt))
    (h : List.Forall₂ Finalized ops finals) :
    (finals.flatMap GraphOperation.filings).map NewProposal.id =
        (ops.flatMap GraphOperation.filings).map NewProposal.id ∧
      ((∀ raw ∈ ops.flatMap GraphOperation.filings, raw.Pending) →
        ∀ raw ∈ finals.flatMap GraphOperation.filings, raw.Pending) := by
  induction h with
  | nil => exact ⟨rfl, fun h => h⟩
  | @cons op final _ _ hop _ ih =>
      obtain ⟨staged, rfl⟩ := hop
      have same : ∀ raw : NewProposal rt, (finalizeProposal staged raw).id = raw.id ∧
          (raw.Pending → (finalizeProposal staged raw).Pending) := by
        intro raw
        unfold finalizeProposal
        split
        · exact ⟨rfl, id⟩
        · exact ⟨rfl, id⟩
      have hhead : (finalizeOperation staged op).filings =
          op.filings.map (finalizeProposal staged) := by cases op <;> rfl
      simp only [List.flatMap_cons, List.map_append, ih.1, hhead, List.map_map]
      constructor
      · congr 1
        refine List.map_congr_left fun raw _ => ?_
        exact (same raw).1
      · intro hall raw hraw
        rcases List.mem_append.mp hraw with hraw | hraw
        · obtain ⟨r, hr, rfl⟩ := List.mem_map.mp hraw
          exact (same r).2 (hall r (List.mem_append_left _ hr))
        · exact ih.2 (fun r hr => hall r (List.mem_append_right _ hr)) raw hraw

/-- The Proposals of a graph at its own revision. -/
def GraphState.ProposalsCoherent (s : GraphState rt) : Prop :=
  ∀ id q, s.proposals.get? id = some q → q.id = id ∧ q.CoherentAt s.revision

theorem proposalsAt_source (project : Project rt) (revision : Nat) (raws : List (Patch rt))
    (source p : Patch rt) (happ : source.applies = p.applies) (hplain : source.transition = none)
    (here s u v : GraphState rt) (ha : Alike here u)
    (hj : Admitted project revision raws here source)
    (hrun : Steps.run (applyOp p false) source.ops u = .ok v) (filed : List (NewProposal rt))
    (h : ProposalsAt s p.revision filed u) :
    ProposalsAt s p.revision (filed ++ source.ops.flatMap GraphOperation.filings) v := by
  obtain ⟨raw, -, hsource, -, hissues⟩ := hj.gates hplain
  obtain ⟨filed', hat, hfiled⟩ := patchIssues_run here source _ _ hissues p happ hplain
    (fun rest w => ∃ filed', ProposalsAt s p.revision filed' w ∧
      filed' ++ rest.flatMap GraphOperation.filings =
        filed ++ source.ops.flatMap GraphOperation.filings)
    (by
      rintro op rest ctx w x hop ⟨a, r, rfl⟩ haw hr happlied ⟨filed', hat, hfiled⟩
      refine ⟨filed' ++ op.filings, ?_, ?_⟩
      · refine hat.step _ (mode_admissionContext project here source) p op (fun raw hraw => ?_) s w
          x haw hr happlied
        rw [hsource] at hop
        exact pending_prepareOperations _ _ _ _ op hop raw hraw
      · rw [List.append_assoc, ← List.flatMap_cons]
        exact hfiled)
    u v ha hrun ⟨filed, h, rfl⟩
  rw [List.flatMap_nil, List.append_nil] at hfiled
  rw [← hfiled]
  exact hat

theorem proposals_marks (p : Patch rt) (ops : List (GraphOperation rt)) (w : GraphState rt)
    (hmarks : ∀ op ∈ ops, op.MarksGuidance w) (s t : GraphState rt)
    (h : Steps.run (applyOp p true) ops s = .ok t) : t.proposals = s.proposals := by
  refine Steps.run_constant _ (·.proposals) ops (fun op hop s t hst => ?_) s t h
  obtain ⟨u, rfl, -⟩ := hmarks op hop
  exact proposals_applyOp_other p true _ rfl s t hst

/-- What one committed append does to the Proposals. -/
theorem proposals_append (project : Project rt) (s : GraphState rt) (revision : Nat)
    (raws : List (Patch rt)) (sources : AdmittedSources rt) (preHead : Option GraphHeadRef)
    (prepared : PreparedTransition rt)
    (hgates : admitSources project s.revision revision raws s = .ok sources)
    (hprepared : prepareValidated s sources.patches preHead = .ok prepared)
    (hs : s.ProposalsCoherent) :
    ProposalsAt s prepared.graph.revision (prepared.patch.ops.flatMap GraphOperation.filings)
      prepared.graph := by
  obtain ⟨admitted, generated, u, v, hrun⟩ :=
    appended_run project s revision raws sources preHead _ prepared hgates hprepared
  have hstart : ProposalsAt s prepared.patch.revision [] s := by
    refine ⟨fun id q hq => ⟨(hs id q hq).1, (hs id q hq).2.mono (Nat.le_of_lt hrun.ahead)⟩,
      fun _ _ hq _ => hq, fun id => by simp, List.nodup_nil, ?_, ?_⟩ <;>
    · intro raw hraw
      cases hraw
  obtain ⟨filed, hat, hfiled⟩ := hrun.judged.invariant
    (fun rest w => ∃ filed, ProposalsAt s prepared.patch.revision filed w ∧
      filed ++ (rest.flatMap (·.ops)).flatMap GraphOperation.filings =
        (admitted.flatMap (·.ops)).flatMap GraphOperation.filings)
    (fun here w x source rest happ hplain ha hj hsource ⟨filed, hat, hfiled⟩ => by
      refine ⟨_, proposalsAt_source project revision raws source prepared.patch happ hplain here s w
        x ha hj hsource filed hat, ?_⟩
      rw [← hfiled, List.flatMap_cons, List.flatMap_append, List.append_assoc])
    ⟨[], hstart, rfl⟩
  rw [List.flatMap_nil, List.flatMap_nil, List.append_nil] at hfiled
  subst hfiled
  obtain ⟨finals, hfinals, hops⟩ := hrun.finalized
  obtain ⟨hids, hpending⟩ := filings_finalized _ _ hfinals
  have hquiet : generated.flatMap GraphOperation.filings = [] := by
    rw [List.flatMap_eq_nil_iff]
    intro op hop
    obtain ⟨w, rfl, -⟩ := hrun.marks op hop
    rfl
  have hproposals : prepared.graph.proposals = u.proposals := by
    rw [hrun.graph]
    exact (relayer_alike _ v).proposals.trans (proposals_marks _ _ u hrun.marks u v hrun.marked)
  have hrevision : prepared.graph.revision = prepared.patch.revision := by
    have hu := revision_run _ false _ s u hrun.judged.run_sources
    have hv := revision_run _ true _ u v hrun.marked
    rw [hrun.graph]
    show max (relayer _ v).revision _ = _
    rw [(relayer_alike _ v).revision, hv, hu]
    exact Nat.max_eq_right (Nat.le_of_lt hrun.ahead)
  rw [hops, List.flatMap_append, hquiet, List.append_nil, hrevision]
  refine ⟨?_, ?_, ?_, by rw [hids]; exact hat.once, fun raw hraw => ?_, hpending hat.pending⟩
  · rw [hproposals]
    exact hat.stored
  · rw [hproposals]
    exact hat.kept
  · rw [hproposals, hids]
    exact hat.known
  · have hmem : raw.id ∈ (finals.flatMap GraphOperation.filings).map NewProposal.id :=
      List.mem_map.mpr ⟨raw, hraw, rfl⟩
    rw [hids] at hmem
    obtain ⟨r, hr, hid⟩ := List.mem_map.mp hmem
    rw [← hid]
    exact hat.fresh r hr

/-- What one step of a run does to the Proposals. -/
theorem proposals_step (project : Project rt) (s t : GraphState rt)
    (ops : List (GraphOperation rt)) (h : AppendStep project s ops t) (hs : s.ProposalsCoherent) :
    ProposalsAt s t.revision (ops.flatMap GraphOperation.filings) t := by
  have idle : ∀ t : GraphState rt, t.proposals = s.proposals → s.revision ≤ t.revision →
      ProposalsAt s t.revision [] t := by
    intro t hsame hle
    refine ⟨?_, ?_, fun id => by simp [hsame], List.nodup_nil, ?_, ?_⟩
    · rw [hsame]
      exact fun id q hq => ⟨(hs id q hq).1, (hs id q hq).2.mono hle⟩
    · rw [hsame]
      exact fun _ _ hq _ => hq
    · intro raw hraw
      cases hraw
    · intro raw hraw
      cases hraw
  cases h with
  | append revision raws sources preHead prepared messages gates transition =>
      exact (proposals_append project s revision raws sources preHead prepared gates transition
        hs).congr _ rfl
  | identity t p messages empty applied =>
      rw [applyValidPatch_empty s t p empty applied]
      exact idle _ rfl (Nat.le_max_left _ _)
  | skip p => exact idle _ rfl (Nat.le_max_left _ _)

theorem ProposalsAt.coherent {s t : GraphState rt} {filed : List (NewProposal rt)}
    (h : ProposalsAt s t.revision filed t) : t.ProposalsCoherent := h.stored

/-- The Proposals over a run: `ProposalsAt` composes. -/
theorem proposals_run (project : Project rt) (s t : GraphState rt) (ops : List (GraphOperation rt))
    (h : AppendRun project s ops t) (hs : s.ProposalsCoherent) :
    ProposalsAt s t.revision (ops.flatMap GraphOperation.filings) t := by
  induction h with
  | refl =>
      refine ⟨hs, fun _ _ hq _ => hq, fun id => by simp, List.nodup_nil, ?_, ?_⟩ <;>
      · intro raw hraw
        cases hraw
  | step ops more t u before last ih =>
      have hstep := proposals_step project t u more last ih.coherent
      rw [List.flatMap_append]
      refine ⟨hstep.stored, fun id q hq hp => ?_, fun id => ?_, ?_, fun raw hraw => ?_,
        fun raw hraw => ?_⟩
      · exact hstep.kept id q (ih.kept id q hq hp) hp
      · rw [hstep.known, ih.known, List.map_append, List.mem_append, or_assoc]
      · rw [List.map_append, List.nodup_append]
        refine ⟨ih.once, hstep.once, ?_⟩
        rintro a ha b hb rfl
        obtain ⟨raw, hraw, rfl⟩ := List.mem_map.mp hb
        exact hstep.fresh raw hraw ((ih.known _).mpr (.inr ha))
      · rcases List.mem_append.mp hraw with hraw | hraw
        · exact ih.fresh raw hraw
        · exact fun hmem => hstep.fresh raw hraw ((ih.known _).mpr (.inl hmem))
      · rcases List.mem_append.mp hraw with hraw | hraw
        · exact ih.pending raw hraw
        · exact hstep.pending raw hraw

/-- In every run of appends from an empty project each Proposal id is filed exactly once and
as pending, every record is coherent with the revision, and a record that is no longer
pending is the same in every later graph. -/
theorem proposalLifeCycle_of_run (project : Project rt) (scope : List String)
    (ops : List (GraphOperation rt)) (s : GraphState rt)
    (h : AppendRun project (.initial rt scope) ops s) :
    ((ops.flatMap GraphOperation.filings).map NewProposal.id).Nodup ∧
      (∀ id, id ∈ s.proposals ↔ id ∈ (ops.flatMap GraphOperation.filings).map NewProposal.id) ∧
      (∀ raw ∈ ops.flatMap GraphOperation.filings, raw.Pending) ∧
      (∀ id q, s.proposals.get? id = some q → q.CoherentAt s.revision) ∧
      ∀ more t, AppendRun project s more t → ∀ id q, s.proposals.get? id = some q →
        q.status ≠ .pending → t.proposals.get? id = some q := by
  have hat := proposals_run project _ s ops h fun id q hq => by cases hq
  refine ⟨hat.once, fun id => ?_, hat.pending, fun id q hq => (hat.stored id q hq).2,
    fun more t hrun id q hq hp => ?_⟩
  · rw [hat.known]
    exact or_iff_right (Dict.not_mem_empty id)
  · exact (proposals_run project s t more hrun hat.coherent).kept id q hq hp

/-- A new wording of a question as an agent asks for it, with a resolution of its own. -/
def rewordingDraft (id target : String) : NewProposal .plain where
  proposal :=
    { id := id
      title := "Reword"
      card :=
        { situationCold := "Cold"
          whyHumanNow := "Now"
          consequences := "None"
          decisionNeeded := "Accept" }
      ops :=
        [ .contentChange false
            [{ id := target, changes := .ofList [("question", .str "Reworded")] }] ]
      status := .approved
      resolvedRev := some 9 }

/-- Two questions, a Proposal about one of them, and its withdrawal. -/
def rewordingBatches : List (List (Patch .plain)) :=
  [ [relatedQuestions], [firstPatch [.createProposals [rewordingDraft "prop/a" "rq/a"]]],
    [firstPatch [.withdrawProposals [{ id := "prop/a", reason := "Stale" }]]] ]

theorem proposalLifeCycle_of_rewording :
    ∃ ops s, AppendRun Project.solo (.initial .plain ["repo"]) ops s ∧
      (s.proposals.get? "prop/a").map (fun q => (q.status, q.raisedRev, q.resolvedRev)) =
        some (.withdrawn, 2, some 3) ∧
      ((ops.flatMap GraphOperation.filings).map NewProposal.id).Nodup ∧
      ∀ id q, s.proposals.get? id = some q → q.CoherentAt s.revision := by
  have hrun : (appendAll Project.solo rewordingBatches [] (.initial .plain ["repo"])).any (fun r =>
      (r.2.proposals.get? "prop/a").map (fun q => (q.status, q.raisedRev, q.resolvedRev)) =
        some (.withdrawn, 2, some 3)) = true := by decide +kernel
  obtain ⟨⟨ops, s⟩, hall, hwithdrawn⟩ := (Option.any_eq_true _ _).mp hrun
  have happended := appendRun_appendAll _ _ [] ops _ _ s .refl hall
  obtain ⟨honce, -, -, hcoherent, -⟩ := proposalLifeCycle_of_run Project.solo ["repo"] ops s happended
  exact ⟨ops, s, happended, of_decide_eq_true hwithdrawn, honce, hcoherent⟩

end Appends

end RcpGraph
