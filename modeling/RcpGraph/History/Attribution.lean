import RcpGraph.History.Trace
import RcpGraph.History.Shared

/-!
Who wrote an accepted history and how its revisions run. Patches with operations have
an author, no node was updated after the revision of the graph, and a log with
consecutive revisions replays the patches up to the revision it ends at.
-/

namespace RcpGraph

variable {rt : Runtime}

section Dates

/-- No node was updated after a revision. -/
def Dated (r : Nat) (s : GraphState rt) : Prop :=
  ∀ id n, s.nodes.get? id = some n → n.updatedRev ≤ r

/-- Every node is one of an earlier graph or carries the stamp of the revision. -/
def Stamped (r : Nat) (s t : GraphState rt) : Prop :=
  ∀ id n, t.nodes.get? id = some n → s.nodes.get? id = some n ∨ n.updatedRev = r

theorem Stamped.of_nodes {r : Nat} {s t : GraphState rt} (h : t.nodes = s.nodes) :
    Stamped r s t := by
  intro id n hn
  rw [h] at hn
  exact .inl hn

theorem Stamped.trans {r : Nat} {s t u : GraphState rt} (h : Stamped r s t)
    (h' : Stamped r t u) : Stamped r s u := by
  intro id n hn
  rcases h' id n hn with ht | hstamp
  · exact h id n ht
  · exact .inr hstamp

theorem Stamped.insert {r : Nat} {s t : GraphState rt} (id : String) (m : ProjectNode rt)
    (hm : m.updatedRev = r) (ht : t.nodes = s.nodes.insert id m) : Stamped r s t := by
  intro x n hn
  rw [ht, Dict.get?_insert] at hn
  split at hn
  next =>
    cases hn
    exact .inr hm
  next => exact .inl hn

theorem Stamped.run {r : Nat} {α : Type} {f : α → GraphState rt → Except String (GraphState rt)}
    (as : List α) (step : ∀ a ∈ as, ∀ s t, f a s = .ok t → Stamped r s t) (s t : GraphState rt)
    (h : Steps.run f as s = .ok t) : Stamped r s t :=
  Steps.run_invariant f (Stamped r s) as
    (fun a ha u v hu hstep => hu.trans (step a ha u v hstep)) s t (.of_nodes rfl) h

theorem Stamped.dated {r bound : Nat} {s t : GraphState rt} (h : Stamped r s t) (hr : r ≤ bound)
    (hs : Dated bound s) : Dated bound t := by
  intro id n hn
  rcases h id n hn with hkept | hstamp
  · exact hs id n hkept
  · exact hstamp.trans_le hr

variable (p : Patch rt)

theorem stamped_retireNode (id : String) (cause : Option BeliefCause) (s t : GraphState rt)
    (h : retireNode p id cause s = .ok t) : Stamped p.revision s t := by
  obtain ⟨n, m, hn, hm, rfl⟩ := retireNode_ok p id cause s t h
  obtain ⟨-, -, -, -, -, -, hrev⟩ := ProjectNode.revise_ok _ _ _ _ _ _ hm
  exact .insert id m hrev (by simp)

theorem stamped_applyOp (generated : Bool) (op : GraphOperation rt) (s t : GraphState rt)
    (h : applyOp p generated op s = .ok t) : Stamped p.revision s t := by
  cases op with
  | createNodes nodes =>
      cases h
      intro x n hn
      rw [get?_createNodes] at hn
      split at hn
      next raw _ =>
        cases hn
        exact .inr rfl
      next => exact .inl hn
  | updateNodes updates =>
      refine Stamped.run updates (fun u _ s t h => ?_) s t h
      obtain ⟨n, m, hn, -, hm, rfl⟩ := updateNode_ok p generated u s t h
      obtain ⟨-, -, -, -, -, -, hrev⟩ := ProjectNode.revise_ok _ _ _ _ _ _ hm
      exact .insert n.id m hrev (by simp)
  | supersedeNodes items =>
      refine Stamped.run items (fun i _ s t h => ?_) s t h
      obtain ⟨u, hu, rfl⟩ := supersedeNode_ok p i s t h
      have hstamped := stamped_retireNode p i.id i.cause s u hu
      cases i.edge? p.revision <;> exact hstamped
  | mergeNodes merges =>
      refine Stamped.run merges (fun m _ s t h => ?_) s t h
      obtain ⟨u, hu, rfl⟩ := mergeNode_ok p m s t h
      exact stamped_retireNode p m.duplicate m.cause s u hu
  | setStanding id standing =>
      obtain ⟨n, hn, rfl⟩ := setStanding_ok p.revision id standing s t h
      exact .insert n.id (n.withStanding standing p.revision) rfl rfl
  | removeNodes ids =>
      cases h
      intro x n hn
      simp only [removeNodes, Dict.get?_filter] at hn
      exact .inl (Option.filter_eq_some_iff.mp hn).1
  | _ => exact .of_nodes (nodes_applyOp_other p generated _ rfl s t h)

end Dates

section Run

theorem applied_run (p : Patch rt) (s t : GraphState rt) (h : applyValidPatch s p = .ok t) :
    t.revision = max s.revision p.revision ∧
      ∀ r, p.revision ≤ r → Dated r s → Dated r t := by
  obtain ⟨u, hrun, rfl⟩ := applyPatch_ok p _ s t h
  have hframe := Steps.run_constant _ GraphState.frame _
    (fun e _ s t h => frame_applyOp p _ e.1 s t h) s u hrun
  have hrevision : u.revision = s.revision := congrArg Prod.fst hframe
  have hrelayer : (relayer (p.ops.flatMap createdEdgeIds) u).revision = u.revision := by
    refine foldl_constant _ (·.revision) (fun id s => ?_) _ u
    unfold relayerEdge
    split
    · rfl
    · simp only
      split <;> rfl
  constructor
  · show max (relayer _ u).revision p.revision = _
    rw [hrelayer, hrevision]
  · intro r hp hs
    have hu := (Stamped.run _ (fun e _ s t h => stamped_applyOp p _ e.1 s t h) s u hrun).dated hp hs
    intro id n hn
    have hnodes := (relayer_alike (p.ops.flatMap createdEdgeIds) u).nodes
    apply hu id n
    rw [← hnodes]
    exact hn

/-- A patch with operations has steps when it is applied. -/
theorem steps_ne_nil (p : Patch rt) (s t : GraphState rt) (h : applyValidPatch s p = .ok t)
    (hops : p.ops ≠ []) : p.steps s ≠ [] := by
  obtain ⟨u, hrun, -⟩ := applyPatch_ok p _ s t h
  rw [Patch.steps]
  cases hzip : p.ops.zipIdx with
  | nil => exact absurd (by simpa using hzip) hops
  | cons x xs =>
      rw [hzip] at hrun
      obtain ⟨v, hv, -⟩ := (Steps.run_cons_ok _ _ _ _ _).mp hrun
      simp only at hv
      rw [opSteps, hv]
      exact List.cons_ne_nil _ _

/-- What holds of the patches and the graph of a replay. -/
structure Attributed (ps : List (Patch rt)) (s : GraphState rt) : Prop where
  author : ∀ p ∈ ps, p.ops ≠ [] → p.author.isSome
  revision : ∀ p ∈ ps, p.revision ≤ s.revision
  dated : Dated s.revision s

theorem ReplayRun.attributed {ps : List (Patch rt)} {steps : List (OpStep rt)} {s : GraphState rt}
    (h : ReplayRun ps steps s) : Attributed ps s := by
  induction h with
  | initial scope =>
      refine ⟨by simp, by simp, ?_⟩
      intro id n hn
      cases hn
  | accept ps steps s t p vc messages before valid applied ih =>
      obtain ⟨hrevision, hdated⟩ := applied_run p s t applied
      obtain ⟨hkeyed, -, -⟩ := before.sound
      obtain ⟨hsound, -⟩ := steps_sound s t p vc {} hkeyed valid applied
      refine ⟨?_, ?_, ?_⟩
      · intro q hq hops
        rcases List.mem_append.mp hq with hq | hq
        · exact ih.author q hq hops
        · rw [List.mem_singleton] at hq
          subst hq
          obtain ⟨st, hst⟩ := List.exists_mem_of_ne_nil _ (steps_ne_nil q s t applied hops)
          obtain ⟨hsound, hpatch⟩ := hsound st hst
          rw [← hpatch, hsound.author, Option.isSome_some]
      · intro q hq
        show q.revision ≤ t.revision
        rcases List.mem_append.mp hq with hq | hq
        · have := ih.revision q hq
          omega
        · rw [List.mem_singleton] at hq
          subst hq
          omega
      · have hs : Dated t.revision s := fun id n hn => (ih.dated id n hn).trans (by omega)
        exact hdated t.revision (by omega) hs
  | skip ps steps s p before ih =>
      refine ⟨ih.author, fun q hq => ?_, fun id n hn => ?_⟩
      · exact (ih.revision q hq).trans (le_max_left _ _)
      · exact (ih.dated id n hn).trans (le_max_left _ _)

/-- The steps of a replay belong to its patches. -/
theorem ReplayRun.patch_mem {ps : List (Patch rt)} {steps : List (OpStep rt)} {s : GraphState rt}
    (h : ReplayRun ps steps s) : ∀ st ∈ steps, st.patch ∈ ps := by
  induction h with
  | initial scope => intro st hst; cases hst
  | accept ps steps s t p vc messages before valid applied ih =>
      obtain ⟨hkeyed, -, -⟩ := before.sound
      obtain ⟨hsound, -⟩ := steps_sound s t p vc {} hkeyed valid applied
      intro st hst
      rcases List.mem_append.mp hst with hst | hst
      · exact List.mem_append_left _ (ih st hst)
      · rw [(hsound st hst).2]
        exact List.mem_append_right _ (List.mem_singleton_self p)
  | skip ps steps s p before ih => exact ih

end Run

section Log

/-- A log whose patches carry consecutive revisions. -/
def Numbered : Nat → List (Patch rt) → Prop
  | _, [] => True
  | n, p :: ps => p.revision = n + 1 ∧ Numbered (n + 1) ps

theorem Numbered.lt {n : Nat} {ps : List (Patch rt)} (h : Numbered n ps) :
    ∀ p ∈ ps, n < p.revision ∧ p.revision ≤ n + ps.length := by
  induction ps generalizing n with
  | nil => intro p hp; cases hp
  | cons p ps ih =>
      intro q hq
      obtain ⟨hp, hrest⟩ := h
      rcases List.mem_cons.mp hq with rfl | hq
      · rw [List.length_cons]
        omega
      · have := ih hrest q hq
        rw [List.length_cons]
        omega

theorem Numbered.pairwise {n : Nat} {ps : List (Patch rt)} (h : Numbered n ps) :
    ps.Pairwise fun p q => p.revision < q.revision := by
  induction ps generalizing n with
  | nil => exact .nil
  | cons p ps ih =>
      obtain ⟨hp, hrest⟩ := h
      refine .cons (fun q hq => ?_) (ih hrest)
      have := (hrest.lt q hq).1
      omega

/-- The patches of a log that replay took in. -/
def takenIn (ps : List (Patch rt)) (r : MaterializationResult rt) : List (Patch rt) :=
  ps.filter fun p => decide (p.admission ≠ .rejected ∧ p.revision ≤ r.state.revision)

/-- The report of the patch that stops replay rejects it. -/
theorem rejected_of_failed (vc : ValidationContext rt) (s t : GraphState rt) (p : Patch rt)
    (report : List ValidationMessage) (h : replayPatch s p vc = .failed report t) :
    rejected report = true := by
  unfold replayPatch at h
  split at h
  next => cases h
  next =>
    simp only at h
    split at h
    next failure hfind =>
      cases h
      rw [rejected, List.any_eq_true]
      exact ⟨failure, List.mem_of_find?_eq_some hfind, by simpa using List.find?_some hfind⟩
    next =>
      split at h
      next =>
        cases h
        simp [rejected]
      next => cases h

namespace MaterializationResult

variable (r : MaterializationResult rt) (p : Patch rt)

def onReceipt : MaterializationResult rt :=
  { r with
    state := r.state.skip p
    reports := r.reports.insert p.revision p.admissionMessages }

def onAccepted (vc : ValidationContext rt) (t : GraphState rt) : MaterializationResult rt where
  state := t.record p.admissionMessages
  reports := r.reports.insert p.revision (replayReport r.state p vc)
  processedCursors := r.processedCursors.update (currentCursors p.processedCursors)

def onFailed (report : List ValidationMessage) (code message : String) :
    MaterializationResult rt :=
  { r with
    state := r.state.degrade p code message
    reports := r.reports.insert p.revision report }

end MaterializationResult

/-- What replay makes of the first patch of a log. -/
theorem materializeFrom_cons (vc : ValidationContext rt) (p : Patch rt) (ps : List (Patch rt))
    (r : MaterializationResult rt) :
    (p.admission = .rejected ∧
      materializeFrom vc (p :: ps) r = materializeFrom vc ps (r.onReceipt p)) ∨
    (∃ t, p.admission ≠ .rejected ∧ rejected (replayReport r.state p vc) = false ∧
      applyValidPatch r.state p = .ok t ∧
      materializeFrom vc (p :: ps) r = materializeFrom vc ps (r.onAccepted p vc t)) ∨
    ∃ report code message, rejected report = true ∧
      materializeFrom vc (p :: ps) r = r.onFailed p report code message := by
  rw [materializeFrom]
  rcases replayPatch_cases vc r.state p with ⟨hreceipt, hstep⟩ |
    ⟨t, hadmitted, hvalid, happlied, hstep⟩ | ⟨report, code, message, -, hstep⟩
  · simp only [hstep]
    exact .inl ⟨hreceipt, rfl⟩
  · simp only [hstep]
    exact .inr (.inl ⟨t, hadmitted, hvalid, happlied, rfl⟩)
  · have hbad := rejected_of_failed vc _ _ p report hstep
    simp only [hstep]
    exact .inr (.inr ⟨report, code, message, hbad, rfl⟩)

theorem revision_onReceipt (r : MaterializationResult rt) (p : Patch rt)
    (h : p.revision = r.state.revision + 1) :
    (r.onReceipt p).state.revision = r.state.revision + 1 := by
  show max r.state.revision p.revision = _
  omega

theorem revision_onAccepted (r : MaterializationResult rt) (p : Patch rt)
    (vc : ValidationContext rt) (t : GraphState rt) (h : p.revision = r.state.revision + 1)
    (happlied : applyValidPatch r.state p = .ok t) :
    (r.onAccepted p vc t).state.revision = r.state.revision + 1 := by
  show t.revision = _
  rw [(applied_run p r.state t happlied).1]
  omega

/-- Replay ends between the revision it started from and the last one of the log. -/
theorem revision_materialized (vc : ValidationContext rt) (ps : List (Patch rt))
    (r : MaterializationResult rt) (h : Numbered r.state.revision ps) :
    r.state.revision ≤ (materializeFrom vc ps r).state.revision ∧
      (materializeFrom vc ps r).state.revision ≤ r.state.revision + ps.length := by
  induction ps generalizing r with
  | nil => simp [materializeFrom]
  | cons p ps ih =>
      obtain ⟨hp, hrest⟩ := h
      rw [List.length_cons]
      rcases materializeFrom_cons vc p ps r with ⟨-, hcons⟩ | ⟨t, -, -, happlied, hcons⟩ |
        ⟨report, code, message, -, hcons⟩
      · have hrevision := revision_onReceipt r p hp
        have hbounds := ih (r.onReceipt p) (by rw [hrevision]; exact hrest)
        rw [hcons]
        omega
      · have hrevision := revision_onAccepted r p vc t hp happlied
        have hbounds := ih (r.onAccepted p vc t) (by rw [hrevision]; exact hrest)
        rw [hcons]
        omega
      · rw [hcons]
        exact ⟨Nat.le_refl r.state.revision, Nat.le_add_right r.state.revision _⟩

/-- Reports of earlier revisions stay. -/
theorem reports_kept (vc : ValidationContext rt) (n : Nat) (ps : List (Patch rt))
    (r : MaterializationResult rt) (h : Numbered n ps) (k : Nat) (hk : k ≤ n) :
    (materializeFrom vc ps r).reports.get? k = r.reports.get? k := by
  induction ps generalizing n r with
  | nil => rfl
  | cons p ps ih =>
      obtain ⟨hp, hrest⟩ := h
      have hne : k ≠ p.revision := by omega
      have hinsert : ∀ report, (r.reports.insert p.revision report).get? k = r.reports.get? k := by
        intro report
        rw [Dict.get?_insert, if_neg hne]
      rcases materializeFrom_cons vc p ps r with ⟨-, hcons⟩ | ⟨t, -, -, -, hcons⟩ |
        ⟨report, code, message, -, hcons⟩
      · rw [hcons, ih (n + 1) _ hrest (by omega)]
        exact hinsert _
      · rw [hcons, ih (n + 1) _ hrest (by omega)]
        exact hinsert _
      · rw [hcons]
        exact hinsert _

/-- A replayed log: a replay of the patches it took in, up to how it ended. -/
theorem materialized_run (vc : ValidationContext rt) (ps qs : List (Patch rt))
    (steps : List (OpStep rt)) (r : MaterializationResult rt) (h : Numbered r.state.revision ps)
    (hrun : ReplayRun qs steps r.state) :
    ∃ steps' t, ReplayRun (qs ++ takenIn ps (materializeFrom vc ps r)) steps' t ∧
      t.AgreesButFailure (materializeFrom vc ps r).state := by
  induction ps generalizing qs steps r with
  | nil =>
      refine ⟨steps, r.state, ?_, rfl⟩
      simpa [takenIn] using hrun
  | cons p ps ih =>
      obtain ⟨hp, hrest⟩ := h
      rcases materializeFrom_cons vc p ps r with ⟨hreceipt, hcons⟩ |
        ⟨t, hadmitted, hvalid, happlied, hcons⟩ | ⟨report, code, message, -, hcons⟩
      · obtain ⟨steps', t, hnext, hagrees⟩ := ih qs steps (r.onReceipt p)
          (by rw [revision_onReceipt r p hp]; exact hrest) (.skip qs steps r.state p hrun)
        rw [hcons, takenIn, List.filter_cons_of_neg (by simp [hreceipt])]
        exact ⟨steps', t, hnext, hagrees⟩
      · have hrevision := revision_onAccepted r p vc t hp happlied
        have hrest' : Numbered (r.onAccepted p vc t).state.revision ps := by
          rw [hrevision]
          exact hrest
        have hvalid' : rejected (validatePatch r.state p
            { vc with
              projectTruthScope := r.state.projectTruthScope
              mode := .replay }) = false := by
          rw [replayReport, rejected_append, Bool.or_eq_false_iff] at hvalid
          exact hvalid.1
        obtain ⟨steps', u, hnext, hagrees⟩ := ih (qs ++ [p]) (steps ++ p.steps r.state)
          (r.onAccepted p vc t) hrest'
          (.accept qs steps r.state t p _ p.admissionMessages hrun hvalid' happlied)
        have hreached := (revision_materialized vc ps _ hrest').1
        have htaken : p.admission ≠ .rejected ∧
            p.revision ≤ (materializeFrom vc ps (r.onAccepted p vc t)).state.revision :=
          ⟨hadmitted, by omega⟩
        rw [hcons, takenIn, List.filter_cons, if_pos (decide_eq_true htaken)]
        rw [List.append_assoc] at hnext
        exact ⟨steps', u, hnext, hagrees⟩
      · have hnone : takenIn (p :: ps) (r.onFailed p report code message) = [] := by
          rw [takenIn, List.filter_eq_nil_iff]
          intro q hq
          have hnumbered : Numbered r.state.revision (p :: ps) := ⟨hp, hrest⟩
          have hq' := (hnumbered.lt q hq).1
          simp only [decide_eq_true_eq, not_and]
          intro _
          show ¬ q.revision ≤ r.state.revision
          omega
        rw [hcons, hnone, List.append_nil]
        exact ⟨steps, r.state, hrun, rfl⟩

/-- The patches whose report rejects nothing are those that replay took in. -/
theorem accepted_by_report (vc : ValidationContext rt) (ps : List (Patch rt))
    (r : MaterializationResult rt) (h : Numbered r.state.revision ps)
    (hnone : ∀ k, r.state.revision < k → r.reports.get? k = none)
    (hreceipts : ∀ p ∈ ps, p.admission = .rejected → rejected p.admissionMessages = true) :
    ∀ p ∈ ps, ((materializeFrom vc ps r).reports.get? p.revision).any
        (fun report => !rejected report) =
      decide (p.admission ≠ .rejected ∧
        p.revision ≤ (materializeFrom vc ps r).state.revision) := by
  induction ps generalizing r with
  | nil => intro p hp; cases hp
  | cons p ps ih =>
      obtain ⟨hp, hrest⟩ := h
      have hlater : ∀ k report, r.state.revision + 1 < k →
          (r.reports.insert p.revision report).get? k = none := by
        intro k report hk
        rw [Dict.get?_insert, if_neg (by omega)]
        exact hnone k (by omega)
      have htail := fun q hq => hreceipts q (List.mem_cons_of_mem _ hq)
      rcases materializeFrom_cons vc p ps r with ⟨hreceipt, hcons⟩ |
        ⟨t, hadmitted, hvalid, happlied, hcons⟩ | ⟨report, code, message, hbad, hcons⟩
      · have hrevision := revision_onReceipt r p hp
        rw [hcons]
        intro q hq
        rcases List.mem_cons.mp hq with rfl | hq
        · rw [reports_kept vc (r.state.revision + 1) ps _ hrest _ (by omega)]
          simp [MaterializationResult.onReceipt, hreceipt,
            hreceipts q List.mem_cons_self hreceipt]
        · exact ih (r.onReceipt p) (by rw [hrevision]; exact hrest)
            (fun k hk => hlater k _ (by rwa [hrevision] at hk)) htail q hq
      · have hrevision := revision_onAccepted r p vc t hp happlied
        have hrest' : Numbered (r.onAccepted p vc t).state.revision ps := by
          rw [hrevision]
          exact hrest
        have hreached := (revision_materialized vc ps _ hrest').1
        rw [hcons]
        intro q hq
        rcases List.mem_cons.mp hq with rfl | hq
        · rw [reports_kept vc (r.state.revision + 1) ps _ hrest _ (by omega)]
          have hget : (r.onAccepted q vc t).reports.get? q.revision =
              some (replayReport r.state q vc) := Dict.get?_insert_self _ _ _
          rw [hrevision, ← hp] at hreached
          rw [hget, Option.any_some, hvalid]
          exact (decide_eq_true ⟨hadmitted, hreached⟩).symm
        · exact ih (r.onAccepted p vc t) hrest'
            (fun k hk => hlater k _ (by rwa [hrevision] at hk)) htail q hq
      · rw [hcons]
        intro q hq
        have hnumbered : Numbered r.state.revision (p :: ps) := ⟨hp, hrest⟩
        have hq' := (hnumbered.lt q hq).1
        have hrevision : ¬ q.revision ≤ (r.onFailed p report code message).state.revision := by
          show ¬ q.revision ≤ r.state.revision
          omega
        have hget : (r.onFailed p report code message).reports.get? q.revision =
            if q.revision = p.revision then some report else r.reports.get? q.revision :=
          Dict.get?_insert _ _ _ _
        simp only [hrevision, and_false, decide_false]
        rw [hget, hnone _ hq']
        split <;> simp [hbad]

end Log

end RcpGraph
