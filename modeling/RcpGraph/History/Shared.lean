import RcpGraph.Core.InPlace
import RcpGraph.Graph.Endpoints
import RcpGraph.History.Replay

/-!
Replay on shared states. Every patch runs on a fork of the state before it; a
patch that fails leaves its fork half written and unused. Replay stops at a
coherent prefix of the log, writes no state that existed before it, and
replaying a log in two parts is the same as replaying it at once.
-/

namespace RcpGraph

variable {rt : Runtime}

/-- The graph after the patches of a log, each of them taken in: a rejected receipt adds its
revision and messages, an accepted patch its operations too. -/
inductive Replayed (vc : ValidationContext rt) :
    GraphState rt → List (Patch rt) → GraphState rt → Prop
  | nil (s : GraphState rt) : Replayed vc s [] s
  | receipt (s t : GraphState rt) (p : Patch rt) (ps : List (Patch rt))
      (receipt : p.admission = .rejected) (rest : Replayed vc (s.skip p) ps t) :
      Replayed vc s (p :: ps) t
  | accept (s t u : GraphState rt) (p : Patch rt) (ps : List (Patch rt))
      (admitted : p.admission ≠ .rejected) (valid : rejected (replayReport s p vc) = false)
      (applied : applyValidPatch s p = .ok u)
      (rest : Replayed vc (u.record p.admissionMessages) ps t) : Replayed vc s (p :: ps) t

/-- Replay cannot take this patch in. -/
def Refused (vc : ValidationContext rt) (s : GraphState rt) (p : Patch rt) : Prop :=
  p.admission ≠ .rejected ∧
    (rejected (replayReport s p vc) = true ∨ ∃ text, applyValidPatch s p = .error text)

/-- Two graphs with the same fields, but for how their replay ended. -/
def GraphState.AgreesButFailure (s t : GraphState rt) : Prop :=
  { s with replayFailure := t.replayFailure } = t

section Functional

variable (vc : ValidationContext rt)

theorem replayPatch_cases (s : GraphState rt) (p : Patch rt) :
    (p.admission = .rejected ∧ replayPatch s p vc = .skipped p.admissionMessages (s.skip p)) ∨
      (∃ t, p.admission ≠ .rejected ∧ rejected (replayReport s p vc) = false ∧
        applyValidPatch s p = .ok t ∧
        replayPatch s p vc = .applied (replayReport s p vc) (t.record p.admissionMessages)) ∨
      ∃ report code message, Refused vc s p ∧
        replayPatch s p vc = .failed report (s.degrade p code message) := by
  unfold replayPatch
  by_cases hreceipt : p.admission = .rejected
  · exact .inl ⟨hreceipt, if_pos hreceipt⟩
  · simp only [if_neg hreceipt]
    cases hfind : (replayReport s p vc).find? fun m => decide (m.level = .reject) with
    | some failure =>
        refine .inr (.inr ⟨_, failure.code, failure.message, ⟨hreceipt, .inl ?_⟩, rfl⟩)
        rw [rejected, List.any_eq_true]
        exact ⟨failure, List.mem_of_find?_eq_some hfind, by simpa using List.find?_some hfind⟩
    | none =>
        have hvalid : rejected (replayReport s p vc) = false := by
          rw [List.find?_eq_none] at hfind
          rw [rejected, List.any_eq_false]
          exact hfind
        cases happly : applyValidPatch s p with
        | error text => exact .inr (.inr ⟨_, _, _, ⟨hreceipt, .inr ⟨text, happly⟩⟩, rfl⟩)
        | ok t => exact .inr (.inl ⟨t, hreceipt, hvalid, rfl, rfl⟩)

theorem replayFailure_relayer (ids : List String) (s : GraphState rt) :
    (relayer ids s).replayFailure = s.replayFailure := by
  refine foldl_constant _ (·.replayFailure) (fun id s => ?_) _ s
  unfold relayerEdge
  split
  · rfl
  · simp only
    split <;> rfl

theorem complete_applyValidPatch (s t : GraphState rt) (p : Patch rt)
    (h : applyValidPatch s p = .ok t) : t.complete = s.complete := by
  simp only [applyValidPatch, applyPatch, bind, Except.bind, pure, Except.pure] at h
  split at h
  next => cases h
  next u hu =>
    cases h
    have hframe := Steps.run_constant _ GraphState.frame _
      (fun e _ s t h => frame_applyOp p _ e.1 s t h) s u hu
    have hfailure : u.replayFailure = s.replayFailure := congrArg (·.2.2.1) hframe
    show Option.isNone (relayer _ u).replayFailure = Option.isNone s.replayFailure
    rw [replayFailure_relayer, hfailure]

/-- Where replay stops, and with which graph. -/
theorem materializeFrom_prefix (ps : List (Patch rt)) (r : MaterializationResult rt)
    (h : r.state.complete = true) :
    ∃ accepted rest t, ps = accepted ++ rest ∧ Replayed vc r.state accepted t ∧
      t.complete = true ∧
      ((rest = [] ∧ (materializeFrom vc ps r).state = t) ∨
        ∃ p more code message, rest = p :: more ∧ Refused vc t p ∧
          (materializeFrom vc ps r).state = t.degrade p code message) := by
  induction ps generalizing r with
  | nil => exact ⟨[], [], r.state, rfl, .nil _, h, .inl ⟨rfl, rfl⟩⟩
  | cons p ps ih =>
      rw [materializeFrom]
      rcases replayPatch_cases vc r.state p with
        ⟨hreceipt, heq⟩ | ⟨t, hadmitted, hvalid, happlied, heq⟩ | ⟨report, code, message, hr, heq⟩
      · rw [heq]
        obtain ⟨accepted, rest, t, hps, hreplayed, ht, hend⟩ := ih
          { r with
            state := r.state.skip p
            reports := r.reports.insert p.revision p.admissionMessages } h
        exact ⟨p :: accepted, rest, t, by rw [hps]; rfl, .receipt _ _ p _ hreceipt hreplayed, ht,
          hend⟩
      · rw [heq]
        have hcomplete : (t.record p.admissionMessages).complete = true :=
          (complete_applyValidPatch _ t p happlied).trans h
        obtain ⟨accepted, rest, u, hps, hreplayed, hu, hend⟩ := ih
          { state := t.record p.admissionMessages
            reports := r.reports.insert p.revision (replayReport r.state p vc)
            processedCursors := r.processedCursors.update (currentCursors p.processedCursors) }
          hcomplete
        exact ⟨p :: accepted, rest, u, by rw [hps]; rfl,
          .accept _ _ t p _ hadmitted hvalid happlied hreplayed, hu, hend⟩
      · rw [heq]
        exact ⟨[], p :: ps, r.state, rfl, .nil _, h, .inr ⟨p, ps, code, message, rfl, hr, rfl⟩⟩

end Functional

namespace InPlace

/-- What replay makes of one patch, by the address of the state it goes on with. -/
inductive SharedStep where
  | skipped (report : List ValidationMessage) (o : Nat)
  | applied (report : List ValidationMessage) (o : Nat)
  | failed (report : List ValidationMessage) (o : Nat)

/-- A copy that says where replay stopped. It shares every container. -/
def degrade (o : Nat) (p : Patch rt) (code message : String) (σ : StateHeap rt) :
    Nat × StateHeap rt :=
  Objects.copyWith o []
    (fun attrs => { attrs with
      replayFailure :=
        some { revision := p.revision, createdAt := p.createdAt, code := code, message := message } })
    σ

/-- A copy with more messages. It shares every other container. -/
def record (o : Nat) (messages : List ValidationMessage) (f : Attributes → Attributes)
    (σ : StateHeap rt) : Nat × StateHeap rt :=
  Objects.copyWith o
    [⟨.validationMessages, (Objects.valueAt σ o).contents .validationMessages ++ messages⟩] f σ

/-- One round of the loop of `materialize_patches_from_state`. -/
def replayPatch (vc : ValidationContext rt) (o : Nat) (p : Patch rt) (σ : StateHeap rt) :
    SharedStep × StateHeap rt :=
  if p.admission = .rejected then
    let (copy, τ) := record o p.admissionMessages
      (fun attrs => { attrs with revision := max attrs.revision p.revision }) σ
    (.skipped p.admissionMessages copy, τ)
  else
    let report := replayReport (GraphState.ofValue (Objects.valueAt σ o)) p vc
    match report.find? fun m => decide (m.level = .reject) with
    | some failure =>
        let (copy, τ) := degrade o p failure.code failure.message σ
        (.failed report copy, τ)
    | none =>
        let (candidate, τ) := forkState o σ
        match applyPatch p p.generatedIndexes candidate τ with
        | (.error text, υ) =>
            let message := "Patch operations could not be applied atomically: " ++ text ++ "."
            let (copy, υ) := degrade o p "malformed-operation" message υ
            (.failed
              (report ++
                [{ level := .reject
                   code := "malformed-operation"
                   message := message
                   patchRevision := some p.revision }]) copy, υ)
        | (.ok (), υ) =>
            let (copy, υ) := record candidate p.admissionMessages id υ
            (.applied report copy, υ)

structure SharedResult where
  state : Nat
  reports : Dict Nat (List ValidationMessage) := .empty
  processedCursors : Dict String String := .empty

/-- `materialize_patches_from_state` on shared states. -/
def materializeFrom (vc : ValidationContext rt) :
    List (Patch rt) → SharedResult → StateHeap rt → SharedResult × StateHeap rt
  | [], r, σ => (r, σ)
  | p :: ps, r, σ =>
      match replayPatch vc r.state p σ with
      | (.skipped report o, τ) =>
          materializeFrom vc ps
            { r with state := o, reports := r.reports.insert p.revision report } τ
      | (.applied report o, τ) =>
          materializeFrom vc ps
            { state := o
              reports := r.reports.insert p.revision report
              processedCursors := r.processedCursors.update (currentCursors p.processedCursors) } τ
      | (.failed report o, τ) =>
          ({ r with state := o, reports := r.reports.insert p.revision report }, τ)

def materializePatchesFromState (ps : List (Patch rt)) (o : Nat) (vc : ValidationContext rt)
    (σ : StateHeap rt) : SharedResult × StateHeap rt :=
  materializeFrom vc ps { state := o } σ

section Refinement

variable (vc : ValidationContext rt)

theorem degrade_spec (o : Nat) (p : Patch rt) (code message : String) (σ : StateHeap rt)
    (s : GraphState rt) (h : σ.Holds o s.value) :
    σ.Keeps (degrade o p code message σ).2 ∧
      (degrade o p code message σ).2.Holds (degrade o p code message σ).1
        (s.degrade p code message).value := by
  obtain ⟨hkeeps, hholds, -⟩ := Objects.copyWith_spec o [] (fun attrs : Attributes => { attrs with
    replayFailure :=
      some { revision := p.revision, createdAt := p.createdAt, code := code, message := message } })
    σ s.value h
  exact ⟨hkeeps, hholds⟩

theorem record_spec (o : Nat) (messages : List ValidationMessage) (f : Attributes → Attributes)
    (σ : StateHeap rt) (s t : GraphState rt) (h : σ.Holds o s.value)
    (ht : t.value = { (s.record messages).value with attrs := f s.value.attrs }) :
    σ.Keeps (record o messages f σ).2 ∧
      (record o messages f σ).2.Holds (record o messages f σ).1 t.value := by
  obtain ⟨hkeeps, hholds, -⟩ := Objects.copyWith_spec o
    [⟨.validationMessages, (Objects.valueAt σ o).contents .validationMessages ++ messages⟩] f σ
    s.value h
  refine ⟨hkeeps, ?_⟩
  unfold record
  convert hholds using 1
  rw [ht, Objects.valueAt_of_holds h]
  ext k
  · cases k <;> rfl
  · rfl

/-- What a step on shared states stands for. -/
def SharedStep.Shows (τ : StateHeap rt) : SharedStep → ReplayStep rt → Prop
  | .skipped report o, .skipped report' s => report = report' ∧ τ.Holds o s.value
  | .applied report o, .applied report' s => report = report' ∧ τ.Holds o s.value
  | .failed report o, .failed report' s => report = report' ∧ τ.Holds o s.value
  | _, _ => False

/-- One round writes no state that was there before it and goes on with the state that
replay of the patch gives. -/
theorem replayPatch_spec (o : Nat) (p : Patch rt) (σ : StateHeap rt) (s : GraphState rt)
    (h : σ.Holds o s.value) :
    σ.Keeps (replayPatch vc o p σ).2 ∧
      (replayPatch vc o p σ).1.Shows (replayPatch vc o p σ).2 (RcpGraph.replayPatch s p vc) := by
  have hvalue : GraphState.ofValue (Objects.valueAt σ o) = s := by
    rw [Objects.valueAt_of_holds h]
    rfl
  unfold replayPatch RcpGraph.replayPatch
  rw [hvalue]
  by_cases hreceipt : p.admission = .rejected
  · rw [if_pos hreceipt, if_pos hreceipt]
    obtain ⟨hkeeps, hholds⟩ := record_spec o p.admissionMessages
      (fun attrs => { attrs with revision := max attrs.revision p.revision }) σ s (s.skip p) h rfl
    exact ⟨hkeeps, rfl, hholds⟩
  · rw [if_neg hreceipt, if_neg hreceipt]
    simp only
    cases (replayReport s p vc).find? fun m => decide (m.level = .reject) with
    | some failure =>
        obtain ⟨hkeeps, hholds⟩ := degrade_spec o p failure.code failure.message σ s h
        exact ⟨hkeeps, rfl, hholds⟩
    | none =>
        obtain ⟨hkeeps, hfork, howned⟩ := forkState_spec o σ s h
        obtain ⟨howned', hanswer⟩ := does_applyPatch p p.generatedIndexes _ howned hfork
        unfold applyValidPatch
        simp only
        generalize applyPatch p p.generatedIndexes (forkState o σ).1 (forkState o σ).2 = run
          at howned' hanswer ⊢
        obtain ⟨outcome, υ⟩ := run
        cases happly : RcpGraph.applyPatch p p.generatedIndexes s with
        | error text =>
            rw [happly] at hanswer
            obtain ⟨rfl : outcome = .error text, -⟩ := hanswer
            have hold := howned'.keeps.holds h
            obtain ⟨hmore, hholds⟩ := degrade_spec o p "malformed-operation"
              ("Patch operations could not be applied atomically: " ++ text ++ ".") _ s hold
            exact ⟨howned'.keeps.trans hmore, rfl, hholds⟩
        | ok t =>
            rw [happly] at hanswer
            obtain ⟨rfl : outcome = .ok (), hheld⟩ := hanswer
            obtain ⟨hmore, hholds⟩ := record_spec _ p.admissionMessages id _ t
              (t.record p.admissionMessages) hheld rfl
            exact ⟨howned'.keeps.trans hmore, rfl, hholds⟩

/-- A result on shared states and the result it stands for. -/
structure SharedResult.Shows (τ : StateHeap rt) (r : SharedResult)
    (result : MaterializationResult rt) : Prop where
  state : τ.Holds r.state result.state.value
  reports : r.reports = result.reports
  processedCursors : r.processedCursors = result.processedCursors

theorem SharedResult.Shows.report {σ τ : StateHeap rt} {r : SharedResult}
    {result : MaterializationResult rt} (h : r.Shows σ result) {o : Nat} {t : GraphState rt}
    (ht : τ.Holds o t.value) (revision : Nat) (report : List ValidationMessage) :
    SharedResult.Shows τ { r with state := o, reports := r.reports.insert revision report }
      { result with state := t, reports := result.reports.insert revision report } :=
  ⟨ht, congrArg (·.insert revision report) h.reports, h.processedCursors⟩

theorem SharedResult.Shows.take {σ τ : StateHeap rt} {r : SharedResult}
    {result : MaterializationResult rt} (h : r.Shows σ result) {o : Nat} {t : GraphState rt}
    (ht : τ.Holds o t.value) (revision : Nat) (report : List ValidationMessage)
    (cursors : List (String × String)) :
    SharedResult.Shows τ
      { state := o
        reports := r.reports.insert revision report
        processedCursors := r.processedCursors.update cursors }
      { state := t
        reports := result.reports.insert revision report
        processedCursors := result.processedCursors.update cursors } :=
  ⟨ht, congrArg (·.insert revision report) h.reports,
    congrArg (·.update cursors) h.processedCursors⟩

/-- Replay on shared states is replay, and it writes no state that was there before. -/
theorem materializeFrom_spec (ps : List (Patch rt)) (r : SharedResult) (σ : StateHeap rt)
    (result : MaterializationResult rt) (h : r.Shows σ result) :
    σ.Keeps (materializeFrom vc ps r σ).2 ∧
      (materializeFrom vc ps r σ).1.Shows (materializeFrom vc ps r σ).2
        (RcpGraph.materializeFrom vc ps result) := by
  induction ps generalizing r σ result with
  | nil => exact ⟨.refl σ, h⟩
  | cons p ps ih =>
      obtain ⟨hkeeps, hshows⟩ := replayPatch_spec vc r.state p σ result.state h.state
      rw [materializeFrom, RcpGraph.materializeFrom]
      generalize replayPatch vc r.state p σ = step at hkeeps hshows ⊢
      obtain ⟨step, τ⟩ := step
      cases hstep : RcpGraph.replayPatch result.state p vc with
      | skipped report t =>
          rw [hstep] at hshows
          cases step with
          | skipped report' o =>
              obtain ⟨rfl, hholds⟩ := hshows
              obtain ⟨hmore, hend⟩ := ih _ τ _ (h.report hholds p.revision report')
              exact ⟨hkeeps.trans hmore, hend⟩
          | applied report' o => cases hshows
          | failed report' o => cases hshows
      | applied report t =>
          rw [hstep] at hshows
          cases step with
          | skipped report' o => cases hshows
          | applied report' o =>
              obtain ⟨rfl, hholds⟩ := hshows
              obtain ⟨hmore, hend⟩ := ih _ τ _ (h.take hholds p.revision report'
                (currentCursors p.processedCursors))
              exact ⟨hkeeps.trans hmore, hend⟩
          | failed report' o => cases hshows
      | failed report t =>
          rw [hstep] at hshows
          cases step with
          | skipped report' o => cases hshows
          | applied report' o => cases hshows
          | failed report' o =>
              obtain ⟨rfl, hholds⟩ := hshows
              exact ⟨hkeeps, h.report hholds p.revision report'⟩

/-- The run over a log goes through the run over its first part. -/
theorem materializeFrom_append (p q : List (Patch rt)) (r : SharedResult) (σ : StateHeap rt)
    (result : MaterializationResult rt) (h : r.Shows σ result)
    (hcomplete : (RcpGraph.materializeFrom vc p result).state.complete = true) :
    materializeFrom vc (p ++ q) r σ =
      materializeFrom vc q (materializeFrom vc p r σ).1 (materializeFrom vc p r σ).2 := by
  induction p generalizing r σ result with
  | nil => rfl
  | cons x xs ih =>
      obtain ⟨-, hshows⟩ := replayPatch_spec vc r.state x σ result.state h.state
      rw [RcpGraph.materializeFrom] at hcomplete
      rw [List.cons_append, materializeFrom, materializeFrom]
      generalize replayPatch vc r.state x σ = step at hshows ⊢
      obtain ⟨step, τ⟩ := step
      rcases replayPatch_cases vc result.state x with
        ⟨_, heq⟩ | ⟨t, _, _, _, heq⟩ | ⟨report, code, message, _, heq⟩
      · rw [heq] at hshows hcomplete
        cases step with
        | skipped report' o =>
            obtain ⟨rfl, hholds⟩ := hshows
            exact ih _ τ _ (h.report hholds x.revision _) hcomplete
        | applied report' o => cases hshows
        | failed report' o => cases hshows
      · rw [heq] at hshows hcomplete
        cases step with
        | skipped report' o => cases hshows
        | applied report' o =>
            obtain ⟨rfl, hholds⟩ := hshows
            exact ih _ τ _ (h.take hholds x.revision _ _) hcomplete
        | failed report' o => cases hshows
      · rw [heq] at hcomplete
        cases hcomplete

/-- The reports of a run that starts with some are the reports of the run on its own, filed
after them. -/
theorem reports_materializeFrom (ps : List (Patch rt)) (r r' : SharedResult)
    (hs : r'.state = r.state) (before : Dict Nat (List ValidationMessage))
    (hr : r.reports = before.update r'.reports.entries) (σ : StateHeap rt) :
    (materializeFrom vc ps r σ).2 = (materializeFrom vc ps r' σ).2 ∧
      (materializeFrom vc ps r σ).1.state = (materializeFrom vc ps r' σ).1.state ∧
      (materializeFrom vc ps r σ).1.reports =
        before.update (materializeFrom vc ps r' σ).1.reports.entries := by
  induction ps generalizing r r' σ with
  | nil => exact ⟨rfl, hs.symm, hr⟩
  | cons p ps ih =>
      have hinsert : ∀ report, r.reports.insert p.revision report =
          before.update (r'.reports.insert p.revision report).entries := by
        intro report
        rw [← Dict.update_insert, hr]
      rw [materializeFrom, materializeFrom, hs]
      obtain ⟨step, τ⟩ := replayPatch vc r.state p σ
      cases step with
      | skipped report o =>
          apply ih
          · rfl
          · exact hinsert report
      | applied report o =>
          apply ih
          · rfl
          · exact hinsert report
      | failed report o => exact ⟨rfl, rfl, hinsert report⟩

/-- Replay from a complete state, wherever that state shares its containers. It ends with the
graph of the accepted patches before the first refused one, every state that was there
before is as it was, and replaying a log in two parts gives the same state and reports. -/
theorem replay_coherent (σ : StateHeap rt) (o : Nat) (s : GraphState rt)
    (hs : σ.Holds o s.value) (hcomplete : s.complete = true) (ps : List (Patch rt)) :
    (∃ accepted rest t, ∃ u : GraphState rt, ps = accepted ++ rest ∧ Replayed vc s accepted t ∧
        (rest = [] ∨ ∃ p more, rest = p :: more ∧ Refused vc t p) ∧
        (materializePatchesFromState ps o vc σ).2.Holds
          (materializePatchesFromState ps o vc σ).1.state u.value ∧
        u.AgreesButFailure t ∧ (u.complete = true ↔ rest = [])) ∧
      (∀ o' (s' : GraphState rt), σ.Holds o' s'.value →
        (materializePatchesFromState ps o vc σ).2.Holds o' s'.value) ∧
      ∀ p q first second (t : GraphState rt), ps = p ++ q →
        materializePatchesFromState p o vc σ = first →
        materializePatchesFromState q first.1.state vc first.2 = second →
        first.2.Holds first.1.state t.value → t.complete = true →
        (materializePatchesFromState ps o vc σ).2 = second.2 ∧
          (materializePatchesFromState ps o vc σ).1.state = second.1.state ∧
          (materializePatchesFromState ps o vc σ).1.reports =
            first.1.reports.update second.1.reports.entries ∧
          ∀ o' (s' : GraphState rt), first.2.Holds o' s'.value →
            (materializePatchesFromState ps o vc σ).2.Holds o' s'.value := by
  have hstart : SharedResult.Shows σ { state := o } { state := s } := ⟨hs, rfl, rfl⟩
  refine ⟨?_, fun o' s' h => ?_, ?_⟩
  · obtain ⟨-, hend⟩ := materializeFrom_spec vc ps _ σ _ hstart
    obtain ⟨accepted, rest, t, hps, hreplayed, ht, hstop⟩ :=
      materializeFrom_prefix vc ps { state := s } hcomplete
    refine ⟨accepted, rest, t, _, hps, hreplayed, ?_, hend.state, ?_⟩
    · rcases hstop with ⟨hrest, -⟩ | ⟨p, more, -, -, hrest, hrefused, -⟩
      · exact .inl hrest
      · exact .inr ⟨p, more, hrest, hrefused⟩
    · rcases hstop with ⟨hrest, heq⟩ | ⟨p, more, code, message, hrest, -, heq⟩
      · rw [heq, ht]
        exact ⟨rfl, iff_of_true rfl hrest⟩
      · rw [heq, hrest]
        refine ⟨rfl, iff_of_false ?_ (List.cons_ne_nil _ _)⟩
        exact Bool.false_ne_true
  · exact (materializeFrom_spec vc ps _ σ _ hstart).1.holds h
  · rintro p q first second t rfl rfl rfl ht hfinished
    obtain ⟨-, hfirst⟩ := materializeFrom_spec vc p _ σ _ hstart
    have hstate : (RcpGraph.materializeFrom vc p { state := s }).state = t :=
      GraphState.value_injective (hfirst.state.unique ht)
    have hdone : (RcpGraph.materializeFrom vc p { state := s }).state.complete = true := by
      rw [hstate]
      exact hfinished
    have hsplit := materializeFrom_append vc p q _ σ _ hstart hdone
    obtain ⟨hheap, hpointer, hreports⟩ := reports_materializeFrom vc q
      (materializeFrom vc p { state := o } σ).1
      { state := (materializeFrom vc p { state := o } σ).1.state } rfl
      (materializeFrom vc p { state := o } σ).1.reports rfl (materializeFrom vc p { state := o } σ).2
    unfold materializePatchesFromState
    rw [hsplit]
    refine ⟨hheap, hpointer, hreports, fun o' s' h => ?_⟩
    exact (materializeFrom_spec vc q _ _ _ hfirst).1.holds h

end Refinement

/-- A heap with one state. -/
def lone (s : GraphState rt) : StateHeap rt where
  cells := fun k => [s.value.contents k]
  objects := [⟨fun _ => 0, s.value.attrs⟩]

theorem holds_lone (s : GraphState rt) : (lone s).Holds 0 s.value := by
  refine ⟨⟨fun _ => 0, s.value.attrs⟩, rfl, rfl, fun k => ?_⟩
  rfl

/-- The first operation changes a title, the second one fails: its edge has no id. -/
def brokenPatch : Patch .plain :=
  { firstPatch
      [ .updateNodes [{ id := "rq/a", changes := .ofList [("title", .str "Another title")] }],
        .createEdges [{ subquestionDraft "rq/b" "rq/a" with id := some none }] ] with
    revision := 2 }

/-- A replay that stops at the second patch, in the middle of its operations. -/
def brokenReplay : SharedResult × StateHeap .plain :=
  materializePatchesFromState [relatedQuestions, brokenPatch, relatedQuestions] 0
    { projectTruthScope := ["repo"] } (lone (.initial .plain ["repo"]))

theorem replay_coherent_broken :
    ∃ t u : GraphState .plain, brokenReplay.2.Holds brokenReplay.1.state u.value ∧
      u.AgreesButFailure t ∧ u.nodes.keys = ["rq/a", "rq/b"] ∧
      (u.nodes.get? "rq/a").bind (·.field? "title") = some (.str "Title") ∧
      u.complete = false ∧
      brokenReplay.2.Holds 0 (GraphState.initial .plain ["repo"]).value := by
  obtain ⟨⟨_, _, t, u, _, _, _, hu, hagrees, _⟩, hkept, _⟩ :=
    replay_coherent { projectTruthScope := ["repo"] } (lone (.initial .plain ["repo"])) 0 _
      (holds_lone _) rfl [relatedQuestions, brokenPatch, relatedQuestions]
  have hend : GraphState.ofValue (Objects.valueAt brokenReplay.2 brokenReplay.1.state) = u :=
    congrArg GraphState.ofValue (Objects.valueAt_of_holds hu)
  refine ⟨t, u, hu, hagrees, ?_, ?_, ?_, hkept 0 _ (holds_lone _)⟩
  · rw [← hend]
    decide +kernel
  · rw [← hend]
    decide +kernel
  · rw [← hend]
    decide +kernel

end InPlace

end RcpGraph
