import RcpGraph.Episodes.ReportLedger

/-!
The outcome of a report ledger. Its rows stay sound in every run. The outcome stays once
the wrap-up is ready or failed, unless an error is recorded for an attempt that has failed
already.
-/

namespace RcpGraph.Episodes

/-- The attempts, and the report that one of them has published. -/
structure ReportRows (attempts : List EpisodeReportAttempt) (report : Option EpisodeReport) :
    Prop where
  distinct : (attempts.map (·.attemptId)).Nodup
  single : ∀ a ∈ attempts, ∀ b ∈ attempts, a.isOpen = true → b.isOpen = true → a = b
  published : ∀ a ∈ attempts, a.status = .succeeded ↔
    ∃ r, report = some r ∧ r.attemptId = a.attemptId
  owned : ∀ r, report = some r → ∃ a ∈ attempts, a.attemptId = r.attemptId

/-- A rewrite of attempts that opens none, and keeps which of them succeeded. -/
structure Rewrites (attempts : List EpisodeReportAttempt)
    (f : EpisodeReportAttempt → EpisodeReportAttempt) : Prop where
  sameId : ∀ a ∈ attempts, (f a).attemptId = a.attemptId
  opensNone : ∀ a ∈ attempts, (f a).isOpen = true → a.isOpen = true
  sameSuccess : ∀ a ∈ attempts, (f a).status = .succeeded ↔ a.status = .succeeded

theorem Rewrites.fail {attempts : List EpisodeReportAttempt} (p : EpisodeReportAttempt → Prop)
    [DecidablePred p] (hp : ∀ a ∈ attempts, p a → a.status ≠ .succeeded) (error : String) :
    Rewrites attempts fun a => if p a then a.fail error else a := by
  constructor
  · intro a _
    split <;> rfl
  · intro a _ hopen
    split at hopen
    · cases hopen
    · exact hopen
  · intro a ha
    split
    next hpa => exact ⟨fun h => absurd h (by simp [EpisodeReportAttempt.fail]),
      fun h => absurd h (hp a ha hpa)⟩
    next => exact Iff.rfl

namespace ReportRows

variable {attempts : List EpisodeReportAttempt} {report : Option EpisodeReport}

theorem unique (h : ReportRows attempts report) {a b : EpisodeReportAttempt} (ha : a ∈ attempts)
    (hb : b ∈ attempts) (hid : a.attemptId = b.attemptId) : a = b :=
  List.inj_on_of_nodup_map h.distinct ha hb hid

theorem rewrite (h : ReportRows attempts report) {f : EpisodeReportAttempt → EpisodeReportAttempt}
    (hf : Rewrites attempts f) : ReportRows (attempts.map f) report := by
  constructor
  · have hids : (attempts.map f).map (·.attemptId) = attempts.map (·.attemptId) := by
      rw [List.map_map]
      exact List.map_congr_left hf.sameId
    rw [hids]
    exact h.distinct
  · intro x hx y hy hxo hyo
    obtain ⟨a, ha, rfl⟩ := List.mem_map.mp hx
    obtain ⟨b, hb, rfl⟩ := List.mem_map.mp hy
    rw [h.single a ha b hb (hf.opensNone a ha hxo) (hf.opensNone b hb hyo)]
  · intro x hx
    obtain ⟨a, ha, rfl⟩ := List.mem_map.mp hx
    rw [hf.sameSuccess a ha, hf.sameId a ha]
    exact h.published a ha
  · intro r hr
    obtain ⟨a, ha, heq⟩ := h.owned r hr
    exact ⟨f a, List.mem_map_of_mem ha, (hf.sameId a ha).trans heq⟩

/-- A new attempt beside attempts that have all ended. -/
theorem allocate (h : ReportRows attempts report) (a : EpisodeReportAttempt)
    (hended : ∀ b ∈ attempts, b.isOpen = false) (hstatus : a.status = .queued)
    (hnew : ∀ b ∈ attempts, b.attemptId ≠ a.attemptId) : ReportRows (attempts ++ [a]) report := by
  constructor
  · rw [List.map_append, List.nodup_append]
    refine ⟨h.distinct, List.nodup_singleton _, ?_⟩
    intro x hx y hy
    obtain ⟨b, hb, rfl⟩ := List.mem_map.mp hx
    rw [List.mem_singleton.mp hy]
    exact hnew b hb
  · intro x hx y hy hxo hyo
    have honly : ∀ z ∈ attempts ++ [a], z.isOpen = true → z = a := by
      intro z hz hopen
      cases List.mem_append.mp hz with
      | inl hold => exact absurd (hopen.symm.trans (hended z hold)) Bool.noConfusion
      | inr hnew => exact List.mem_singleton.mp hnew
    rw [honly x hx hxo, honly y hy hyo]
  · intro x hx
    cases List.mem_append.mp hx with
    | inl hold => exact h.published x hold
    | inr hlast =>
        rw [List.mem_singleton.mp hlast, hstatus]
        constructor
        · intro heq
          cases heq
        · intro hpublished
          obtain ⟨r, hr, heq⟩ := hpublished
          obtain ⟨b, hb, hid⟩ := h.owned r hr
          exact absurd (hid.trans heq) (hnew b hb)
  · intro r hr
    obtain ⟨b, hb, heq⟩ := h.owned r hr
    exact ⟨b, List.mem_append_left _ hb, heq⟩

/-- The open attempt publishes the report. -/
theorem publish (h : ReportRows attempts none) {row : EpisodeReportAttempt} (hrow : row ∈ attempts)
    (hopen : row.isOpen = true) (r : EpisodeReport) (hr : r.attemptId = row.attemptId) :
    ReportRows (attempts.map fun a => if a.attemptId = row.attemptId then
        { a with status := .succeeded, error := none } else a) (some r) ∧
      ∀ a ∈ attempts.map fun a => if a.attemptId = row.attemptId then
        { a with status := .succeeded, error := none } else a, a.isOpen = false := by
  have hids : (attempts.map fun a : EpisodeReportAttempt => if a.attemptId = row.attemptId then
      { a with status := .succeeded, error := none } else a).map (·.attemptId) =
        attempts.map (·.attemptId) := by
    rw [List.map_map]
    apply List.map_congr_left
    intro a _
    simp only [Function.comp_apply]
    split <;> rfl
  have hended : ∀ a ∈ attempts.map fun a : EpisodeReportAttempt =>
      if a.attemptId = row.attemptId then { a with status := .succeeded, error := none } else a,
      a.isOpen = false := by
    intro x hx
    obtain ⟨a, ha, rfl⟩ := List.mem_map.mp hx
    split
    next => rfl
    next hother =>
      rw [← Bool.not_eq_true]
      intro hao
      exact hother (congrArg (·.attemptId) (h.single a ha row hrow hao hopen))
  refine ⟨⟨hids ▸ h.distinct, ?_, ?_, ?_⟩, hended⟩
  · intro x hx y _ hxo
    exact absurd (hxo.symm.trans (hended x hx)) Bool.noConfusion
  · intro x hx
    obtain ⟨a, ha, rfl⟩ := List.mem_map.mp hx
    have hnot : a.status ≠ .succeeded := by
      intro hsucceeded
      obtain ⟨_, hnone, _⟩ := (h.published a ha).mp hsucceeded
      cases hnone
    by_cases hid : a.attemptId = row.attemptId
    · rw [if_pos hid]
      exact ⟨fun _ => ⟨r, rfl, hr.trans hid.symm⟩, fun _ => rfl⟩
    · rw [if_neg hid]
      refine ⟨fun hs => absurd hs hnot, fun hex => ?_⟩
      obtain ⟨r', hr', heq⟩ := hex
      cases hr'
      exact absurd (heq.symm.trans hr) hid
  · intro r' hr'
    cases hr'
    refine ⟨_, List.mem_map_of_mem hrow, ?_⟩
    rw [if_pos rfl]
    exact hr.symm

end ReportRows

/-- The wrap-up is ready or failed. -/
def WrapupState.final : WrapupState → Bool
  | .ready | .failed => true
  | _ => false

namespace ReportLedger

/-- What holds of a ledger in every run. -/
structure Sound (s : ReportLedger) : Prop where
  counted : s.reportAttemptsUsed = s.attempts.length
  few : s.reportAttemptsUsed ≤ reportAttemptLimit
  rows : ReportRows s.attempts s.report
  agrees : ∀ w, s.wrapup = some w → w.state = s.wrapupState

/-- The episode's status, its wrap-up and its report. -/
def outcome (s : ReportLedger) : EpisodeStatus × WrapupState × Option String ×
    Option ReportWrapup × Option EpisodeReport :=
  (s.status, s.wrapupState, s.wrapupError, s.wrapup, s.report)

/-- Once the wrap-up is ready or failed, every attempt has ended and the episode has the status
of its ending. -/
structure Closed (s : ReportLedger) : Prop where
  ended : s.wrapupState.final = true → ∀ a ∈ s.attempts, a.isOpen = false
  status : s.wrapupState.final = true → s.attempts ≠ [] → ∀ ending, s.ending = some ending →
    s.status = statusForEnding ending

/-- An error call on an attempt that has failed already: while the wrap-up is neither ready nor
failed it may close the wrap-up when no attempt is open, and afterwards it may say again what
closed it. -/
def TimelyError (s : ReportLedger) (attemptId error : String)
    (forceFinal providerAuth elsewhere : Bool) : Prop :=
  ∀ row, s.attempt? attemptId = some row → row.status = .failed → Text.strip error ≠ "" →
    (isFinal row forceFinal providerAuth = true → elsewhere = false) →
      if s.wrapupState.final = true then
        isFinal row forceFinal providerAuth = true ∧ s.wrapupState = .failed ∧
          s.wrapupError = some error ∧ ∀ w, s.wrapup = some w → w.diagnostic = some error
      else isFinal row forceFinal providerAuth = true → ∀ a ∈ s.attempts, a.isOpen = false

/-- An operation that is no late error. -/
def Timely (s : ReportLedger) : ReportOperation → Prop
  | .recordError attemptId error providerAuth elsewhere =>
      s.TimelyError attemptId error false providerAuth elsewhere
  | .finishError attemptId error elsewhere => s.TimelyError attemptId error true false elsewhere
  | _ => True

/-- What a step keeps: the rows are sound, and a timely one leaves a final outcome alone. -/
structure Keeps (s t : ReportLedger) (timely : Prop) : Prop where
  sound : t.Sound
  closed : timely → s.Closed → t.Closed
  outcome : timely → s.Closed → s.wrapupState.final = true → t.outcome = s.outcome

variable {s t : ReportLedger}

theorem attempt?_spec {attemptId : String} {row : EpisodeReportAttempt}
    (h : s.attempt? attemptId = some row) : row ∈ s.attempts ∧ row.attemptId = attemptId :=
  by
  rw [attempt?] at h
  have hid := List.find?_some h
  exact ⟨List.mem_of_find?_eq_some h, of_decide_eq_true hid⟩

theorem current_eq_none : s.current = none ↔ ∀ a ∈ s.attempts, a.isOpen = false := by
  simp [current]

theorem current_spec {a : EpisodeReportAttempt} (h : s.current = some a) :
    a ∈ s.attempts ∧ a.isOpen = true :=
  ⟨List.mem_reverse.mp (List.mem_of_find?_eq_some h), List.find?_some h⟩

theorem writeTask_eq (s : ReportLedger) (operationId : String) (f : ReportTask → ReportTask) :
    ∃ tasks, s.writeTask operationId f = { s with tasks := tasks } := by
  rw [writeTask]
  split
  · exact ⟨_, rfl⟩
  · exact ⟨s.tasks, rfl⟩

theorem final_of_awaiting {w : WrapupState} (h : w.awaiting = true) : w.final = false := by
  cases w <;> first | rfl | cases h

/-- Rows that are rewritten stay sound. -/
theorem Sound.rewrite (h : s.Sound) {f : EpisodeReportAttempt → EpisodeReportAttempt}
    (hf : Rewrites s.attempts f) (hattempts : t.attempts = s.attempts.map f)
    (hreport : t.report = s.report) (hused : t.reportAttemptsUsed = s.reportAttemptsUsed)
    (hagrees : ∀ w, t.wrapup = some w → w.state = t.wrapupState) : t.Sound := by
  constructor
  · rw [hused, hattempts, List.length_map]
    exact h.counted
  · rw [hused]
    exact h.few
  · rw [hattempts, hreport]
    exact h.rows.rewrite hf
  · exact hagrees

theorem agrees_map {w : ReportWrapup} {wrapup : Option ReportWrapup}
    {f : ReportWrapup → ReportWrapup} {state : WrapupState} (hf : ∀ w, (f w).state = state)
    (hw : wrapup.map f = some w) : w.state = state := by
  obtain ⟨v, _, rfl⟩ := Option.map_eq_some_iff.mp hw
  exact hf v

/-- A step that changes tasks only. -/
theorem Keeps.tasks (h : s.Sound) (timely : Prop) (tasks : Dict String ReportTask) :
    Keeps s { s with tasks := tasks } timely :=
  ⟨⟨h.counted, h.few, h.rows, h.agrees⟩, fun _ hc => ⟨hc.ended, hc.status⟩, fun _ _ _ => rfl⟩

theorem Keeps.refl (h : s.Sound) (timely : Prop) : Keeps s s timely :=
  ⟨h, fun _ hc => hc, fun _ _ _ => rfl⟩

/-- The wrap-up goes on. -/
theorem Keeps.goesOn {timely : Prop} (h : t.Sound) (hs : s.wrapupState.final = false)
    (ht : t.wrapupState.final = false) : Keeps s t timely :=
  ⟨h, fun _ _ => ⟨fun hf => absurd (ht.symm.trans hf) Bool.noConfusion,
    fun hf => absurd (ht.symm.trans hf) Bool.noConfusion⟩,
    fun _ _ hf => absurd (hs.symm.trans hf) Bool.noConfusion⟩

/-- The wrap-up ends, and with it every attempt. -/
theorem Keeps.ends {timely : Prop} (h : t.Sound) (hs : s.wrapupState.final = false)
    (hended : timely → ∀ a ∈ t.attempts, a.isOpen = false)
    (hstatus : ∀ ending, t.ending = some ending → t.status = statusForEnding ending) :
    Keeps s t timely :=
  ⟨h, fun ht _ => ⟨fun _ => hended ht, fun _ _ => hstatus⟩,
    fun _ _ hf => absurd (hs.symm.trans hf) Bool.noConfusion⟩

theorem allocate_keeps (h : s.Sound) (attemptId : String) (timely : Prop)
    (ht : s.allocate attemptId = .ok t) : Keeps s t timely := by
  rw [allocate] at ht
  split at ht
  next => cases ht
  next wrapup hwrapup =>
    split at ht
    next => cases ht
    next allocation _ =>
      split at ht
      next => cases ht
      next hawaiting =>
        rw [not_or, not_or, Bool.not_eq_false, Bool.not_eq_false] at hawaiting
        split at ht
        next =>
          cases ht
          exact .refl h timely
        next hcurrent =>
          rw [Option.not_isSome_iff_eq_none, current_eq_none] at hcurrent
          split at ht
          next => cases ht
          next hlimit =>
            split at ht
            next => cases ht
            next hnew =>
              cases ht
              refine .goesOn ⟨?_, ?_, ?_, ?_⟩ (final_of_awaiting hawaiting.2.1) rfl
              · rw [List.length_append, ← h.counted]
                rfl
              · exact Nat.not_le.mp hlimit
              · refine h.rows.allocate _ hcurrent rfl fun b hb heq => hnew ?_
                rw [List.any_eq_true]
                exact ⟨b, hb, decide_eq_true (.inl heq)⟩
              · intro w hw
                cases hw
                rfl

theorem markRunning_keeps (h : s.Sound) (attemptId : String) (timely : Prop)
    (ht : s.markRunning attemptId = .ok t) : Keeps s t timely := by
  rw [markRunning] at ht
  split at ht
  next => cases ht
  next row hattempt =>
    obtain ⟨hrow, hid⟩ := attempt?_spec hattempt
    split at ht
    next => cases ht
    next hopen =>
      rw [Bool.not_eq_false] at hopen
      cases ht
      have hsame : ∀ a ∈ s.attempts, a.attemptId = attemptId → a = row :=
        fun a ha heq => h.rows.unique ha hrow (heq.trans hid.symm)
      have hf : Rewrites s.attempts fun a =>
          if a.attemptId = attemptId then { a with status := .running } else a := by
        constructor
        · intro a _
          split <;> rfl
        · intro a ha hnow
          split at hnow
          next heq => exact hsame a ha heq ▸ hopen
          next => exact hnow
        · intro a ha
          split
          next heq =>
            refine ⟨fun hs => absurd hs (by simp), fun hs => ?_⟩
            rw [hsame a ha heq] at hs
            rw [EpisodeReportAttempt.isOpen, hs] at hopen
            cases hopen
          next => exact Iff.rfl
      obtain ⟨tasks, htasks⟩ := writeTask_eq
        (s.writeAttempt attemptId fun a => { a with status := .running })
        row.allocationOperationId fun task => { task with status := .running }
      rw [htasks]
      have hnot : s.Closed → s.wrapupState.final = false := by
        intro hclosed
        rw [← Bool.not_eq_true]
        intro hfinal
        exact absurd ((hclosed.ended hfinal row hrow).symm.trans hopen) Bool.noConfusion
      refine ⟨h.rewrite hf rfl rfl rfl h.agrees, fun _ hclosed => ⟨fun hfinal => ?_, fun hfinal => ?_⟩,
        fun _ _ _ => rfl⟩
      · exact absurd ((hnot hclosed).symm.trans hfinal) Bool.noConfusion
      · exact absurd ((hnot hclosed).symm.trans hfinal) Bool.noConfusion

/-- The attempt of an error call has failed, now or before. -/
theorem failAttempt_spec (h : s.Sound) {row : EpisodeReportAttempt} (hrow : row ∈ s.attempts)
    (hnot : row.status ≠ .succeeded) (error : String) :
    ∃ f, (if row.status = .failed then s
        else s.writeAttempt row.attemptId (EpisodeReportAttempt.fail error)) =
          { s with attempts := s.attempts.map f } ∧
      Rewrites s.attempts f ∧
      (row.status ≠ .failed → ∀ a ∈ s.attempts, (f a).isOpen = false) := by
  by_cases hfailed : row.status = .failed
  · refine ⟨id, ?_, ⟨fun _ _ => rfl, fun _ _ => id, fun _ _ => Iff.rfl⟩,
      fun hne => absurd hfailed hne⟩
    rw [if_pos hfailed, List.map_id]
  · have hopen : row.isOpen = true := by
      rw [EpisodeReportAttempt.isOpen, decide_eq_true_eq]
      cases hstatus : row.status with
      | queued => exact .inl rfl
      | running => exact .inr rfl
      | succeeded => exact absurd hstatus hnot
      | failed => exact absurd hstatus hfailed
    refine ⟨fun a => if a.attemptId = row.attemptId then a.fail error else a, ?_, ?_, fun _ a ha => ?_⟩
    · rw [if_neg hfailed]
      rfl
    · refine .fail _ (fun a ha hid => ?_) error
      rw [h.rows.unique ha hrow hid]
      exact hnot
    · dsimp only
      split
      next => rfl
      next hother =>
        rw [← Bool.not_eq_true]
        intro hao
        exact hother (congrArg (·.attemptId) (h.rows.single a ha row hrow hao hopen))

theorem finishAttemptError_keeps (h : s.Sound) (attemptId error : String)
    (forceFinal providerAuth elsewhere : Bool)
    (ht : s.finishAttemptError attemptId error forceFinal providerAuth elsewhere = .ok t) :
    Keeps s t (s.TimelyError attemptId error forceFinal providerAuth elsewhere) := by
  rw [finishAttemptError] at ht
  split at ht
  next => cases ht
  next hblank =>
    split at ht
    next => cases ht
    next row hattempt =>
      obtain ⟨hrow, hid⟩ := attempt?_spec hattempt
      split at ht
      next => cases ht
      next hnot =>
        obtain ⟨f, hfail, hf, hended⟩ := failAttempt_spec h hrow hnot error
        rw [hid] at hfail
        have htask : ∃ tasks, (if providerAuth then
            ({ s with attempts := s.attempts.map f } : ReportLedger).writeTask
              row.allocationOperationId fun task =>
                { task with status := .failed, failureKind := some "provider_auth" }
            else { s with attempts := s.attempts.map f }) =
              { s with attempts := s.attempts.map f, tasks := tasks } := by
          split
          · exact writeTask_eq _ _ _
          · exact ⟨s.tasks, rfl⟩
        obtain ⟨tasks, htask⟩ := htask
        simp only [hfail, htask] at ht
        -- In a closed ledger whose wrap-up has ended, the attempt has failed before.
        have hbefore : s.Closed → s.wrapupState.final = true → row.status = .failed := by
          intro hclosed hfinal
          have hrowEnded := hclosed.ended hfinal row hrow
          rw [EpisodeReportAttempt.isOpen, decide_eq_false_iff_not, not_or] at hrowEnded
          cases hstatus : row.status with
          | queued => exact absurd hstatus hrowEnded.1
          | running => exact absurd hstatus hrowEnded.2
          | succeeded => exact absurd hstatus hnot
          | failed => rfl
        cases hlast : isFinal row forceFinal providerAuth with
        | false =>
            rw [hlast] at ht
            cases ht
            refine ⟨h.rewrite hf rfl rfl rfl fun w hw => agrees_map (fun _ => rfl) hw, ?_, ?_⟩
            · intro _ _
              exact ⟨fun hfinal => Bool.noConfusion hfinal, fun hfinal => Bool.noConfusion hfinal⟩
            · intro htimely hclosed hfinal
              have hlate := htimely row hattempt (hbefore hclosed hfinal) hblank
                fun hl => Bool.noConfusion (hlast.symm.trans hl)
              rw [if_pos hfinal] at hlate
              exact Bool.noConfusion (hlast.symm.trans hlate.1)
        | true =>
            rw [hlast, if_pos rfl] at ht
            split at ht
            next => cases ht
            next ending hending =>
              split at ht
              next => cases ht
              next helsewhere =>
                rw [failTask] at ht
                obtain ⟨tasks', htasks'⟩ := writeTask_eq
                  (({ s with attempts := s.attempts.map f, tasks := tasks } :
                    ReportLedger).failWrapup ending error)
                  row.allocationOperationId fun task => { task with status := .failed }
                rw [htasks'] at ht
                cases ht
                have hlate : s.TimelyError attemptId error forceFinal providerAuth elsewhere →
                    row.status = .failed → _ := fun htimely hfailed =>
                  htimely row hattempt hfailed hblank fun _ => (Bool.not_eq_true _).mp helsewhere
                have hclosedNow : (∀ a ∈ s.attempts, a.isOpen = false) →
                    ∀ a ∈ s.attempts.map f, a.isOpen = false := by
                  intro hall x hx
                  obtain ⟨a, ha, rfl⟩ := List.mem_map.mp hx
                  rw [← Bool.not_eq_true]
                  intro hopen
                  exact absurd ((hall a ha).symm.trans (hf.opensNone a ha hopen)) Bool.noConfusion
                refine ⟨h.rewrite hf rfl rfl rfl fun w hw => agrees_map (fun _ => rfl) hw, ?_, ?_⟩
                · intro htimely hclosed
                  refine ⟨fun _ => ?_, fun _ _ e he => ?_⟩
                  · by_cases hfailed : row.status = .failed
                    · have := hlate htimely hfailed
                      by_cases hfinal : s.wrapupState.final = true
                      · exact hclosedNow (hclosed.ended hfinal)
                      · rw [if_neg hfinal] at this
                        exact hclosedNow (this hlast)
                    · intro x hx
                      obtain ⟨a, ha, rfl⟩ := List.mem_map.mp hx
                      exact hended hfailed a ha
                  · cases hending.symm.trans he
                    rfl
                · intro htimely hclosed hfinal
                  have hsame := hlate htimely (hbefore hclosed hfinal)
                  rw [if_pos hfinal] at hsame
                  obtain ⟨-, hstate, herror, hdiagnostic⟩ := hsame
                  have hstatus := hclosed.status hfinal (List.ne_nil_of_mem hrow) ending hending
                  have hwrapup : s.wrapup.map (fun w =>
                      { w with state := .failed, diagnostic := some error }) = s.wrapup := by
                    cases hw : s.wrapup with
                    | none => rfl
                    | some w =>
                        have hw1 := (h.agrees w hw).trans hstate
                        have hw2 := hdiagnostic w hw
                        cases w
                        cases hw1
                        cases hw2
                        rfl
                  simp only [outcome, failWrapup, hstatus, hstate, herror, hwrapup]

theorem finishReady_keeps (h : s.Sound) (attemptId : String) (report : EpisodeReport)
    (bound elsewhere : Bool) (timely : Prop)
    (ht : s.finishReady attemptId report bound elsewhere = .ok t) : Keeps s t timely := by
  rw [finishReady] at ht
  split at ht
  next => cases ht
  next =>
    split at ht
    next => cases ht
    next row hattempt =>
      obtain ⟨hrow, hid⟩ := attempt?_spec hattempt
      split at ht
      next => cases ht
      next wrapup _ =>
        split at ht
        next => cases ht
        next hmatches =>
          rw [not_or, not_or, not_or, not_or] at hmatches
          obtain ⟨hreport, -, -, -, hending⟩ := hmatches
          rw [not_not] at hreport hending
          split at ht
          next => cases ht
          next =>
            split at ht
            next =>
              split at ht
              next =>
                cases ht
                exact .refl h timely
              next => cases ht
            next hnone =>
              split at ht
              next => cases ht
              next hopen =>
                rw [Bool.not_eq_false] at hopen
                split at ht
                next => cases ht
                next =>
                  obtain ⟨tasks, htasks⟩ := writeTask_eq
                    (s.writeAttempt attemptId fun a => { a with status := .succeeded, error := none })
                    report.allocationOperationId fun task => { task with status := .succeeded }
                  simp only [htasks] at ht
                  cases ht
                  have hrows := h.rows
                  rw [hnone] at hrows
                  obtain ⟨hpublished, hended⟩ :=
                    hrows.publish hrow hopen report (hreport.trans hid.symm)
                  rw [hid] at hpublished hended
                  refine ⟨⟨?_, h.few, hpublished, ?_⟩, fun _ _ => ⟨fun _ => hended, ?_⟩, ?_⟩
                  · exact h.counted.trans (List.length_map _).symm
                  · intro w hw
                    cases hw
                    rfl
                  · intro _ _ ending he
                    cases hending.symm.trans he
                    rfl
                  · intro _ hclosed hfinal
                    exact absurd ((hclosed.ended hfinal row hrow).symm.trans hopen) Bool.noConfusion

/-- The attempt that was running has failed, and none is open unless one is queued. -/
theorem failRunning_spec (h : s.Sound) (diagnostic : String) :
    ∃ f, s.failRunning diagnostic = { s with attempts := s.attempts.map f } ∧
      Rewrites s.attempts f ∧
      (s.current.map (·.status) ≠ some .queued → ∀ a ∈ s.attempts, (f a).isOpen = false) := by
  have hsame : ∃ f, s = { s with attempts := s.attempts.map f } ∧ Rewrites s.attempts f ∧
      ∀ a, f a = a := by
    refine ⟨id, ?_, ⟨fun _ _ => rfl, fun _ _ => id, fun _ _ => Iff.rfl⟩, fun _ => rfl⟩
    rw [List.map_id]
  rw [failRunning]
  split
  next current hcurrent =>
    obtain ⟨hmem, hopen⟩ := current_spec hcurrent
    split
    next hrunning =>
      refine ⟨fun a => if a.attemptId = current.attemptId then a.fail diagnostic else a, rfl, ?_,
        fun _ a ha => ?_⟩
      · refine .fail _ (fun a ha hid => ?_) diagnostic
        rw [h.rows.unique ha hmem hid, hrunning]
        exact ReportAttemptStatus.noConfusion
      · dsimp only
        split
        next => rfl
        next hother =>
          rw [← Bool.not_eq_true]
          intro hao
          exact hother (congrArg (·.attemptId) (h.rows.single a ha current hmem hao hopen))
    next hnot =>
      obtain ⟨f, hs, hf, -⟩ := hsame
      refine ⟨f, hs, hf, fun hqueued => absurd ?_ hqueued⟩
      rw [EpisodeReportAttempt.isOpen, decide_eq_true_eq] at hopen
      rw [hcurrent, Option.map_some, hopen.resolve_right hnot]
  next hnone =>
    obtain ⟨f, hs, hf, hid⟩ := hsame
    refine ⟨f, hs, hf, fun _ a ha => ?_⟩
    rw [hid]
    exact current_eq_none.mp hnone a ha

theorem retryAllocation_keeps (h : s.Sound) (operationId : String) (elsewhere : Bool)
    (timely : Prop) (ht : s.retryAllocation operationId elsewhere = .ok t) : Keeps s t timely := by
  rw [retryAllocation] at ht
  split at ht
  next => cases ht
  next allocation _ =>
    split at ht
    next => cases ht
    next hawaiting =>
      rw [not_or, Bool.not_eq_false] at hawaiting
      have hs := final_of_awaiting hawaiting.2
      split at ht
      next => cases ht
      next task _ =>
        split at ht
        next => cases ht
        next =>
          split at ht
          next =>
            cases ht
            exact .refl h timely
          next =>
            simp only at ht
            split at ht
            next => cases ht
            next =>
              obtain ⟨f, hfail, hf, hended⟩ := failRunning_spec h
                (retryDiagnostic (decide (task.status = .failed ∧
                  task.failureKind = some "provider_auth")) task.status)
              rw [hfail] at ht
              split at ht
              next hspent =>
                split at ht
                next => cases ht
                next =>
                  split at ht
                  next => cases ht
                  next ending hending =>
                    split at ht
                    next => cases ht
                    next =>
                      rw [failTask] at ht
                      obtain ⟨tasks, htasks⟩ := writeTask_eq
                        (({ s with attempts := s.attempts.map f } : ReportLedger).failWrapup ending
                          (retryDiagnostic (decide (task.status = .failed ∧
                            task.failureKind = some "provider_auth")) task.status))
                        allocation fun task => { task with status := .failed }
                      rw [htasks] at ht
                      cases ht
                      refine .ends (h.rewrite hf rfl rfl rfl
                        fun w hw => agrees_map (fun _ => rfl) hw) hs (fun _ x hx => ?_) ?_
                      · obtain ⟨a, ha, rfl⟩ := List.mem_map.mp hx
                        exact hended hspent.2 a ha
                      · intro e he
                        cases hending.symm.trans he
                        rfl
              next =>
                split at ht
                next => cases ht
                next =>
                  split at ht
                  next => cases ht
                  next =>
                    cases ht
                    have hfirst : ({ s with attempts := s.attempts.map f } : ReportLedger).Sound :=
                      h.rewrite hf rfl rfl rfl h.agrees
                    have hmoved : Rewrites (s.attempts.map f) fun a =>
                        if a.status = .queued then { a with allocationOperationId := operationId }
                        else a := by
                      constructor
                      · intro a _
                        split <;> rfl
                      · intro a _ hopen
                        split at hopen
                        · exact hopen
                        · exact hopen
                      · intro a _
                        split
                        · exact Iff.rfl
                        · exact Iff.rfl
                    exact .goesOn (hfirst.rewrite hmoved rfl rfl rfl
                      fun w hw => agrees_map (fun _ => rfl) hw) hs rfl

theorem failAllocationUnlaunchable_keeps (h : s.Sound) (diagnostic : String) (elsewhere : Bool)
    (timely : Prop) (ht : s.failAllocationUnlaunchable diagnostic elsewhere = .ok t) :
    Keeps s t timely := by
  rw [failAllocationUnlaunchable] at ht
  split at ht
  next => cases ht
  next =>
    split at ht
    next => cases ht
    next wrapup _ =>
      split at ht
      next => cases ht
      next allocation _ =>
        split at ht
        next => cases ht
        next task _ =>
          split at ht
          next => cases ht
          next =>
            split at ht
            next => cases ht
            next hbetween =>
              rw [not_or, not_or] at hbetween
              split at ht
              next =>
                split at ht
                next => cases ht
                next =>
                  cases ht
                  exact .refl h timely
              next =>
                split at ht
                next => cases ht
                next hawaiting =>
                  rw [not_or, not_or, Bool.not_eq_false] at hawaiting
                  split at ht
                  next => cases ht
                  next ending hending =>
                    split at ht
                    next => cases ht
                    next =>
                      rw [failTask] at ht
                      obtain ⟨tasks, htasks⟩ := writeTask_eq
                        (({ s with attempts := s.attempts.map fun a =>
                            if a.status = .queued then a.fail (Text.strip diagnostic) else a } :
                              ReportLedger).failWrapup ending (Text.strip diagnostic))
                        allocation fun task => { task with status := .failed }
                      rw [htasks] at ht
                      cases ht
                      have hlaunched : ∀ a ∈ s.attempts, ¬(a.status = .running ∨
                          a.status = .succeeded) := by
                        intro a ha hlaunch
                        exact hbetween.2.2 (List.any_eq_true.mpr ⟨a, ha, decide_eq_true hlaunch⟩)
                      have hf : Rewrites s.attempts fun a =>
                          if a.status = .queued then a.fail (Text.strip diagnostic) else a := by
                        refine .fail _ (fun a ha _ hs => ?_) _
                        exact hlaunched a ha (.inr hs)
                      refine .ends (h.rewrite hf rfl rfl rfl
                        fun w hw => agrees_map (fun _ => rfl) hw)
                        (final_of_awaiting hawaiting.2.1) (fun _ x hx => ?_) ?_
                      · obtain ⟨a, ha, rfl⟩ := List.mem_map.mp hx
                        split
                        next => rfl
                        next hqueued =>
                          rw [EpisodeReportAttempt.isOpen, decide_eq_false_iff_not, not_or]
                          exact ⟨hqueued, fun hr => hlaunched a ha (.inl hr)⟩
                      · intro e he
                        cases hending.symm.trans he
                        rfl

/-- One operation keeps the rows sound, and a timely one keeps a final outcome. -/
theorem step_keeps (h : s.Sound) (op : ReportOperation) : Keeps s (s.step op) (s.Timely op) := by
  rw [step]
  split
  next t ht =>
    cases op with
    | allocate attemptId => exact allocate_keeps h attemptId _ ht
    | markRunning attemptId => exact markRunning_keeps h attemptId _ ht
    | recordError attemptId error providerAuth elsewhere =>
        exact finishAttemptError_keeps h attemptId error false providerAuth elsewhere ht
    | finishError attemptId error elsewhere =>
        exact finishAttemptError_keeps h attemptId error true false elsewhere ht
    | finishReady attemptId report bound elsewhere =>
        exact finishReady_keeps h attemptId report bound elsewhere _ ht
    | retryAllocation operationId elsewhere =>
        exact retryAllocation_keeps h operationId elsewhere _ ht
    | failUnlaunchable diagnostic elsewhere =>
        exact failAllocationUnlaunchable_keeps h diagnostic elsewhere _ ht
    | taskChanges operationId task =>
        cases ht
        obtain ⟨tasks, htasks⟩ := writeTask_eq s operationId fun _ => task
        rw [htasks]
        exact .tasks h _ tasks
  next => exact .refl h _

section Runs

/-- A wrap-up that has had no report call. -/
structure Fresh (s : ReportLedger) : Prop where
  unused : s.reportAttemptsUsed = 0
  attempts : s.attempts = []
  report : s.report = none
  agrees : ∀ w, s.wrapup = some w → w.state = s.wrapupState

/-- The counts and the states agree. -/
structure Consistent (s : ReportLedger) : Prop where
  counted : s.reportAttemptsUsed = s.attempts.length
  few : s.reportAttemptsUsed ≤ 3
  single : (s.attempts.filter (·.isOpen)).length ≤ 1
  published : (∃ a ∈ s.attempts, a.status = .succeeded) ↔ s.report.isSome
  agrees : ∀ w, s.wrapup = some w → w.state = s.wrapupState

/-- The wrap-up is ready or failed, and the episode is terminal. -/
def Settled (s : ReportLedger) : Prop := s.wrapupState.final = true ∧ s.status.live = false

/-- The ledger is consistent all along, and once the outcome is settled it stays. -/
structure OneOutcome (s : ReportLedger) (ops : List ReportOperation) : Prop where
  consistent : ∀ before, before <+: ops → (s.run before).Consistent
  stays : ∀ before after, before ++ after <+: ops → (s.run before).Settled →
    (s.run (before ++ after)).outcome = (s.run before).outcome

/-- No operation of a run is a late error. -/
def TimelyRun (s : ReportLedger) (ops : List ReportOperation) : Prop :=
  ∀ before op, before ++ [op] <+: ops → (s.run before).Timely op

theorem TimelyRun.nil : s.TimelyRun [] := by
  intro before op hprefix
  exact absurd (List.prefix_nil.mp hprefix) (List.append_ne_nil_of_right_ne_nil _ (List.cons_ne_nil _ _))

theorem TimelyRun.cons {op : ReportOperation} {ops : List ReportOperation} (hop : s.Timely op)
    (h : (s.step op).TimelyRun ops) : s.TimelyRun (op :: ops) := by
  intro before other hprefix
  cases before with
  | nil =>
      obtain ⟨rfl, -⟩ := List.cons_prefix_cons.mp hprefix
      exact hop
  | cons first before =>
      obtain ⟨rfl, hrest⟩ := List.cons_prefix_cons.mp hprefix
      exact h before other hrest

theorem Sound.consistent (h : s.Sound) : s.Consistent := by
  refine ⟨h.counted, h.few, ?_, ?_, h.agrees⟩
  · have hnodup : (s.attempts.filter (·.isOpen)).Nodup :=
      (List.Nodup.of_map _ h.rows.distinct).filter _
    have hsame : ∀ a ∈ s.attempts.filter (·.isOpen), ∀ b ∈ s.attempts.filter (·.isOpen), a = b := by
      intro a ha b hb
      obtain ⟨ha, hao⟩ := List.mem_filter.mp ha
      obtain ⟨hb, hbo⟩ := List.mem_filter.mp hb
      exact h.rows.single a ha b hb hao hbo
    cases hfilter : s.attempts.filter (·.isOpen) with
    | nil => exact Nat.zero_le 1
    | cons a rest =>
        cases rest with
        | nil => exact Nat.le_refl 1
        | cons b rest =>
            rw [hfilter] at hnodup hsame
            have heq := hsame a List.mem_cons_self b (List.mem_cons_of_mem _ List.mem_cons_self)
            rw [heq] at hnodup
            exact absurd List.mem_cons_self (List.nodup_cons.mp hnodup).1
  · constructor
    · intro hsucceeded
      obtain ⟨a, ha, hs⟩ := hsucceeded
      obtain ⟨r, hr, -⟩ := (h.rows.published a ha).mp hs
      rw [hr]
      rfl
    · intro hsome
      obtain ⟨r, hr⟩ := Option.isSome_iff_exists.mp hsome
      obtain ⟨a, ha, heq⟩ := h.rows.owned r hr
      exact ⟨a, ha, (h.rows.published a ha).mpr ⟨r, hr, heq.symm⟩⟩

theorem Fresh.sound (h : s.Fresh) : s.Sound ∧ s.Closed := by
  refine ⟨⟨?_, ?_, ?_, h.agrees⟩, ⟨fun _ a ha => ?_, fun _ hne => absurd h.attempts hne⟩⟩
  · rw [h.unused, h.attempts]
    rfl
  · rw [h.unused]
    exact Nat.zero_le _
  · rw [h.attempts, h.report]
    exact ⟨List.nodup_nil, fun _ ha => absurd ha List.not_mem_nil,
      fun _ ha => absurd ha List.not_mem_nil, fun _ hr => absurd hr (Option.some_ne_none _).symm⟩
  · rw [h.attempts] at ha
    cases ha

theorem run_sound (h : s.Sound) (ops : List ReportOperation) : (s.run ops).Sound := by
  induction ops generalizing s with
  | nil => exact h
  | cons op ops ih => exact ih (step_keeps h op).sound

/-- A timely run keeps a final outcome. -/
theorem run_outcome (h : s.Sound) (hc : s.Closed) (ops : List ReportOperation)
    (htimely : s.TimelyRun ops) :
    (s.run ops).Closed ∧ (s.wrapupState.final = true → (s.run ops).outcome = s.outcome) := by
  induction ops generalizing s with
  | nil => exact ⟨hc, fun _ => rfl⟩
  | cons op ops ih =>
      have hop : s.Timely op := htimely [] op (List.prefix_append [op] ops)
      have hkeeps := step_keeps h op
      have hrest : (s.step op).TimelyRun ops := by
        intro before other hprefix
        exact htimely (op :: before) other (List.cons_prefix_cons.mpr ⟨rfl, hprefix⟩)
      obtain ⟨hclosed, houtcome⟩ := ih hkeeps.sound (hkeeps.closed hop hc) hrest
      refine ⟨hclosed, fun hfinal => ?_⟩
      have hsame := hkeeps.outcome hop hc hfinal
      have hfinal' : (s.step op).wrapupState.final = true := by
        have hstate : (s.step op).wrapupState = s.wrapupState := congrArg (fun o => o.2.1) hsame
        rw [hstate]
        exact hfinal
      exact (houtcome hfinal').trans hsame

theorem run_append (s : ReportLedger) (before after : List ReportOperation) :
    s.run (before ++ after) = (s.run before).run after := List.foldl_append

/-- Whatever the order of the operations, the ledger stays consistent; and when no error comes
late, it has one outcome. -/
theorem report_ledger_outcome (s : ReportLedger) (h : s.Fresh) (ops : List ReportOperation) :
    (s.run ops).Consistent ∧ (s.TimelyRun ops → s.OneOutcome ops) := by
  obtain ⟨hsound, hclosed⟩ := h.sound
  refine ⟨(run_sound hsound ops).consistent, fun htimely => ⟨fun before _ => ?_, ?_⟩⟩
  · exact (run_sound hsound before).consistent
  · intro before after hprefix hsettled
    have hbefore : s.TimelyRun before := fun early op hop =>
      htimely early op (hop.trans ((List.prefix_append before after).trans hprefix))
    have hafter : (s.run before).TimelyRun after := by
      intro early op hop
      rw [← run_append]
      apply htimely
      rw [List.append_assoc]
      exact ((List.prefix_append_right_inj before).mpr hop).trans hprefix
    obtain ⟨hclosed', -⟩ := run_outcome hsound hclosed before hbefore
    rw [run_append]
    exact (run_outcome (run_sound hsound before) hclosed' after hafter).2 hsettled.1

/-- An episode that has just begun its wrap-up. -/
def begun : ReportLedger where
  episodeId := "episode"
  status := .wrappingUp
  ending := some .completed
  wrapupState := .pending
  wrapupError := none
  reportAttemptsUsed := 0
  wrapup := some ⟨some "task", .pending, none⟩
  attempts := []
  report := none
  tasks := .ofList [("task", ⟨.queued, none, true⟩)]

def publishedReport : EpisodeReport :=
  ⟨"report", "episode", "second", "task", .completed, "digest", "artifact", "version", "now", none⟩

/-- The first attempt fails, which is recorded twice, and the second publishes the report. -/
def secondAttempt : List ReportOperation :=
  [ .allocate "first", .markRunning "first", .recordError "first" "timeout" false false,
    .recordError "first" "timeout" false false, .allocate "second", .markRunning "second",
    .finishReady "second" publishedReport true false ]

theorem begun_fresh : begun.Fresh := by
  refine ⟨rfl, rfl, rfl, fun w hw => ?_⟩
  cases hw
  rfl

theorem secondAttempt_timely : begun.TimelyRun secondAttempt := by
  refine .cons trivial (.cons trivial (.cons ?_ (.cons ?_
    (.cons trivial (.cons trivial (.cons trivial .nil))))))
  · -- The error is the first of its attempt.
    intro row hrow hfailed
    have hrunning : ((begun.step (.allocate "first")).step (.markRunning "first")).attempt?
        "first" = some ⟨"first", 1, "task", .running, none⟩ := by decide
    cases hrunning.symm.trans hrow
    cases hfailed
  · -- The second call meets the failed attempt, and does not close the wrap-up.
    intro row hrow _ _ _
    have hfailed : (begun.run (secondAttempt.take 3)).attempt? "first" =
        some ⟨"first", 1, "task", .failed, some "timeout"⟩ := by decide
    have hpending : (begun.run (secondAttempt.take 3)).wrapupState.final = false := by decide
    cases hfailed.symm.trans hrow
    refine (if_neg ?_).mpr fun hfinal => ?_
    · exact ne_true_of_eq_false hpending
    · revert hfinal
      decide

theorem report_ledger_outcome_begun :
    (begun.run secondAttempt).Consistent ∧ begun.OneOutcome secondAttempt := by
  obtain ⟨hconsistent, hone⟩ := report_ledger_outcome begun begun_fresh secondAttempt
  exact ⟨hconsistent, hone secondAttempt_timely⟩

/-- The first attempt's error is recorded again after the report is ready. -/
theorem late_error_reopens :
    ¬begun.OneOutcome (secondAttempt ++ [.recordError "first" "timeout" false false]) := by
  intro hone
  have hsettled : (begun.run secondAttempt).Settled := by
    rw [Settled]
    decide
  have hsame := hone.stays secondAttempt [.recordError "first" "timeout" false false]
    (List.prefix_refl _) hsettled
  have hstate := congrArg (fun o => o.2.1) hsame
  revert hstate
  decide

end Runs

end ReportLedger

end RcpGraph.Episodes
