import RcpGraph.Episodes.AdmissionEffects

/-!
What the question transactions do, and with it what one transaction of a run does to the
store: every episode and every question moves along its life, and a refusal changes
nothing.
-/

namespace RcpGraph.Episodes

open Crash

variable {d : Digests} {strays : Prop} {reopens : String → Question → Prop} {s : Store}

theorem createOrGetQuestion_moved (new : NewQuestion) :
    Ends (fun _ t => Moved d strays reopens s t) (fun _ => True) (createOrGetQuestion new s) := by
  unfold createOrGetQuestion
  refine Ends.read ?_
  cases s.askedAs new with
  | some q => exact Ends.ite (fun _ => Ends.raise trivial) fun _ => Ends.pure (Moved.refl s)
  | none =>
      refine Ends.ite (fun _ => Ends.raise trivial) fun hnew => ?_
      refine Ends.write (Ends.pure (Moved.of_question ?_))
      rw [(Dict.not_mem_iff _ _).mp hnew]
      exact .created new

theorem resolveQuestion_moved (id : String) {state : QuestionState} (hstate : state ≠ .pending)
    (resolvedBy : AuthorizedHuman) (answer : Option String) (choices : List String)
    (now : String) :
    Ends (fun _ t => Moved d strays reopens s t) (fun _ => True)
      (resolveQuestion id state resolvedBy answer choices now s) := by
  unfold resolveQuestion
  refine Ends.read ?_
  cases hq : s.questions.get? id with
  | none => exact Ends.raise trivial
  | some q =>
      refine Ends.ite (fun _ => Ends.raise trivial) fun _ => ?_
      refine Ends.ite (fun _ => Ends.raise trivial) fun _ => ?_
      refine Ends.ite (fun _ => Ends.raise trivial) fun _ => ?_
      refine Ends.ite (fun _ => Ends.raise trivial) fun _ => ?_
      refine Ends.ite (fun _ => Ends.ite (fun _ => Ends.pure (Moved.refl s))
        fun _ => Ends.raise trivial) fun hpending => ?_
      refine Ends.write (Ends.pure (Moved.of_question ?_))
      rw [hq]
      exact .resolved (not_not.mp hpending) hstate

theorem answerQuestion_moved (id answer : String) (choices : List String)
    (resolvedBy : AuthorizedHuman) (now : String) :
    Ends (fun _ t => Moved d strays reopens s t) (fun _ => True)
      (answerQuestion id answer choices resolvedBy now s) := by
  unfold answerQuestion
  exact Ends.ite (fun _ => Ends.raise trivial)
    fun _ => resolveQuestion_moved id (by decide) resolvedBy (some answer) choices now

theorem dismissQuestion_moved (id : String) (resolvedBy : AuthorizedHuman) (now : String) :
    Ends (fun _ t => Moved d strays reopens s t) (fun _ => True)
      (dismissQuestion id resolvedBy now s) :=
  resolveQuestion_moved id (by decide) resolvedBy none [] now

theorem settleCard_moved (id answer : String) (human : Option AuthorizedHuman) (now : String) :
    Ends (fun b t => Moved d strays reopens s t ∧ (b = false → t = s)) (fun _ => True)
      (settleCard id answer human now s) := by
  have hsame : Moved d strays reopens s s ∧ (false = false → s = s) :=
    ⟨Moved.refl s, fun _ => rfl⟩
  unfold settleCard
  refine Ends.read ?_
  cases hq : s.questions.get? id with
  | none => exact Ends.pure hsame
  | some q =>
      refine Ends.ite (fun hpending => ?_) fun _ => Ends.pure hsame
      refine Ends.write (Ends.pure ⟨Moved.of_question ?_, fun h => by cases h⟩)
      rw [hq]
      exact .resolved hpending fun h => by cases h

theorem reopenUnclaimedAnswer_moved (id : String) (rev : Nat)
    (hreopens : ∀ q, s.questions.get? id = some q → q.answerRevision = rev → reopens id q) :
    Ends (fun b t => Moved d strays reopens s t ∧ (b = false → t = s)) (fun _ => True)
      (reopenUnclaimedAnswer id rev s) := by
  have hsame : Moved d strays reopens s s ∧ (false = false → s = s) :=
    ⟨Moved.refl s, fun _ => rfl⟩
  unfold reopenUnclaimedAnswer
  refine Ends.read ?_
  cases hq : s.questions.get? id with
  | none => exact Ends.pure hsame
  | some q =>
      refine Ends.ite (fun hopen => ?_) fun _ => Ends.pure hsame
      obtain ⟨hst, hrev, hfol, -⟩ := hopen
      refine Ends.write (Ends.pure ⟨Moved.of_question ?_, fun h => by cases h⟩)
      rw [hq]
      exact .reopened hst hfol (hreopens q hq hrev)

theorem recordQuestionReceipt_moved (id : String) (rev : Nat) (operationId requestId now : String) :
    Ends (fun b t => Moved d strays reopens s t ∧ (b = false → t = s)) (fun _ => True)
      (recordQuestionReceipt id rev operationId requestId now s) := by
  have hsame : Moved d strays reopens s s ∧ (false = false → s = s) :=
    ⟨Moved.refl s, fun _ => rfl⟩
  unfold recordQuestionReceipt
  refine Ends.ite (fun _ => Ends.raise trivial) fun _ => ?_
  refine Ends.read ?_
  cases hq : s.questions.get? id with
  | none => exact Ends.pure hsame
  | some q =>
      refine Ends.ite (fun hopen => ?_) fun _ => Ends.pure hsame
      obtain ⟨hst, -, -, hrec, hfol⟩ := hopen
      refine Ends.write (Ends.pure ⟨Moved.of_question ?_, fun h => by cases h⟩)
      rw [hq]
      exact .received hst hrec hfol

theorem recordQuestionContinuationReceipt_moved (id : String) (rev : Nat)
    (operationId requestId now : String) :
    Ends (fun b t => Moved d strays reopens s t ∧ (b = false → t = s)) (fun _ => True)
      (recordQuestionContinuationReceipt id rev operationId requestId now s) := by
  have hsame : Moved d strays reopens s s ∧ (false = false → s = s) :=
    ⟨Moved.refl s, fun _ => rfl⟩
  unfold recordQuestionContinuationReceipt
  refine Ends.ite (fun _ => Ends.raise trivial) fun _ => ?_
  refine Ends.read ?_
  cases hq : s.questions.get? id with
  | none => exact Ends.pure hsame
  | some q =>
      cases s.tasks.get? operationId with
      | none => exact Ends.pure hsame
      | some task =>
          refine Ends.ite (fun _ => Ends.pure hsame) fun hopen => ?_
          refine Ends.ite (fun _ => Ends.pure hsame) fun _ => ?_
          refine Ends.ite (fun _ => Ends.pure hsame) fun _ => ?_
          push Not at hopen
          obtain ⟨hst, -, hrec, hfol, -⟩ := hopen
          refine Ends.write (Ends.pure ⟨Moved.of_question ?_, fun h => by cases h⟩)
          rw [hq]
          exact .received hst hrec hfol

theorem markQuestionDismissalDelivered_moved (id now : String) :
    Ends (fun b t => Moved d strays reopens s t ∧ (b = false → t = s)) (fun _ => True)
      (markQuestionDismissalDelivered id now s) := by
  have hsame : Moved d strays reopens s s ∧ (false = false → s = s) :=
    ⟨Moved.refl s, fun _ => rfl⟩
  unfold markQuestionDismissalDelivered
  refine Ends.read ?_
  cases hq : s.questions.get? id with
  | none => exact Ends.pure hsame
  | some q =>
      refine Ends.ite (fun hopen => ?_) fun _ => Ends.pure hsame
      refine Ends.write (Ends.pure ⟨Moved.of_question ?_, fun h => by cases h⟩)
      rw [hq]
      exact .dismissalDelivered hopen.1

theorem setWithdrawn_moved (picks : Question → Bool) (b : Bool) :
    Moved d strays reopens s (s.setWithdrawn picks b) :=
  ⟨fun _ => .stay _, ((Flagged.refl s).setWithdrawn picks b).moves⟩

/-- An unlaunchable wrap-up names the ending the episode has, if it has one. -/
def Transaction.KeepsEnding (s : Store) : Transaction → Prop
  | failUnlaunchable episodeId wrapup _ _ =>
      ∀ ep e, s.episodes.get? episodeId = some ep → s.wrapups.get? episodeId = none →
        ep.ending = some e → wrapup.ending = some e
  | _ => True

/-- The transaction reopens this revision of this question. -/
def Transaction.Reopens (t : Transaction) (questionId : String) (q : Question) : Prop :=
  t = .reopen questionId q.answerRevision

theorem accepted_ends {m : Txn PUnit} {P : Store → Prop}
    (h : Ends (fun _ t => P t) (fun _ => True) (m s)) :
    Ends (fun b t => P t ∧ (b = false → t = s)) (fun _ => True) (accepted m s) := by
  refine h.bind ?_
  intro _ t ht
  exact Ends.pure ⟨ht, fun h => by cases h⟩

theorem resolved_ends {m : Txn Question} {P : Store → Prop}
    (h : Ends (fun _ t => P t) (fun _ => True) (m s)) :
    Ends (fun b t => P t ∧ (b = false → t = s)) (fun _ => True) (resolved m s) := by
  refine h.bind ?_
  intro _ t ht
  exact Ends.pure ⟨ht, fun h => by cases h⟩

theorem admitted_ends {m : Txn (Option String)} {P : Store → Prop}
    (h : Ends (fun r t => P t ∧ (r = none → t = s)) (fun _ => True) (m s)) :
    Ends (fun b t => P t ∧ (b = false → t = s)) (fun _ => True) (admitted m s) := by
  refine h.bind ?_
  rintro r t ⟨ht, hnone⟩
  refine Ends.pure ⟨ht, fun hr => hnone ?_⟩
  exact Option.isNone_iff_eq_none.mp (by simpa using hr)

theorem Transaction.body_moved (t : Transaction) (s : Store) :
    Ends (fun b u => Moved d (¬ t.KeepsEnding s) t.Reopens s u ∧ (b = false → u = s))
      (fun _ => True) (t.body d s) := by
  cases t with
  | requestStop id who now => exact accepted_ends (requestEpisodeStop_moved id who now)
  | fenceEnding id ending diagnostic now =>
      exact accepted_ends (fenceEpisodeEnding_moved id ending diagnostic now)
  | beginWrapup id wrapup allocation insertion now =>
      exact accepted_ends (beginEpisodeWrapup_moved id wrapup allocation insertion now)
  | endWithoutReport id ending diagnostic now =>
      exact accepted_ends (endEpisodeWithoutReport_moved id ending diagnostic now)
  | failUnlaunchable id wrapup diagnostic now =>
      refine accepted_ends (failEpisodeWrapupUnlaunchable_moved id wrapup diagnostic now ?_)
      intro ep e hep hw he hne hkeeps
      exact hne (hkeeps ep e hep hw he)
  | markStopSkipped id diagnostic now =>
      exact accepted_ends (markEpisodeStopSkipped_moved d.compactEpisodeReceipt id diagnostic now)
  | experimentRun run => exact accepted_ends (createExperimentEpisodeWithInvocation_moved run)
  | watcherWake wake => exact admitted_ends (createExperimentWatcherInvocation_moved wake)
  | questionWake wake => exact admitted_ends (createExperimentQuestionInvocation_moved wake)
  | recovery r => exact accepted_ends (createExperimentRecoveryTask_moved r)
  | createQuestion new => exact resolved_ends (createOrGetQuestion_moved new)
  | answer id text choices resolvedBy now =>
      exact resolved_ends (answerQuestion_moved id text choices resolvedBy now)
  | dismiss id resolvedBy now => exact resolved_ends (dismissQuestion_moved id resolvedBy now)
  | settleCard id text human now => exact settleCard_moved id text human now
  | reopen id rev =>
      refine reopenUnclaimedAnswer_moved id rev ?_
      intro q _ hrev
      rw [Transaction.Reopens, hrev]
  | receipt id rev operationId requestId now =>
      exact recordQuestionReceipt_moved id rev operationId requestId now
  | continuationReceipt id rev operationId requestId now =>
      exact recordQuestionContinuationReceipt_moved id rev operationId requestId now
  | chatFollowup followup => exact admitted_ends (admitChatQuestionFollowup_moved followup)
  | dismissalDelivered id now => exact markQuestionDismissalDelivered_moved id now
  | setWithdrawn projectId episodeId withdrawn =>
      exact accepted_ends (Ends.modify (setWithdrawn_moved _ withdrawn))
  | withdrawIfStopped id => exact accepted_ends (Ends.modify (setWithdrawn_moved _ true))
  | settleTask operationId status => exact accepted_ends (Ends.modify (Moved.of_eq rfl rfl))
  | acknowledge a => exact accepted_ends (Ends.modify (Moved.of_eq rfl rfl))
  | sendMessage id => exact accepted_ends (Ends.modify (Moved.of_eq rfl rfl))
  | storeWatcher id watcher => exact accepted_ends (Ends.modify (Moved.of_eq rfl rfl))

/-- One transaction of a run. -/
theorem step_moved (t : Transaction) (s : Store) :
    Moved d (¬ t.KeepsEnding s) t.Reopens s (s.step d t) := by
  have h := (t.body_moved (d := d) s).atomic
  unfold Store.step
  cases hout : (t.body d).atomic s with
  | mk out u =>
      rw [hout] at h
      cases out with
      | ok b => exact h.1
      | raised e =>
          cases h
          exact Moved.refl _
      | crashed =>
          cases h
          exact Moved.refl _

/-- A refused transaction changes nothing. -/
theorem step_refused (t : Transaction) (s : Store) (hr : refused (s.answers d t)) :
    s.step d t = s := by
  have h := (t.body_moved (d := d) s).atomic
  unfold Store.answers at hr
  unfold Store.step
  cases hout : (t.body d).atomic s with
  | mk out u =>
      rw [hout] at h hr
      cases out with
      | ok b => exact h.2 hr
      | raised e => exact h
      | crashed => exact h

end RcpGraph.Episodes
