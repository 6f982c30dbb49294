import RcpGraph.Episodes.Effects

/-!
What the admissions do to the store: the Run, the two wakes, the recovery and the chat
follow-up. One that answers with nothing has changed nothing.
-/

namespace RcpGraph.Episodes

open Crash

variable {d : Digests} {strays : Prop} {reopens : String → Question → Prop} {s : Store}

theorem claimQuestionFollowup_ends (id : String) (rev : Nat) (operationId now : String)
    (s : Store) :
    Ends (fun b t => (b = false ∧ s = t) ∨ (b = true ∧ ∃ q, s.questions.get? id = some q ∧
        q.claimable rev ∧
        t = { s with questions := s.questions.insert id (q.claim operationId now) }))
      (fun _ => True) (claimQuestionFollowup id rev operationId now s) := by
  unfold claimQuestionFollowup
  refine Ends.ite (fun _ => Ends.raise trivial) fun _ => ?_
  refine Ends.read ?_
  cases hq : s.questions.get? id with
  | none => exact Ends.pure (Or.inl ⟨rfl, rfl⟩)
  | some q =>
      refine Ends.ite (fun hc => ?_) fun _ => Ends.pure (Or.inl ⟨rfl, rfl⟩)
      exact Ends.write (Ends.pure (Or.inr ⟨rfl, q, rfl, hc, rfl⟩))

theorem addInvocation_ends (id : String) (ep : EpisodeRecord) (record : AgentTaskRecord)
    (now : String) (s : Store) :
    Ends (fun _ t => t = { s with
        invocations := s.invocations ++
          [⟨id, record.operationId, ep.invocationsUsed + 1, record.createdAt⟩]
        episodes := s.episodes.insert id { ep with
          invocationsUsed := ep.invocationsUsed + 1, updatedAt := now } })
      (fun _ => True) (addInvocation id ep record now s) := by
  unfold addInvocation
  refine (insertInvocation_ends _ s).bind ?_
  rintro _ _ rfl
  exact Ends.modify rfl

/-- A row and the episode it is counted in. -/
theorem slot_insertRow (s : Store) (row : EpisodeInvocation) (ep : EpisodeRecord) (x : String) :
    ({ s with
      invocations := s.invocations ++ [row]
      episodes := s.episodes.insert row.episodeId ep } : Store).slot x =
      if x = row.episodeId then ⟨some ep, (s.slot x).wrapup, (s.slot x).rows ++ [row]⟩
      else s.slot x := by
  refine (slot_insertEpisode { s with invocations := s.invocations ++ [row] } row.episodeId x
    ep).trans ?_
  rw [slot_insertInvocation]
  by_cases hx : x = row.episodeId
  · rw [if_pos hx, if_pos hx, if_pos hx]
  · rw [if_neg hx, if_neg hx, if_neg hx]

theorem slots_addInvocation {t : Store} {id now : String} {ep : EpisodeRecord}
    {record : AgentTaskRecord} {endingReceipt : Bool} (hep : s.episodes.get? id = some ep)
    (hopen : ¬ ep.closed endingReceipt) (hlt : ¬ ep.invocationCeiling ≤ ep.invocationsUsed)
    (ht : t.slot = ({ s with
      invocations := s.invocations ++
        [⟨id, record.operationId, ep.invocationsUsed + 1, record.createdAt⟩]
      episodes := s.episodes.insert id { ep with
        invocationsUsed := ep.invocationsUsed + 1, updatedAt := now } } : Store).slot)
    (x : String) : Slot.Move strays (s.slot x) (t.slot x) := by
  unfold EpisodeRecord.closed at hopen
  push Not at hopen
  obtain ⟨-, hending, hstop, -⟩ := hopen
  have hslot := slot_insertRow s
    ⟨id, record.operationId, ep.invocationsUsed + 1, record.createdAt⟩
    { ep with invocationsUsed := ep.invocationsUsed + 1, updatedAt := now }
  apply slots_at id
  · rw [ht, hslot, if_pos rfl, Store.slot, hep]
    exact .invoked hending hstop (by omega) rfl rfl rfl rfl rfl rfl
  · intro y hy
    rw [ht, hslot, if_neg hy]

theorem createExperimentWatcherInvocation_moved (w : WatcherWake) :
    Ends (fun r t => Moved d strays reopens s t ∧ (r = none → t = s)) (fun _ => True)
      (createExperimentWatcherInvocation w s) := by
  have hsame : Moved d strays reopens s s ∧ ((none : Option String) = none → s = s) :=
    ⟨Moved.refl s, fun _ => rfl⟩
  unfold createExperimentWatcherInvocation
  cases hid : w.record.episodeId with
  | none => exact Ends.raise trivial
  | some id =>
      refine Ends.ite (fun _ => Ends.raise trivial) fun _ => ?_
      refine (pass_ends _ s).bind ?_
      rintro _ _ ⟨rfl, -⟩
      refine Ends.read ?_
      refine (pass_ends _ s).bind ?_
      rintro _ _ ⟨rfl, -⟩
      refine (readEpisode_ends id s).bind ?_
      rintro ep _ ⟨rfl, hep⟩
      refine Ends.ite (fun _ => Ends.raise trivial) fun _ => ?_
      refine Ends.ite (fun _ => Ends.pure hsame) fun hopen => ?_
      refine Ends.ite (fun _ => Ends.raise trivial) fun hlt => ?_
      refine Ends.ite (fun _ => Ends.raise trivial) fun _ => ?_
      refine (pass_ends _ s).bind ?_
      rintro _ _ ⟨rfl, -⟩
      refine Ends.ite (fun _ => Ends.pure hsame) fun _ => ?_
      refine Ends.ite (fun _ => Ends.raise trivial) fun _ => ?_
      refine (insertAgentTask_ends _ _ s).bind ?_
      rintro _ _ rfl
      refine (pass_ends _ _).bind ?_
      rintro _ _ ⟨rfl, -⟩
      refine (addInvocation_ends id ep w.record w.now _).bind ?_
      rintro _ _ rfl
      refine (claimExperimentWatchers_ends _ _ _).bind ?_
      rintro _ _ ⟨watchers, rfl⟩
      refine Ends.pure ⟨⟨slots_addInvocation hep hopen hlt rfl, fun _ => .stay _⟩, ?_⟩
      intro h
      cases h

/-- A claim of an answer, beside other writes of the transaction. -/
theorem questions_claim {t : Store} {id operationId now : String} {q : Question} {rev : Nat}
    (hq : s.questions.get? id = some q) (hc : q.claimable rev)
    (hname : q.origin.ownerKind = .chat →
      operationId = d.questionFollowupOperationId id q.answerRevision)
    (ht : t.questions = s.questions.insert id (q.claim operationId now)) (x : String) :
    QuestionMove d x (reopens x) (s.questions.get? x) (t.questions.get? x) := by
  rw [ht, Dict.get?_insert]
  by_cases hx : x = id
  · rw [if_pos hx, hx, hq]
    obtain ⟨hst, hrev, hrest⟩ := hc
    exact .claimed ⟨hst, rfl, hrest⟩ hname
  · rw [if_neg hx]
    exact .stay _

theorem createExperimentQuestionInvocation_moved (w : QuestionWake) :
    Ends (fun r t => Moved d strays reopens s t ∧ (r = none → t = s)) (fun _ => True)
      (createExperimentQuestionInvocation w s) := by
  have hsame : Moved d strays reopens s s ∧ ((none : Option String) = none → s = s) :=
    ⟨Moved.refl s, fun _ => rfl⟩
  unfold createExperimentQuestionInvocation
  refine Ends.read ?_
  cases hq : s.questions.get? w.questionId with
  | none => exact Ends.raise trivial
  | some q =>
      refine Ends.ite (fun _ => Ends.raise trivial) fun howner => ?_
      refine Ends.ite (fun _ => Ends.raise trivial) fun _ => ?_
      refine Ends.ite (fun _ => Ends.pure hsame) fun hclaim => ?_
      cases hep : s.episodes.get? (w.record.episodeId.getD "") with
      | none => exact Ends.raise trivial
      | some ep =>
          refine Ends.ite (fun _ => Ends.pure hsame) fun hopen => ?_
          refine Ends.ite (fun _ => Ends.raise trivial) fun hlt => ?_
          refine Ends.ite (fun _ => Ends.raise trivial) fun _ => ?_
          refine Ends.ite (fun _ => Ends.raise trivial) fun _ => ?_
          cases s.tasks.get? q.origin.operationId with
          | none => exact Ends.pure hsame
          | some original =>
              refine Ends.ite (fun _ => Ends.pure hsame) fun _ => ?_
              refine Ends.ite (fun _ => Ends.raise trivial) fun _ => ?_
              refine Ends.ite (fun _ => Ends.pure hsame) fun _ => ?_
              refine (pass_ends _ s).bind ?_
              rintro _ _ ⟨rfl, -⟩
              refine Ends.ite (fun _ => Ends.pure hsame) fun _ => ?_
              refine (pass_ends _ s).bind ?_
              rintro _ _ ⟨rfl, -⟩
              refine (claimQuestionFollowup_ends _ _ _ _ s).bind ?_
              rintro _ _ (⟨rfl, rfl⟩ | ⟨rfl, q', hq', hc, rfl⟩)
              · exact Ends.ite (fun _ => Ends.pure hsame) fun h => absurd rfl h
              · refine Ends.ite (fun h => by cases h) fun _ => ?_
                refine (insertAgentTask_ends _ _ _).bind ?_
                rintro _ _ rfl
                refine (addInvocation_ends _ ep w.record w.record.createdAt _).bind ?_
                rintro _ _ rfl
                refine Ends.pure ⟨⟨slots_addInvocation hep hopen hlt rfl, ?_⟩, ?_⟩
                · refine questions_claim hq' hc ?_ rfl
                  intro hchat
                  cases hq.symm.trans hq'
                  rw [hchat] at howner
                  exact absurd (by decide) howner
                · intro h
                  cases h

theorem createExperimentRecoveryTask_moved (r : Recovery) :
    Ends (fun _ t => Moved d strays reopens s t) (fun _ => True)
      (createExperimentRecoveryTask r s) := by
  unfold createExperimentRecoveryTask
  cases r.record.episodeId with
  | none => exact Ends.raise trivial
  | some id =>
      refine Ends.ite (fun _ => Ends.raise trivial) fun _ => ?_
      refine (readEpisode_ends id s).bind ?_
      rintro ep _ ⟨rfl, -⟩
      refine Ends.read ?_
      refine Ends.ite (fun _ => Ends.raise trivial) fun _ => ?_
      refine (pass_ends _ s).bind ?_
      rintro _ _ ⟨rfl, -⟩
      refine Ends.ite (fun _ => Ends.raise trivial) fun _ => ?_
      refine Ends.ite (fun _ => Ends.raise trivial) fun _ => ?_
      refine Ends.ite (fun _ => Ends.raise trivial) fun _ => ?_
      refine Ends.ite (fun _ => Ends.raise trivial) fun _ => ?_
      refine Ends.ite (fun _ => Ends.raise trivial) fun _ => ?_
      refine (insertAgentTask_ends _ _ s).weaken ?_ fun _ _ => trivial
      rintro _ _ rfl
      exact Moved.of_eq rfl rfl

theorem admitChatQuestionFollowup_moved (c : ChatFollowup) :
    Ends (fun r t => Moved d strays reopens s t ∧ (r = none → t = s)) (fun _ => True)
      (admitChatQuestionFollowup d.questionFollowupOperationId c s) := by
  have hsame : Moved d strays reopens s s ∧ ((none : Option String) = none → s = s) :=
    ⟨Moved.refl s, fun _ => rfl⟩
  unfold admitChatQuestionFollowup
  refine Ends.read ?_
  cases hq : s.questions.get? c.questionId with
  | none => exact Ends.raise trivial
  | some q =>
      refine Ends.ite (fun _ => Ends.pure hsame) fun _ => ?_
      refine Ends.ite (fun _ => Ends.raise trivial) fun _ => ?_
      cases s.tasks.get? q.origin.operationId with
      | none => exact Ends.raise trivial
      | some task =>
          refine Ends.ite (fun _ => Ends.raise trivial) fun _ => ?_
          refine Ends.ite (fun _ => Ends.raise trivial) fun _ => ?_
          refine Ends.ite (fun _ => Ends.raise trivial) fun _ => ?_
          refine Ends.ite (fun _ => Ends.raise trivial) fun _ => ?_
          refine Ends.ite (fun _ => Ends.raise trivial) fun _ => ?_
          refine (pass_ends _ s).bind ?_
          rintro _ _ ⟨rfl, -⟩
          refine Ends.ite (fun _ => Ends.raise trivial) fun _ => ?_
          refine (claimQuestionFollowup_ends _ _ _ _ s).bind ?_
          rintro _ _ (⟨rfl, rfl⟩ | ⟨rfl, q', hq', hc, rfl⟩)
          · exact Ends.ite (fun _ => Ends.pure hsame) fun h => absurd rfl h
          · refine Ends.ite (fun h => by cases h) fun _ => ?_
            refine (insertAgentTask_ends _ _ _).bind ?_
            rintro _ _ rfl
            cases hq.symm.trans hq'
            refine Ends.pure ⟨⟨fun _ => .stay _, questions_claim hq hc (fun _ => rfl) rfl⟩, ?_⟩
            intro h
            cases h

/-- A continuation changes whether a question is withdrawn, and may claim it for an episode. -/
def Carried (s t : Store) : Prop :=
  ∀ id, (s.questions.get? id = none ∧ t.questions.get? id = none) ∨
    ∃ q b, s.questions.get? id = some q ∧
      (t.questions.get? id = some { q with withdrawnReadonly := b } ∨
        q.origin.ownerKind = .episode ∧
          ({ q with withdrawnReadonly := b } : Question).claimable q.answerRevision ∧
          ∃ operationId now, t.questions.get? id =
            some (({ q with withdrawnReadonly := b } : Question).claim operationId now))

theorem Flagged.carried {t : Store} (h : Flagged s t) : Carried s t := by
  intro id
  rcases h id with hnone | ⟨q, b, hs, ht⟩
  · exact Or.inl hnone
  · exact Or.inr ⟨q, b, hs, Or.inl ht⟩

theorem Carried.moves {t : Store} (h : Carried s t) (id : String) :
    QuestionMove d id (reopens id) (s.questions.get? id) (t.questions.get? id) := by
  rcases h id with ⟨hs, ht⟩ | ⟨q, b, hs, ht | ⟨howner, hc, op, now, ht⟩⟩
  · rw [hs, ht]
    exact .stay none
  · rw [hs, ht]
    exact .withdrawn b
  · rw [hs, ht]
    refine .claimed hc ?_
    intro hchat
    rw [howner] at hchat
    cases hchat

/-- A claimed question cannot be claimed again, so each is claimed once. -/
theorem Carried.claim {t : Store} (h : Carried s t) {id operationId now : String} {q q' : Question}
    {rev : Nat} (hq : s.questions.get? id = some q) (howner : q.origin.ownerKind = .episode)
    (hq' : t.questions.get? id = some q') (hc : q'.claimable rev) :
    Carried s { t with questions := t.questions.insert id (q'.claim operationId now) } := by
  intro x
  by_cases hx : x = id
  · subst hx
    refine Or.inr ?_
    rcases h x with ⟨hs, -⟩ | ⟨q₀, b, hs, ht⟩
    · rw [hq] at hs
      cases hs
    · cases hq.symm.trans hs
      refine ⟨q, b, hq, Or.inr ⟨howner, ?_⟩⟩
      rcases ht with ht | ⟨-, -, op, now', ht⟩
      · cases hq'.symm.trans ht
        refine ⟨⟨hc.1, rfl, hc.2.2⟩, operationId, now, ?_⟩
        exact Dict.get?_insert_self _ _ _
      · cases hq'.symm.trans ht
        cases hc.2.2.2.1
  · have hget : ({ t with questions := t.questions.insert id (q'.claim operationId now) } :
        Store).questions.get? x = t.questions.get? x := by
      rw [Dict.get?_insert, if_neg hx]
    rw [hget]
    exact h x

theorem claimQuestionFollowups_ends (operationId now : String) (rows : List (String × Question))
    (hrows : ∀ row ∈ rows, s.questions.get? row.1 = some row.2 ∧
      row.2.origin.ownerKind = .episode) (t : Store) (h : Carried s t) :
    Ends (fun _ u => (∃ qs, u = { t with questions := qs }) ∧ Carried s u) (fun _ => True)
      (claimQuestionFollowups operationId now rows t) := by
  induction rows generalizing t with
  | nil => exact Ends.pure ⟨⟨t.questions, rfl⟩, h⟩
  | cons row rows ih =>
      unfold claimQuestionFollowups
      refine (claimQuestionFollowup_ends _ _ _ _ t).bind ?_
      obtain ⟨hq, howner⟩ := hrows row List.mem_cons_self
      have hrest := fun r hr => hrows r (List.mem_cons_of_mem row hr)
      rintro _ _ (⟨-, rfl⟩ | ⟨-, q', hq', hc, rfl⟩)
      · exact ih hrest t h
      · refine (ih hrest _ (h.claim hq howner hq' hc)).weaken ?_ fun _ _ => trivial
        rintro _ u ⟨⟨qs, rfl⟩, hu⟩
        exact ⟨⟨qs, rfl⟩, hu⟩

theorem Store.claimableBy_mem (record : AgentTaskRecord) (source : String)
    (row : String × Question) (h : row ∈ s.claimableBy record source) :
    s.questions.get? row.1 = some row.2 ∧ row.2.origin.ownerKind = .episode := by
  have hmem := List.mem_filter.mp (List.mem_mergeSort.mp (List.mem_of_mem_take h))
  refine ⟨(Dict.get?_eq_some_iff _ _ _).mpr hmem.1, ?_⟩
  have hpicked := hmem.2
  simp only [Bool.and_eq_true, Store.ownedByChain, decide_eq_true_eq] at hpicked
  exact hpicked.1.1.1

theorem Flagged.trans_carried {t u : Store} (h₁ : Flagged s t) (h₂ : Carried t u) :
    Carried s u := by
  intro id
  rcases h₁ id with ⟨hs, ht⟩ | ⟨q, b, hs, ht⟩
  · rcases h₂ id with ⟨-, hu⟩ | ⟨q', -, ht', -⟩
    · exact Or.inl ⟨hs, hu⟩
    · rw [ht] at ht'
      cases ht'
  · rcases h₂ id with ⟨ht', -⟩ | ⟨q', b', ht', hu⟩
    · rw [ht] at ht'
      cases ht'
    · cases ht.symm.trans ht'
      exact Or.inr ⟨q, b', hs, hu⟩

theorem setEpisodeChainQuestionsWithdrawn_ends (id : String) (b : Bool) (s : Store) :
    Ends (fun _ t => (∃ qs, t = { s with questions := qs }) ∧ Flagged s t) (fun _ => True)
      (setEpisodeChainQuestionsWithdrawn id b s) := by
  unfold setEpisodeChainQuestionsWithdrawn
  refine Ends.modify ?_
  cases s.episodes.get? id with
  | none => exact ⟨⟨s.questions, rfl⟩, Flagged.refl s⟩
  | some ep => exact ⟨⟨_, rfl⟩, (Flagged.refl s).setWithdrawn _ b⟩

theorem reopenChainQuestions_ends (record : AgentTaskRecord) (source now : String) (s : Store) :
    Ends (fun _ t => (∃ qs, t = { s with questions := qs }) ∧ Carried s t) (fun _ => True)
      (reopenChainQuestions record source now s) := by
  unfold reopenChainQuestions
  refine Ends.read (Ends.write ?_)
  refine (claimQuestionFollowups_ends _ _ _ (Store.claimableBy_mem record source) _
    (((Flagged.refl s).setWithdrawn _ false).setWithdrawn _ true).carried).weaken ?_
    fun _ _ => trivial
  rintro _ t ⟨⟨qs, rfl⟩, ht⟩
  exact ⟨⟨qs, rfl⟩, ht⟩

theorem continueQuestions_ends (r : ExperimentRun) (id : String) (s : Store) :
    Ends (fun _ t => (∃ qs, t = { s with questions := qs }) ∧ Carried s t) (fun _ => True)
      (r.continueQuestions id s) := by
  unfold ExperimentRun.continueQuestions
  cases r.continuesEpisodeId with
  | none => exact Ends.pure ⟨⟨s.questions, rfl⟩, (Flagged.refl s).carried⟩
  | some source =>
      refine (setEpisodeChainQuestionsWithdrawn_ends id false s).bind ?_
      rintro _ _ ⟨⟨qs, rfl⟩, hflag⟩
      refine (reopenChainQuestions_ends r.record source r.now _).weaken ?_ fun _ _ => trivial
      rintro _ _ ⟨⟨qs', rfl⟩, hcarried⟩
      exact ⟨⟨qs', rfl⟩, hflag.trans_carried hcarried⟩

theorem newEpisode_ok {r : ExperimentRun} {ep : EpisodeRecord} (h : r.newEpisode = .ok ep) :
    ep.ending = none ∧ ep.stopRequestedAt = none ∧ 1 ≤ ep.invocationCeiling := by
  unfold ExperimentRun.newEpisode at h
  cases hid : r.record.request.controlEpisodeId with
  | none => simp [hid] at h
  | some id =>
      cases hnode : r.record.request.controlNodeId with
      | none => simp [hid, hnode] at h
      | some node =>
          cases hceiling : r.record.request.controlInvocationCeiling with
          | none => simp [hid, hnode, hceiling] at h
          | some ceiling =>
              simp only [hid, hnode, hceiling] at h
              split_ifs at h with hbad
              push Not at hbad
              obtain ⟨-, -, -, -, -, -, -, -, -, -, hpos⟩ := hbad
              cases h
              exact ⟨rfl, rfl, hpos⟩

theorem createExperimentEpisodeWithInvocation_moved (r : ExperimentRun) :
    Ends (fun _ t => Moved d strays reopens s t) (fun _ => True)
      (createExperimentEpisodeWithInvocation r s) := by
  unfold createExperimentEpisodeWithInvocation
  cases hnew : r.newEpisode with
  | error e => exact Ends.raise trivial
  | ok ep =>
      obtain ⟨hending, hstop, hceiling⟩ := newEpisode_ok hnew
      refine Ends.read ?_
      refine (pass_ends _ s).bind ?_
      rintro _ _ ⟨rfl, hchecks⟩
      have hfresh : s.episodes.get? ep.episodeId = none := by
        have hcheck := List.findSome?_eq_none_iff.mp hchecks
          (if ep.episodeId ∈ s.episodes then
            some (.valueError "This Experiment episode id is already in use.") else none)
          (by simp [ExperimentRun.checks])
        by_contra hused
        rw [if_pos (not_not.mp fun h => hused ((Dict.not_mem_iff _ _).mp h))] at hcheck
        cases hcheck
      refine Ends.write ?_
      refine (continueQuestions_ends r ep.episodeId _).bind ?_
      rintro _ _ ⟨⟨qs, rfl⟩, hcarried⟩
      refine (insertAgentTask_ends _ _ _).bind ?_
      rintro _ _ rfl
      refine (pass_ends _ _).bind ?_
      rintro _ _ ⟨rfl, -⟩
      refine (insertInvocation_ends _ _).bind ?_
      rintro _ _ rfl
      refine (claimExperimentWatchers_ends _ _ _).weaken ?_ fun _ _ => trivial
      rintro _ _ ⟨watchers, rfl⟩
      refine ⟨?_, hcarried.moves⟩
      have hslot := slot_insertRow s ⟨ep.episodeId, r.record.operationId, 1, r.record.createdAt⟩
        { ep with
          rootOperationId := some r.record.operationId
          status := .running
          invocationsUsed := 1
          updatedAt := r.record.createdAt }
      apply slots_at ep.episodeId
      · refine Eq.subst (motive := fun v => Slot.Move strays _ v) (hslot ep.episodeId).symm ?_
        rw [if_pos rfl, Store.slot, hfresh]
        exact .created rfl hending hstop rfl hceiling rfl
      · intro y hy
        exact (hslot y).trans (if_neg hy)

end RcpGraph.Episodes
