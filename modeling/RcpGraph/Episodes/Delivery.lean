import RcpGraph.Episodes.Decided

/-!
Answers over whole runs of the transactions: an answer is stored once for its revision,
delivered at most once, and never stranded.
-/

namespace RcpGraph.Episodes

open Crash

variable (d : Digests)

/-- An answer that is reopened has no client receipt. -/
def Transaction.ReopensUnreceived (s : Store) : Transaction → Prop
  | reopen questionId answerRevision =>
      ∀ q, s.questions.get? questionId = some q → q.answerRevision = answerRevision →
        q.clientReceiptRevision = none
  | _ => True

/-- Each reopening of the run meets an answer without a client receipt. -/
def ReopenUnreceived : Store → List Transaction → Prop
  | _, [] => True
  | s, t :: ts => t.ReopensUnreceived s ∧ ReopenUnreceived (s.step d t) ts

def Store.QuestionsSound (s : Store) : Prop :=
  ∀ id q, s.questions.get? id = some q → q.Sound d id

variable {d}

theorem Store.empty_questionsSound : Store.empty.QuestionsSound d := fun _ _ h => by cases h

theorem unreceived_of_reopens {t : Transaction} {s : Store} (ht : t.ReopensUnreceived s)
    {id : String} {q : Question} (hq : s.questions.get? id = some q) (hr : t.Reopens id q) :
    q.clientReceiptRevision = none := by
  rw [Transaction.Reopens] at hr
  subst hr
  exact ht q hq rfl

theorem step_question {t : Transaction} {s : Store} (ht : t.ReopensUnreceived s)
    (hs : s.QuestionsSound d) {id : String} {q : Question} (hq : s.questions.get? id = some q) :
    ∃ q', (s.step d t).questions.get? id = some q' ∧ q'.Sound d id ∧ q.Since q' := by
  have hmove := (step_moved (d := d) t s).questions id
  rw [hq] at hmove
  exact hmove.since (unreceived_of_reopens ht hq) (hs id q hq)

theorem step_questionsSound {t : Transaction} {s : Store} (ht : t.ReopensUnreceived s)
    (hs : s.QuestionsSound d) : (s.step d t).QuestionsSound d := by
  intro id q' hq'
  cases hq : s.questions.get? id with
  | none =>
      have hmove := (step_moved (d := d) t s).questions id
      rw [hq, hq'] at hmove
      exact hmove.sound_of_created
  | some q =>
      obtain ⟨q'', hq'', hsound, -⟩ := step_question ht hs hq
      cases hq'.symm.trans hq''
      exact hsound

theorem reopenUnreceived_append (s : Store) (before after : List Transaction)
    (h : ReopenUnreceived d s (before ++ after)) :
    ReopenUnreceived d s before ∧ ReopenUnreceived d (s.run d before) after := by
  induction before generalizing s with
  | nil => exact ⟨trivial, h⟩
  | cons t before ih =>
      obtain ⟨hbefore, hafter⟩ := ih (s.step d t) h.2
      exact ⟨⟨h.1, hbefore⟩, hafter⟩

/-- Along a run every question stays sound and never forgets. -/
theorem run_questions {ts : List Transaction} {s : Store} (ht : ReopenUnreceived d s ts)
    (hs : s.QuestionsSound d) :
    (s.run d ts).QuestionsSound d ∧ ∀ id q, s.questions.get? id = some q →
      ∃ q', (s.run d ts).questions.get? id = some q' ∧ q.Since q' := by
  induction ts generalizing s with
  | nil => exact ⟨hs, fun id q hq => ⟨q, hq, Question.Since.refl q⟩⟩
  | cons t ts ih =>
      obtain ⟨hsound, hsince⟩ := ih ht.2 (step_questionsSound ht.1 hs)
      refine ⟨hsound, ?_⟩
      intro id q hq
      obtain ⟨q', hq', -, hstep⟩ := step_question ht.1 hs hq
      obtain ⟨q'', hq'', hrest⟩ := hsince id q' hq'
      exact ⟨q'', hq'', hstep.trans hrest⟩

/-- No delivery of the present answer is recorded. -/
def Question.Undelivered (q : Question) : Prop :=
  q.clientReceiptRevision ≠ some q.answerRevision ∧ q.followupOperationId = none

/-- What holds between an earlier and a later store of a run. -/
structure AnswersDelivered (d : Digests) (s t : Store) : Prop where
  /-- One resolution is stored for a revision. -/
  once : ∀ id q q', s.questions.get? id = some q → t.questions.get? id = some q' →
    q'.answerRevision = q.answerRevision → q'.state ≠ .pending → q'.resolution = q.resolution
  /-- Only its reopening makes a resolved question pending. -/
  reopened : ∀ op id q q', t.questions.get? id = some q →
    (t.step d op).questions.get? id = some q' → q.state ≠ .pending → q'.state = .pending →
    op = .reopen id q.answerRevision
  apart : ∀ id q, t.questions.get? id = some q →
    q.clientReceiptRevision = none ∨ q.followupOperationId = none
  /-- A receipt names the revision of the answer it received. -/
  received : ∀ id q r, t.questions.get? id = some q → q.clientReceiptRevision = some r →
    q.state = .answered ∧ q.answerRevision = r
  /-- A follow-up carries the present answer; a chat's is named after its revision. -/
  followed : ∀ id q op, t.questions.get? id = some q → q.followupOperationId = some op →
    q.state = .answered ∧ (q.origin.ownerKind = .chat →
      op = d.questionFollowupOperationId id q.answerRevision)
  /-- A delivered answer stays, with its delivery. -/
  delivered : ∀ id q, s.questions.get? id = some q →
    q.clientReceiptRevision.isSome ∨ q.followupOperationId.isSome →
    ∃ q', t.questions.get? id = some q' ∧
      q'.clientReceiptRevision = q.clientReceiptRevision ∧
      q'.followupOperationId = q.followupOperationId ∧
      q'.answerRevision = q.answerRevision ∧ q'.resolution = q.resolution
  /-- An answer that was not delivered can be claimed. -/
  claimable : ∀ id q, t.questions.get? id = some q → q.state = .answered →
    q.withdrawnReadonly = false → q.Undelivered → ∀ operationId now, operationId ≠ "" →
    claimQuestionFollowup id q.answerRevision operationId now t =
      (.ok true, { t with questions := t.questions.insert id (q.claim operationId now) })

theorem claimQuestionFollowup_of_claimable {t : Store} {id operationId : String} {q : Question}
    {rev : Nat} (hq : t.questions.get? id = some q) (hc : q.claimable rev)
    (hop : operationId ≠ "") (now : String) :
    claimQuestionFollowup id rev operationId now t =
      (.ok true, { t with questions := t.questions.insert id (q.claim operationId now) }) := by
  simp only [claimQuestionFollowup, if_neg hop, bind, Prog.bind, Prog.get, hq, if_pos hc,
    writeQuestion, Prog.modify, pure, Prog.pure]

theorem Question.Sound.unfollowed {q : Question} {id : String} (h : q.Sound d id)
    (hr : q.clientReceiptRevision.isSome) : q.followupOperationId = none := by
  rcases h.apart with hno | hno
  · rw [hno] at hr
    cases hr
  · exact hno

theorem Question.Sound.unreceived {q : Question} {id : String} (h : q.Sound d id)
    (hf : q.followupOperationId.isSome) : q.clientReceiptRevision = none := by
  rcases h.apart with hno | hno
  · exact hno
  · rw [hno] at hf
    cases hf

theorem Question.Sound.claimable {q : Question} {id : String} (h : q.Sound d id)
    (hst : q.state = .answered) (hw : q.withdrawnReadonly = false) (hu : q.Undelivered) :
    q.claimable q.answerRevision := by
  refine ⟨hst, rfl, ?_, hu.2, hw⟩
  cases hr : q.clientReceiptRevision with
  | none => rfl
  | some r =>
      refine absurd ?_ hu.1
      rw [hr, (h.received r hr).2]

/-- The delivery of a question, whichever kind it is. -/
theorem Question.Since.delivery {q q' : Question} {id : String} (hs : q.Since q')
    (h : q.Sound d id) (h' : q'.Sound d id)
    (hd : q.clientReceiptRevision.isSome ∨ q.followupOperationId.isSome) :
    q'.clientReceiptRevision = q.clientReceiptRevision ∧
      q'.followupOperationId = q.followupOperationId ∧
      q'.answerRevision = q.answerRevision ∧ q'.resolution = q.resolution := by
  rcases hd with hrec | hfol
  · obtain ⟨hr, -, -, hrev, hres⟩ := hs.receipt hrec
    refine ⟨hr, ?_, hrev, hres⟩
    rw [h.unfollowed hrec, h'.unfollowed (by rwa [hr])]
  · obtain ⟨hf, -, hrev, hres⟩ := hs.followup hfol
    refine ⟨?_, hf, hrev, hres⟩
    rw [h.unreceived hfol, h'.unreceived (by rwa [hf])]

/-- In a run that reopens only answers without a client receipt, every answer is delivered at
most once and none is stranded. -/
theorem answers_delivered (before after : List Transaction)
    (h : ReopenUnreceived d Store.empty (before ++ after)) :
    AnswersDelivered d (Store.empty.run d before) (Store.empty.run d (before ++ after)) := by
  obtain ⟨hbefore, hafter⟩ := reopenUnreceived_append Store.empty before after h
  have hsound := (run_questions hbefore Store.empty_questionsSound).1
  rw [run_append]
  obtain ⟨hlater, hsince⟩ := run_questions hafter hsound
  refine ⟨?_, ?_, ?_, ?_, ?_, ?_, ?_⟩
  · intro id q q' hq hq' hrev hst
    obtain ⟨q'', hq'', hs⟩ := hsince id q hq
    cases hq'.symm.trans hq''
    exact hs.once hrev hst
  · intro op id q q' hq hq' hst hst'
    have hmove := (step_moved (d := d) op ((Store.empty.run d before).run d after)).questions id
    rw [hq, hq'] at hmove
    exact hmove.reopens_of_pending hst hst'
  · intro id q hq
    exact (hlater id q hq).apart
  · intro id q r hq hr
    exact (hlater id q hq).received r hr
  · intro id q op hq hop
    refine ⟨(hlater id q hq).followed (by rw [hop]; rfl), ?_⟩
    intro hchat
    exact (hlater id q hq).named hchat op hop
  · intro id q hq hdelivered
    obtain ⟨q', hq', hs⟩ := hsince id q hq
    exact ⟨q', hq', hs.delivery (hsound id q hq) (hlater id q' hq') hdelivered⟩
  · intro id q hq hst hw hu operationId now hop
    exact claimQuestionFollowup_of_claimable hq ((hlater id q hq).claimable hst hw hu) hop now

/-- A question a chat turn asks. -/
def chatQuestion : NewQuestion where
  questionId := "question"
  origin := {
    ownerKind := .chat
    projectId := "project"
    ownerId := "chat"
    operationId := "turn-1"
    provider := "codex"
    nativeSessionId := "session"
    stageRoot := "/stage"
    stageMachineId := none
    capability := "discuss"
    graphTarget := .main }
  key := "key"
  argumentHash := "hash"
  question := "Which seed?"
  choices := []
  multiple := false
  createdAt := "t1"

/-- The question is asked, answered, and the asking turn receives the answer. -/
def receivedRun : List Transaction :=
  [.createQuestion chatQuestion, .answer "question" "Seven" [] ⟨"space", "user", "User"⟩ "t2",
    .receipt "question" 1 "turn-1" "request" "t3"]

/-- The answer is reopened and answered again. -/
def reanswered : List Transaction :=
  [.reopen "question" 1, .answer "question" "Eight" [] ⟨"space", "user", "User"⟩ "t4"]

/-- The first answer is taken back before the asking turn has it, and it receives the second. -/
def reopenedRun : List Transaction :=
  [.createQuestion chatQuestion, .answer "question" "Seven" [] ⟨"space", "user", "User"⟩ "t2"]

def receivedSecond : List Transaction := reanswered ++ [.receipt "question" 2 "turn-1" "request" "t5"]

theorem reopenUnreceived_second :
    ReopenUnreceived plainDigests Store.empty (reopenedRun ++ receivedSecond) := by
  refine ⟨trivial, trivial, fun q hq => ?_, trivial, trivial, trivial⟩
  have hanswered : ((Store.empty.run plainDigests reopenedRun).questions.get? "question").all
      (fun q => q.clientReceiptRevision = none) = true := by decide +kernel
  rw [Option.all_eq_true] at hanswered
  exact fun _ => of_decide_eq_true (hanswered q hq)

theorem answers_delivered_received :
    ((Store.empty.run plainDigests (reopenedRun ++ receivedSecond)).questions.get? "question").any
        (fun q => q.answerRevision = 2 ∧ q.clientReceiptRevision = some 2) = true ∧
      AnswersDelivered plainDigests (Store.empty.run plainDigests reopenedRun)
        (Store.empty.run plainDigests (reopenedRun ++ receivedSecond)) :=
  ⟨by decide +kernel, answers_delivered reopenedRun receivedSecond reopenUnreceived_second⟩

/-- The second answer is neither delivered nor withdrawn, and its claim fails. -/
theorem answer_stranded :
    ((Store.empty.run plainDigests (receivedRun ++ reanswered)).questions.get? "question").any
        (fun q => q.state = .answered ∧ q.answerRevision = 2 ∧ q.withdrawnReadonly = false ∧
          q.clientReceiptRevision = some 1 ∧ q.followupOperationId = none) = true ∧
      (claimQuestionFollowup "question" 2 "turn-2" "t5"
        (Store.empty.run plainDigests (receivedRun ++ reanswered))).1 = .ok false := by
  decide +kernel

end RcpGraph.Episodes
