import RcpGraph.Episodes.Records
import RcpGraph.Lib.Text

/-!
The transactions on questions: create, resolve, reopen, receive, claim and withdraw.
-/

namespace RcpGraph.Episodes

open Crash

/-- The arguments of a question and the values its creation draws. -/
structure NewQuestion where
  questionId : String
  origin : QuestionOrigin
  key : String
  argumentHash : String
  question : String
  choices : List String
  multiple : Bool
  createdAt : String

def NewQuestion.row (new : NewQuestion) : Question where
  questionId := new.questionId
  origin := new.origin
  key := new.key
  argumentHash := new.argumentHash
  question := new.question
  choices := new.choices
  multiple := new.multiple
  state := .pending
  answer := none
  chosenChoices := []
  resolvedBy := none
  resolvedAt := none
  answerRevision := 0
  clientReceiptRevision := none
  clientReceiptOperationId := none
  clientReceiptRequestId := none
  clientReceiptAt := none
  followupOperationId := none
  followupClaimedAt := none
  dismissalDeliveredAt := none
  withdrawnReadonly := false
  createdAt := new.createdAt

def writeQuestion (questionId : String) (q : Question) : Txn PUnit :=
  Prog.modify fun s => { s with questions := s.questions.insert questionId q }

/-- The question its owner already asked under the key. -/
def Store.askedAs (s : Store) (new : NewQuestion) : Option Question :=
  s.questions.values.find? fun q =>
    q.origin.projectId = new.origin.projectId && q.origin.ownerKind = new.origin.ownerKind &&
      q.origin.ownerId = new.origin.ownerId && q.key = new.key

/-- `create_or_get_question`. -/
def createOrGetQuestion (new : NewQuestion) : Txn Question := do
  let s ← Prog.get
  match s.askedAs new with
  | some q =>
      if q.argumentHash ≠ new.argumentHash then
        refuse (.questionArgumentConflict "question key already names different arguments")
      else pure q
  | none =>
      if new.questionId ∈ s.questions then refuse .integrityError
      else do
        writeQuestion new.questionId new.row
        pure new.row

/-- What a resolution stores. -/
structure Resolution where
  state : QuestionState
  answer : Option String
  chosenChoices : List String
  resolvedBy : Option AuthorizedHuman
  resolvedAt : Option String
  deriving DecidableEq, Repr

def Question.resolution (q : Question) : Resolution :=
  ⟨q.state, q.answer, q.chosenChoices, q.resolvedBy, q.resolvedAt⟩

def Question.resolve (q : Question) (r : Resolution) : Question :=
  { q with
    state := r.state
    answer := r.answer
    chosenChoices := r.chosenChoices
    resolvedBy := r.resolvedBy
    resolvedAt := r.resolvedAt
    answerRevision := q.answerRevision + 1 }

/-- `_resolve_question`. -/
def resolveQuestion (questionId : String) (state : QuestionState) (resolvedBy : AuthorizedHuman)
    (answer : Option String) (choices : List String) (now : String) : Txn Question := do
  let s ← Prog.get
  match s.questions.get? questionId with
  | none => refuse (.keyError questionId)
  | some q =>
      if q.withdrawnReadonly then
        refuse (.questionStateConflict "question is withdrawn and read-only")
      else if ¬ choices.Nodup ∨ ∃ c ∈ choices, c ∉ q.choices then
        refuse (.valueError "answer choices must be distinct offered choices")
      else if ¬ q.multiple ∧ 1 < choices.length then
        refuse (.valueError "question accepts at most one choice")
      else if state = .answered ∧ (answer.all fun a => Text.strip a = "") ∧ choices = [] then
        refuse (.valueError "answer requires text or a selected choice")
      else if q.state ≠ .pending then
        if q.state = state ∧ q.answer = answer ∧ q.chosenChoices = choices ∧
            q.resolvedBy = some resolvedBy then pure q
        else refuse (.questionStateConflict "question is already resolved")
      else do
        let resolved := q.resolve ⟨state, answer, choices, some resolvedBy, some now⟩
        writeQuestion questionId resolved
        pure resolved

/-- `ASK_ANSWER_MAX_LENGTH`. -/
def askAnswerMaxLength : Nat := 16000

def answerQuestion (questionId answer : String) (choices : List String)
    (resolvedBy : AuthorizedHuman) (now : String) : Txn Question :=
  if askAnswerMaxLength < answer.length then refuse (.valueError "invalid question answer length")
  else resolveQuestion questionId .answered resolvedBy (some answer) choices now

def dismissQuestion (questionId : String) (resolvedBy : AuthorizedHuman) (now : String) :
    Txn Question :=
  resolveQuestion questionId .dismissed resolvedBy none [] now

/-- `_settle` of an approval card, which answers the card's question while it is pending. -/
def settleCard (questionId answer : String) (human : Option AuthorizedHuman) (now : String) :
    Txn Bool := do
  let s ← Prog.get
  match s.questions.get? questionId with
  | none => pure false
  | some q =>
      if q.state = .pending then do
        writeQuestion questionId (q.resolve ⟨.answered, some answer, q.chosenChoices, human, some now⟩)
        pure true
      else pure false

/-- The id of the message that carries an answer to an Auto-research episode. -/
def answerMessageId (questionId : String) (answerRevision : Nat) : String :=
  "question:" ++ questionId ++ ":answer:" ++ toString answerRevision

def Question.reopen (q : Question) : Question :=
  { q with
    state := .pending
    answer := none
    chosenChoices := []
    resolvedBy := none
    resolvedAt := none }

/-- `reopen_unclaimed_answer`. -/
def reopenUnclaimedAnswer (questionId : String) (answerRevision : Nat) : Txn Bool := do
  let s ← Prog.get
  match s.questions.get? questionId with
  | none => pure false
  | some q =>
      if q.state = .answered ∧ q.answerRevision = answerRevision ∧
          q.followupOperationId = none ∧
          answerMessageId questionId answerRevision ∉ s.messages then do
        writeQuestion questionId q.reopen
        pure true
      else pure false

def Question.receive (q : Question) (operationId requestId now : String) : Question :=
  { q with
    clientReceiptRevision := some q.answerRevision
    clientReceiptOperationId := some operationId
    clientReceiptRequestId := some requestId
    clientReceiptAt := some now }

/-- `record_question_receipt`. -/
def recordQuestionReceipt (questionId : String) (answerRevision : Nat)
    (operationId requestId now : String) : Txn Bool :=
  if requestId = "" then refuse (.valueError "client receipt requires a transport request id")
  else do
    let s ← Prog.get
    match s.questions.get? questionId with
    | none => pure false
    | some q =>
        if q.state = .answered ∧ q.answerRevision = answerRevision ∧
            q.origin.operationId = operationId ∧ q.clientReceiptRevision = none ∧
            q.followupOperationId = none then do
          writeQuestion questionId (q.receive operationId requestId now)
          pure true
        else pure false

/-- `question_receiver_binds`. -/
def questionReceiverBinds (origin : QuestionOrigin) (task : AgentTaskRecord) : Bool :=
  task.projectId = origin.projectId && task.request.provider = some origin.provider &&
    task.request.mode = some (if origin.capability = "discuss" then "discuss" else "work") &&
    task.nativeSessionId = some origin.nativeSessionId &&
    task.stageRoot = some origin.stageRoot &&
    task.stageMachineId.getD "" = origin.stageMachineId.getD "" &&
    task.graphTarget = origin.graphTarget &&
    (task.dispatchAuthority.any fun authority =>
      authority.profile = "ordinary" && authority.taskContract = origin.capability) &&
    (origin.ownerKind ≠ .chat ||
      (task.kind = .nodeChat || task.kind = .projectChat) && task.episodeId = none &&
        task.request.chatId = some origin.ownerId)

/-- The episodes with the newest first: a continuation is stored after the episode it
continues. -/
def Store.newestEpisodes (s : Store) : List EpisodeRecord := s.episodes.values.reverse

/-- Whether the receiver's episode is the owner or continues it, in the owner's project. -/
def receiverReaches (origin : QuestionOrigin) : List EpisodeRecord → Option String → Bool
  | _, none => false
  | [], some _ => false
  | e :: older, some id =>
      if e.episodeId = id then
        e.mode = .experimentLoop && e.projectId = origin.projectId &&
          (id = origin.ownerId || receiverReaches origin older e.continuesEpisodeId)
      else receiverReaches origin older (some id)

/-- `record_question_continuation_receipt`. -/
def recordQuestionContinuationReceipt (questionId : String) (answerRevision : Nat)
    (operationId requestId now : String) : Txn Bool :=
  if requestId = "" then refuse (.valueError "client receipt requires a transport request id")
  else do
    let s ← Prog.get
    match s.questions.get? questionId, s.tasks.get? operationId with
    | some q, some task =>
        if q.state ≠ .answered ∨ q.answerRevision ≠ answerRevision ∨
            q.clientReceiptRevision ≠ none ∨ q.followupOperationId ≠ none ∨
            task.status ≠ .succeeded ∨ questionReceiverBinds q.origin task = false then
          pure false
        else if q.origin.ownerKind ≠ .chat ∧
            receiverReaches q.origin s.newestEpisodes task.episodeId = false then pure false
        else if ⟨operationId, questionId, answerRevision, requestId⟩ ∉ s.acknowledgements then
          pure false
        else do
          writeQuestion questionId (q.receive operationId requestId now)
          pure true
    | _, _ => pure false

/-- What `claim_question_followup` asks of the row. -/
def Question.claimable (q : Question) (answerRevision : Nat) : Prop :=
  q.state = .answered ∧ q.answerRevision = answerRevision ∧ q.clientReceiptRevision = none ∧
    q.followupOperationId = none ∧ q.withdrawnReadonly = false

instance (q : Question) (answerRevision : Nat) : Decidable (q.claimable answerRevision) :=
  inferInstanceAs (Decidable (_ ∧ _))

def Question.claim (q : Question) (operationId now : String) : Question :=
  { q with followupOperationId := some operationId, followupClaimedAt := some now }

/-- `claim_question_followup`. -/
def claimQuestionFollowup (questionId : String) (answerRevision : Nat) (operationId now : String) :
    Txn Bool :=
  if operationId = "" then refuse (.valueError "question follow-up requires an operation id")
  else do
    let s ← Prog.get
    match s.questions.get? questionId with
    | none => pure false
    | some q =>
        if q.claimable answerRevision then do
          writeQuestion questionId (q.claim operationId now)
          pure true
        else pure false

/-- `mark_question_dismissal_delivered`. -/
def markQuestionDismissalDelivered (questionId now : String) : Txn Bool := do
  let s ← Prog.get
  match s.questions.get? questionId with
  | none => pure false
  | some q =>
      if q.state = .dismissed ∧ q.dismissalDeliveredAt = none then do
        writeQuestion questionId { q with dismissalDeliveredAt := some now }
        pure true
      else pure false

/-- Sets `withdrawn_readonly` of the questions a condition picks. -/
def Store.setWithdrawn (s : Store) (picks : Question → Bool) (withdrawn : Bool) : Store :=
  s.changeQuestions fun q => if picks q then { q with withdrawnReadonly := withdrawn } else q

/-- `set_episode_questions_withdrawn`. -/
def setEpisodeQuestionsWithdrawn (projectId episodeId : String) (withdrawn : Bool) : Txn PUnit :=
  Prog.modify fun s => s.setWithdrawn (fun q =>
    q.origin.projectId = projectId && q.origin.ownerKind = .episode &&
      q.origin.ownerId = episodeId) withdrawn

/-- An episode and the ones it continues, whether their rows exist or not. -/
def continuationChain : List EpisodeRecord → String → List String
  | [], id => [id]
  | e :: older, id =>
      if e.episodeId = id then
        id :: match e.continuesEpisodeId with
          | some source => continuationChain older source
          | none => []
      else continuationChain older id

def Store.ownedByChain (s : Store) (episodeId : String) (q : Question) : Bool :=
  q.origin.ownerKind = .episode &&
    q.origin.ownerId ∈ continuationChain s.newestEpisodes episodeId

/-- `_withdraw_episode_question_chain`. -/
def withdrawEpisodeQuestionChain (episodeId : String) : Txn PUnit :=
  Prog.modify fun s => s.setWithdrawn (s.ownedByChain episodeId) true

/-- `_EPISODE_ANCESTORS`: the rows an episode continues, in its project. -/
def episodeAncestors : List EpisodeRecord → Option String → String → List String
  | _, none, _ => []
  | [], some _, _ => []
  | e :: older, some id, projectId =>
      if e.episodeId = id then
        if e.projectId = projectId then
          id :: episodeAncestors older e.continuesEpisodeId projectId
        else []
      else episodeAncestors older (some id) projectId

/-- `set_episode_chain_questions_withdrawn_in_connection`. -/
def setEpisodeChainQuestionsWithdrawn (episodeId : String) (withdrawn : Bool) : Txn PUnit :=
  Prog.modify fun s =>
    match s.episodes.get? episodeId with
    | none => s
    | some episode => s.setWithdrawn (fun q =>
        q.origin.ownerKind = .episode && q.origin.projectId = episode.projectId &&
          q.origin.ownerId ∈
            episodeAncestors s.newestEpisodes (some episodeId) episode.projectId) withdrawn

/-- `withdraw_episode_question_if_stopped`. -/
def withdrawEpisodeQuestionIfStopped (questionId : String) : Txn PUnit :=
  Prog.modify fun s => s.setWithdrawn (fun q =>
    q.questionId = questionId && q.origin.ownerKind = .episode &&
      (s.episodes.get? q.origin.ownerId).any fun episode =>
        episode.projectId = q.origin.projectId &&
          (episode.stopRequestedAt.isSome || episode.ending = some .stopped)) true

end RcpGraph.Episodes
