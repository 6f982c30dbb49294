import RcpGraph.Episodes.Lifecycle

/-!
The life of a question: pending, resolved, delivered by a client receipt or by a
follow-up, and pending again when its answer is reopened.
-/

namespace RcpGraph.Episodes

/-- What a transaction may do to a question. `reopens` says when an answer is reopened. -/
inductive QuestionMove (d : Digests) (id : String) (reopens : Question → Prop) :
    Option Question → Option Question → Prop where
  | stay (q : Option Question) : QuestionMove d id reopens q q
  | created (new : NewQuestion) : QuestionMove d id reopens none (some new.row)
  | resolved {q : Question} {r : Resolution} : q.state = .pending → r.state ≠ .pending →
      QuestionMove d id reopens (some q) (some (q.resolve r))
  | reopened {q : Question} : q.state = .answered → q.followupOperationId = none → reopens q →
      QuestionMove d id reopens (some q) (some q.reopen)
  | received {q : Question} {operationId requestId now : String} : q.state = .answered →
      q.clientReceiptRevision = none → q.followupOperationId = none →
      QuestionMove d id reopens (some q) (some (q.receive operationId requestId now))
  | claimed {q : Question} {withdrawn : Bool} {operationId now : String} :
      ({ q with withdrawnReadonly := withdrawn } : Question).claimable q.answerRevision →
      (q.origin.ownerKind = .chat →
        operationId = d.questionFollowupOperationId id q.answerRevision) →
      QuestionMove d id reopens (some q)
        (some (({ q with withdrawnReadonly := withdrawn } : Question).claim operationId now))
  | withdrawn {q : Question} (b : Bool) :
      QuestionMove d id reopens (some q) (some { q with withdrawnReadonly := b })
  | dismissalDelivered {q : Question} {now : String} : q.state = .dismissed →
      QuestionMove d id reopens (some q) (some { q with dismissalDeliveredAt := some now })

/-- A question whose delivery, if there is one, is of its present answer. -/
structure Question.Sound (d : Digests) (id : String) (q : Question) : Prop where
  apart : q.clientReceiptRevision = none ∨ q.followupOperationId = none
  followed : q.followupOperationId.isSome → q.state = .answered
  received : ∀ r, q.clientReceiptRevision = some r → q.state = .answered ∧ q.answerRevision = r
  named : q.origin.ownerKind = .chat → ∀ op, q.followupOperationId = some op →
    op = d.questionFollowupOperationId id q.answerRevision

/-- What an earlier and a later row of one question have to do with each other. -/
structure Question.Since (q q' : Question) : Prop where
  revision : q.answerRevision ≤ q'.answerRevision
  /-- A revision keeps the resolution it was stored with. -/
  once : q'.answerRevision = q.answerRevision → q'.state ≠ .pending →
    q'.resolution = q.resolution
  receipt : q.clientReceiptRevision.isSome →
    q'.clientReceiptRevision = q.clientReceiptRevision ∧
      q'.clientReceiptOperationId = q.clientReceiptOperationId ∧
      q'.clientReceiptRequestId = q.clientReceiptRequestId ∧
      q'.answerRevision = q.answerRevision ∧ q'.resolution = q.resolution
  followup : q.followupOperationId.isSome →
    q'.followupOperationId = q.followupOperationId ∧
      q'.followupClaimedAt = q.followupClaimedAt ∧
      q'.answerRevision = q.answerRevision ∧ q'.resolution = q.resolution

theorem Question.Since.refl (q : Question) : q.Since q where
  revision := le_rfl
  once := fun _ _ => rfl
  receipt := fun _ => ⟨rfl, rfl, rfl, rfl, rfl⟩
  followup := fun _ => ⟨rfl, rfl, rfl, rfl⟩

theorem Question.state_of_resolution {q q' : Question} (h : q'.resolution = q.resolution) :
    q'.state = q.state := congrArg Resolution.state h

theorem Question.Since.trans {p q r : Question} (h₁ : p.Since q) (h₂ : q.Since r) : p.Since r where
  revision := h₁.revision.trans h₂.revision
  once := by
    intro hrev hst
    have hle₁ := h₁.revision
    have hle₂ := h₂.revision
    have hqr := h₂.once (by omega) hst
    have hpq := h₁.once (by omega) (by rwa [← Question.state_of_resolution hqr])
    exact hqr.trans hpq
  receipt := by
    intro hp
    obtain ⟨a, b, c, e, f⟩ := h₁.receipt hp
    obtain ⟨a', b', c', e', f'⟩ := h₂.receipt (by rwa [a])
    exact ⟨a'.trans a, b'.trans b, c'.trans c, e'.trans e, f'.trans f⟩
  followup := by
    intro hp
    obtain ⟨a, b, c, e⟩ := h₁.followup hp
    obtain ⟨a', b', c', e'⟩ := h₂.followup (by rwa [a])
    exact ⟨a'.trans a, b'.trans b, c'.trans c, e'.trans e⟩

/-- An undelivered question. -/
theorem Question.sound_of_undelivered (d : Digests) (id : String) {q : Question}
    (hrec : q.clientReceiptRevision = none) (hfol : q.followupOperationId = none) :
    q.Sound d id where
  apart := Or.inl hrec
  followed := by
    intro h
    rw [hfol] at h
    cases h
  received := by
    intro r h
    rw [hrec] at h
    cases h
  named := by
    intro _ op h
    rw [hfol] at h
    cases h

theorem Question.since_of_undelivered {q q' : Question} (hrec : q.clientReceiptRevision = none)
    (hfol : q.followupOperationId = none) (hrev : q.answerRevision ≤ q'.answerRevision)
    (honce : q'.answerRevision = q.answerRevision → q'.state ≠ .pending →
      q'.resolution = q.resolution) : q.Since q' where
  revision := hrev
  once := honce
  receipt := by
    intro h
    rw [hrec] at h
    cases h
  followup := by
    intro h
    rw [hfol] at h
    cases h

/-- A pending question has no delivery. -/
theorem Question.Sound.undelivered {d : Digests} {id : String} {q : Question} (h : q.Sound d id)
    (hst : q.state = .pending) : q.clientReceiptRevision = none ∧ q.followupOperationId = none := by
  constructor
  · cases hc : q.clientReceiptRevision with
    | none => rfl
    | some rev =>
        rw [(h.received rev hc).1] at hst
        cases hst
  · cases hc : q.followupOperationId with
    | none => rfl
    | some op =>
        rw [h.followed (by rw [hc]; rfl)] at hst
        cases hst

namespace QuestionMove

variable {d : Digests} {id : String} {reopens : Question → Prop} {q : Question}
  {o : Option Question}

/-- Nothing deletes a question; with reopening only where no receipt is, deliveries stay of the
present answer. -/
theorem since (h : QuestionMove d id reopens (some q) o)
    (hr : reopens q → q.clientReceiptRevision = none) (hq : q.Sound d id) :
    ∃ q', o = some q' ∧ q'.Sound d id ∧ q.Since q' := by
  cases h with
  | stay => exact ⟨q, rfl, hq, Question.Since.refl q⟩
  | @resolved _ r hst hrst =>
      obtain ⟨hrec, hfol⟩ := hq.undelivered hst
      refine ⟨q.resolve r, rfl, Question.sound_of_undelivered d id hrec hfol,
        Question.since_of_undelivered hrec hfol (Nat.le_succ _) ?_⟩
      intro h
      exact absurd h (Nat.succ_ne_self _)
  | reopened hst hfol hre =>
      have hrec := hr hre
      refine ⟨q.reopen, rfl, Question.sound_of_undelivered d id hrec hfol,
        Question.since_of_undelivered hrec hfol le_rfl ?_⟩
      intro _ h
      exact absurd rfl h
  | @received _ operationId requestId now hst hrec hfol =>
      refine ⟨_, rfl, ⟨Or.inr hfol, fun _ => hst, ?_, hq.named⟩,
        Question.since_of_undelivered hrec hfol le_rfl fun _ _ => rfl⟩
      rintro rev ⟨⟩
      exact ⟨hst, rfl⟩
  | @claimed _ b operationId now hclaim hname =>
      obtain ⟨hst, -, hrec, hfol, -⟩ := hclaim
      refine ⟨_, rfl, ⟨Or.inl hrec, fun _ => hst, hq.received, ?_⟩,
        Question.since_of_undelivered hrec hfol le_rfl fun _ _ => rfl⟩
      rintro hchat op ⟨⟩
      exact hname hchat
  | withdrawn b =>
      exact ⟨_, rfl, ⟨hq.apart, hq.followed, hq.received, hq.named⟩,
        ⟨le_rfl, fun _ _ => rfl, fun _ => ⟨rfl, rfl, rfl, rfl, rfl⟩, fun _ => ⟨rfl, rfl, rfl, rfl⟩⟩⟩
  | dismissalDelivered =>
      exact ⟨_, rfl, ⟨hq.apart, hq.followed, hq.received, hq.named⟩,
        ⟨le_rfl, fun _ _ => rfl, fun _ => ⟨rfl, rfl, rfl, rfl, rfl⟩, fun _ => ⟨rfl, rfl, rfl, rfl⟩⟩⟩

theorem sound_of_created (h : QuestionMove d id reopens none (some q)) : q.Sound d id := by
  cases h with
  | created new => exact Question.sound_of_undelivered d id rfl rfl

/-- A resolved question that is pending again was reopened. -/
theorem reopens_of_pending {q' : Question} (h : QuestionMove d id reopens (some q) (some q'))
    (hq : q.state ≠ .pending) (hq' : q'.state = .pending) : reopens q := by
  cases h with
  | stay => exact absurd hq' hq
  | resolved hst _ => exact absurd hst hq
  | reopened _ _ hre => exact hre
  | received => exact absurd hq' hq
  | claimed => exact absurd hq' hq
  | withdrawn => exact absurd hq' hq
  | dismissalDelivered => exact absurd hq' hq

end QuestionMove

end RcpGraph.Episodes
