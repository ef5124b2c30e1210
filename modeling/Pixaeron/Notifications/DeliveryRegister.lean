import Pixaeron.Transactions.Registers
import Pixaeron.Notifications.System

/-! # The row of one request

What the statements of the service may do to the delivery of one request, and what none of them
undoes: what identifies it, the result that its caller gets, the provider's message identifier.
-/

namespace Pixaeron.Notifications

open Transactions Transactions.Script

/-- Some command. -/
def Call.IsSend (call : Call) : Prop :=
  ∃ request deadlineAt drawn polls, call = .send request deadlineAt drawn polls

/-- Some event. -/
def Call.IsFeedback (call : Call) : Prop := ∃ feedback drawn, call = .processFeedback feedback drawn

namespace EmailDelivery

/-- A delivery has a result unless it is pending, and feedback has left neither of the statuses
that an outcome may replace. -/
structure Settles (d : EmailDelivery) : Prop where
  answered : d.status = .pending ↔ d.callerResult = none
  followed : d.lastEvent ≠ none → d.status ≠ .pending ∧ d.status ≠ .submissionUnknown

/-- What is never taken back. -/
structure Carries (d d' : EmailDelivery) : Prop where
  id : d'.id = d.id
  requestId : d'.requestId = d.requestId
  command : d'.publicSubject = d.publicSubject ∧ d'.recipientHash = d.recipientHash ∧
    d'.purpose = d.purpose ∧
    d'.contentVersion = d.contentVersion ∧ d'.tokenFingerprint = d.tokenFingerprint
  createdAt : d'.createdAt = d.createdAt
  callerResult : d.callerResult ≠ none →
    d'.callerResult = d.callerResult ∧ d'.callerResultCode = d.callerResultCode ∧
    d'.finalizedAt = d.finalizedAt
  providerMessageId : d.providerMessageId ≠ none → d'.providerMessageId = d.providerMessageId
  submittedAt : d.submittedAt ≠ none → d'.submittedAt = d.submittedAt
  attempts : d.attemptCount ≤ d'.attemptCount

theorem Carries.refl (d : EmailDelivery) : Carries d d :=
  ⟨rfl, rfl, ⟨rfl, rfl, rfl, rfl, rfl⟩, rfl, fun _ => ⟨rfl, rfl, rfl⟩, fun _ => rfl,
    fun _ => rfl, le_rfl⟩

theorem Carries.trans {d d' d'' : EmailDelivery} (h : Carries d d')
    (h' : Carries d' d'') : Carries d d'' where
  id := h'.id.trans h.id
  requestId := h'.requestId.trans h.requestId
  command := by
    obtain ⟨hSubject, hHash, hPurpose, hVersion, hToken⟩ := h.command
    obtain ⟨hSubject', hHash', hPurpose', hVersion', hToken'⟩ := h'.command
    exact ⟨hSubject'.trans hSubject, hHash'.trans hHash, hPurpose'.trans hPurpose,
      hVersion'.trans hVersion,
      hToken'.trans hToken⟩
  createdAt := h'.createdAt.trans h.createdAt
  callerResult hSome := by
    obtain ⟨hResult, hCode, hFinal⟩ := h.callerResult hSome
    obtain ⟨hResult', hCode', hFinal'⟩ := h'.callerResult (hResult ▸ hSome)
    exact ⟨hResult'.trans hResult, hCode'.trans hCode, hFinal'.trans hFinal⟩
  providerMessageId hSome := by
    have hFirst := h.providerMessageId hSome
    exact (h'.providerMessageId (hFirst ▸ hSome)).trans hFirst
  submittedAt hSome := by
    have hFirst := h.submittedAt hSome
    exact (h'.submittedAt (hFirst ▸ hSome)).trans hFirst
  attempts := h.attempts.trans h'.attempts

/-- A statement of a command. -/
inductive SendStep : EmailDelivery → EmailDelivery → Prop
  | expired {d : EmailDelivery} {t : Nat} : d.expiredLease t = true →
      SendStep d ((expireLease t).apply d)
  | attempted {d : EmailDelivery} : d.status = .pending → d.attemptCount = 0 →
      SendStep d (setAttempted.apply d)
  | attached {d : EmailDelivery} {messageId : String} : d.providerMessageId = none →
    SendStep d ((setProviderMessageId messageId).apply d)
  | submitted {d : EmailDelivery} {t : Int} : d.submittedAt = none →
      SendStep d ((setSubmittedAt t).apply d)
  | recorded {d : EmailDelivery} {submission : SesSubmissionResult} :
      d.status ∈ submission.replaceableStatuses →
    SendStep d ((setOutcome submission).apply d)
  | answered {d : EmailDelivery} {submission : SesSubmissionResult}
      {now : Nat} : d.callerResult = none →
    SendStep d ((setCallerResult submission now).apply d)

/-- A statement of the processing of feedback. -/
inductive FeedbackStep : EmailDelivery → EmailDelivery → Prop
  | attached {d : EmailDelivery} {messageId : String} : d.providerMessageId = none ∨
      d.providerMessageId = some messageId →
    FeedbackStep d ((setProviderMessageId messageId).apply d)
  | submitted {d : EmailDelivery} {t : Int} : d.submittedAt = none →
      FeedbackStep d ((setSubmittedAt t).apply d)
  | accepted {d : EmailDelivery} {now : Nat} : d.callerResult = none →
      FeedbackStep d ((setAccepted now).apply d)
  | followed {d : EmailDelivery} {event : SesEvent} {failureCode : Option String}
      {revision : EventRevision} :
    FeedbackStep d ((setFeedback event.deliveryStatus failureCode revision).apply d)

/-- A statement about an existing row. -/
inductive RowStep (call : Call) : EmailDelivery → EmailDelivery → Prop
  | send {d d' : EmailDelivery} : call.IsSend → SendStep d d' → RowStep call d d'
  | feedback {d d' : EmailDelivery} : call.IsFeedback → FeedbackStep d d' → RowStep call d d'
  | reconcile {d : EmailDelivery} {t : Nat} : call = .expireStaleClaims → d.expiredLease t = true →
    RowStep call d ((expireLease t).apply d)

end EmailDelivery

/-- The row is created by a command, changed, or deleted by the clean-up. -/
inductive DeliveryStep (requestId : String) (call : Call) :
    Option EmailDelivery → Option EmailDelivery → Prop
  | created {d : EmailDelivery} : call.IsSend → d.requestId = requestId → d.Settles →
      DeliveryStep requestId call none (some d)
  | changed {d d' : EmailDelivery} : EmailDelivery.RowStep call d d' →
      DeliveryStep requestId call (some d) (some d')
  | deleted {d : EmailDelivery} : call = .cleanupExpiredHistory →
      DeliveryStep requestId call (some d) none

/-- The delivery of the request, while it is retained. -/
def deliveryRegister (requestId : String) : Register notifications Call (Option EmailDelivery) where
  read db := db.deliveries.get requestId
  lock := .delivery requestId
  Step := DeliveryStep requestId
  Fit row := ∀ d, row = some d → d.Settles
  Keeps before after := before ≠ none → after ≠ none

variable {requestId : String} {call : Call} {d d' : EmailDelivery}

namespace EmailDelivery

theorem RowStep.carries (h : RowStep call d d') : Carries d d' := by
  have hExpired {t : Nat} (hLease : d.expiredLease t = true) : Carries d
    ((expireLease t).apply d) := by
    have hNone : d.callerResult = none := by
      simp only [expiredLease, Bool.and_eq_true, decide_eq_true_eq] at hLease
      exact hLease.1.2
    exact { Carries.refl d with callerResult := fun hSome => absurd hNone hSome }
  cases h with
  | reconcile _ hLease => exact hExpired hLease
  | send _ hStep =>
    cases hStep with
    | expired hLease => exact hExpired hLease
    | attempted _ hFirst => exact { Carries.refl d with attempts := hFirst ▸ Nat.zero_le _ }
    | attached hNone =>
      exact { Carries.refl d with providerMessageId := fun hSome => absurd hNone hSome }
    | submitted hNone =>
      exact { Carries.refl d with submittedAt := fun hSome => absurd hNone hSome }
    | recorded _ => exact { Carries.refl d with }
    | answered hNone =>
      exact { Carries.refl d with callerResult := fun hSome => absurd hNone hSome }
  | feedback _ hStep =>
    cases hStep with
    | attached hSame =>
      refine { Carries.refl d with providerMessageId := fun hSome => ?_ }
      rcases hSame with hNone | hSame
      · exact absurd hNone hSome
      · exact hSame.symm
    | submitted hNone =>
      exact { Carries.refl d with submittedAt := fun hSome => absurd hNone hSome }
    | accepted hNone =>
      exact { Carries.refl d with callerResult := fun hSome => absurd hNone hSome }
    | followed => exact { Carries.refl d with }

end EmailDelivery

/-- What no change of the row breaks still holds of it, unless the clean-up has deleted it. -/
theorem moves_changed {P : EmailDelivery → Prop} {r r' : Option EmailDelivery}
    (h : (deliveryRegister requestId).Moves call r r') (hRow : r = some d) (hFirst : P d)
    (hNext : ∀ d d', P d → EmailDelivery.RowStep call d d' → P d') :
    (∃ d', r' = some d' ∧ P d') ∨ r' = none ∧ call = .cleanupExpiredHistory := by
  subst hRow
  induction h with
  | refl => exact .inl ⟨d, rfl, hFirst⟩
  | tail _ hStep ih =>
    cases hStep with
    | created hSend _ _ =>
      rcases ih with ⟨_, hSome, _⟩ | ⟨_, hCleanup⟩
      · cases hSome
      · obtain ⟨_, _, _, _, hSend⟩ := hSend
        cases hSend.symm.trans hCleanup
    | changed hStep =>
      rcases ih with ⟨d', hSome, hSoFar⟩ | ⟨hNone, _⟩
      · cases hSome
        exact .inl ⟨_, rfl, hNext _ _ hSoFar hStep⟩
      · cases hNone
    | deleted hCleanup => exact .inr ⟨rfl, hCleanup⟩

theorem commits_changed {P : EmailDelivery → Prop} {r' : Option EmailDelivery}
    (h : (deliveryRegister requestId).Commits call (some d) r') (hFirst : P d)
    (hNext : ∀ d d', P d → EmailDelivery.RowStep call d d' → P d') :
    ∃ d', r' = some d' ∧ P d' := by
  rcases moves_changed h.moves rfl hFirst hNext with hStill | ⟨hNone, _⟩
  · exact hStill
  · exact absurd hNone (h.keeps (Option.some_ne_none d))

theorem commits_carries {r' : Option EmailDelivery}
    (h : (deliveryRegister requestId).Commits call (some d) r') :
    ∃ d', r' = some d' ∧ d.Carries d' :=
  commits_changed h (.refl d) fun _ _ hSoFar hStep => hSoFar.trans hStep.carries

theorem later_carries {r' : Option EmailDelivery}
    (h : (deliveryRegister requestId).Later (some d) r') :
    ∃ d', r' = some d' ∧ d.Carries d' := by
  induction h with
  | refl => exact ⟨d, rfl, .refl d⟩
  | tail _ hCommit ih =>
    obtain ⟨d', rfl, hCarries⟩ := ih
    obtain ⟨_, hCommit⟩ := hCommit
    obtain ⟨d'', rfl, hNext⟩ := commits_carries hCommit
    exact ⟨d'', rfl, hCarries.trans hNext⟩

namespace EmailDelivery

/-- What feedback has left is not changed. -/
structure Spares (d d' : EmailDelivery) : Prop where
  status : d'.status = d.status
  failureCode : d'.failureCode = d.failureCode
  lastEvent : d'.lastEvent = d.lastEvent

theorem SendStep.spares (h : SendStep d d') (hPending : d.status ≠ .pending)
    (hUnknown : d.status ≠ .submissionUnknown) :
    Spares d d' := by
  cases h with
  | expired hLease =>
    simp only [expiredLease, Bool.and_eq_true, decide_eq_true_eq] at hLease
    exact absurd hLease.1.1 hPending
  | attempted hStatus _ => exact absurd hStatus hPending
  | @recorded submission hStatus =>
    cases submission <;> simp [SesSubmissionResult.replaceableStatuses, hPending, hUnknown]
      at hStatus
  | attached _ => exact ⟨rfl, rfl, rfl⟩
  | submitted _ => exact ⟨rfl, rfl, rfl⟩
  | answered _ => exact ⟨rfl, rfl, rfl⟩

theorem RowStep.spares {call : Call} (h : RowStep call d d') (hOther : ¬ call.IsFeedback)
    (hPending : d.status ≠ .pending) (hUnknown : d.status ≠ .submissionUnknown) :
    Spares d d' := by
  cases h with
  | send _ hStep => exact hStep.spares hPending hUnknown
  | feedback hFeedback _ => exact absurd hFeedback hOther
  | reconcile _ hLease =>
    simp only [expiredLease, Bool.and_eq_true, decide_eq_true_eq] at hLease
    exact absurd hLease.1.1 hPending

end EmailDelivery

theorem commits_spares {r' : Option EmailDelivery}
    (h : (deliveryRegister requestId).Commits call (some d) r') (hOther : ¬ call.IsFeedback)
    (hPending : d.status ≠ .pending) (hUnknown : d.status ≠ .submissionUnknown) :
    ∃ d', r' = some d' ∧ d.Spares d' := by
  refine commits_changed h ⟨rfl, rfl, rfl⟩ fun d₁ d₂ hSoFar hStep => ?_
  have hNext := hStep.spares hOther (hSoFar.status ▸ hPending) (hSoFar.status ▸ hUnknown)
  exact ⟨hNext.status.trans hSoFar.status, hNext.failureCode.trans hSoFar.failureCode,
    hNext.lastEvent.trans hSoFar.lastEvent⟩

end Pixaeron.Notifications
