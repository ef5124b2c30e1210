import Pixaeron.Notifications.Verified.Commands

/-! # Verified: deliveries

Feedback, reconciliation and the clean-up follow the delivery of any request, too, so the whole
service does.
-/

namespace Pixaeron.Notifications.Deliveries

open Transactions Transactions.Script

variable {services : EmailServices} {ring : KeyRing} {k : String} {call : Call} {stage : Stage}
  {seen r : Option EmailDelivery} {delivery : EmailDelivery}

/-! ## Feedback -/

section Feedback

variable {applied : AppliedFeedback} {recipientHashes : List RecipientHash}

theorem aside_upsertDestination {row : EmailDestination} {update : Option DestinationChange} :
    Aside k (AppliedFeedback.upsertDestination row update) := by
  refine aside_change (fun _ hMem => by cases List.mem_singleton.mp hMem) fun v db => ?_
  split <;> rfl

theorem aside_findAuthoritativeDestination {where_ : EmailDestination → Bool} :
    Aside k (AppliedFeedback.findAuthoritativeDestination where_) :=
  Register.Aside.query.bind fun found => by cases found <;> trivial

theorem aside_suppressDestination {revision : Nat} {alias_ : RecipientHash} :
    Aside k (applied.suppressDestination revision alias_) :=
  aside_upsertDestination.bind fun _ => aside_updateDestinations.bind fun _ =>
    aside_updateDestinations.bind fun _ => trivial

theorem aside_suppressDestinationAliases :
    Aside k (applied.suppressDestinationAliases recipientHashes) :=
  Register.Aside.query.bind fun _ =>
    (Register.Aside.forEach (fun _ => aside_suppressDestination) _).bind fun _ =>
    aside_findAuthoritativeDestination.bind fun _ => aside_updateDestinations.bind fun _ => trivial

theorem aside_updateNonterminalDestination {status : EmailDestinationStatus}
    {alias_ : RecipientHash} :
    Aside k (applied.updateNonterminalDestination status alias_) :=
  aside_upsertDestination.bind fun _ => aside_updateDestinations.bind fun _ => trivial

theorem aside_convergeNonterminalAliases :
    Aside k (AppliedFeedback.convergeNonterminalAliases recipientHashes) := by
  unfold AppliedFeedback.convergeNonterminalAliases
  split
  · trivial
  · exact aside_findAuthoritativeDestination.bind fun _ =>
      aside_updateDestinations.bind fun _ => trivial

theorem aside_applyDestinationTransition :
    Aside k (applied.applyDestinationTransition recipientHashes) := by
  unfold AppliedFeedback.applyDestinationTransition
  split
  · exact aside_lockRecipientAliases.bind fun _ => aside_suppressDestinationAliases
  · split
    · trivial
    · refine aside_lockRecipientAliases.bind fun _ => Register.Aside.query.bind fun blocked => ?_
      split
      · trivial
      · exact (Register.Aside.forEach (fun _ => aside_updateNonterminalDestination) _).bind fun _ =>
          aside_convergeNonterminalAliases

/-- Feedback has made sure that the command has a result. -/
def Accepted (d : EmailDelivery) : Prop :=
  d.callerResult ≠ none ∧ (d.lastEvent ≠ none → d.status ≠ .pending ∧ d.status ≠ .submissionUnknown)

theorem stable_accepted : Stable Accepted :=
  fun _ _ hAccepted _ hCarries hAfter =>
    ⟨(hCarries.callerResult hAccepted.1).1 ▸ hAccepted.1, hAfter.followed⟩

theorem follows_recordProviderAcceptance (hFeedback : call.IsFeedback)
    (h : Midway k applied.delivery EmailDelivery.Settles stage seen) :
    Follows k call (fun stage _ r => Midway k applied.delivery Accepted stage r)
      applied.recordProviderAcceptance stage seen := by
  refine Register.Follows.bind
    ((h.follows_update stable_settles (fun d hSettles hNone => ?_)
    fun d hSettles _ => hSettles).mono
    fun _ _ _ hHere =>
      Register.Follows.bind (Register.Follows.readClock fun now => Register.Follows.bind
      (hHere.follows_update stable_settles (fun d hSettles hNone => ?_) fun d hSettles hSome =>
        ?_)))
  · exact ⟨.feedback hFeedback (.submitted (of_decide_eq_true hNone)), hSettles.answered,
      hSettles.followed⟩
  · exact ⟨.feedback hFeedback (.accepted (of_decide_eq_true hNone)),
      by simp [EmailDelivery.setAccepted], hSettles.followed⟩
  · exact ⟨of_decide_eq_false hSome, hSettles.followed⟩

theorem deliveryStatus_touched (event : SesEvent) :
    event.deliveryStatus ≠ .pending ∧ event.deliveryStatus ≠ .submissionUnknown := by
  cases event <;> simp only [SesEvent.deliveryStatus] <;> (try split) <;> simp

/-- The two updates that follow an event differ in the rows they leave alone, and neither leaves a
pending one alone. -/
theorem follows_setFeedback {name : Statement} {cond : EmailDelivery → Bool}
    {failureCode : Option String} {event : SesEvent} {revision : EventRevision}
    (hFeedback : call.IsFeedback) (h : Midway k delivery Accepted stage seen)
    (hPending : ∀ d, d.status = .pending → d.lastEvent = none → cond d = true) :
    Follows k call (fun stage _ r => Midway k delivery EmailDelivery.Settles stage r)
      (updateDeliveries name (fun d => delivery.is d && cond d)
        (EmailDelivery.setFeedback event.deliveryStatus failureCode revision)) stage seen := by
  obtain ⟨hNotPending, hNotUnknown⟩ := deliveryStatus_touched event
  refine h.follows_update stable_accepted (fun d hAccepted _ =>
    ⟨.feedback hFeedback .followed, ?_, fun _ => ⟨hNotPending, hNotUnknown⟩⟩)
    fun d hAccepted hSkipped => ⟨?_, hAccepted.2⟩
  · exact ⟨fun hSame => absurd hSame hNotPending, fun hNone => absurd hNone hAccepted.1⟩
  · refine ⟨fun hSame => ?_, fun hNone => absurd hNone hAccepted.1⟩
    have hNoEvent : d.lastEvent = none := by
      by_contra hEvent
      exact (hAccepted.2 hEvent).1 hSame
    cases (hPending d hSame hNoEvent).symm.trans hSkipped

theorem follows_applyDeliveryTransition (hFeedback : call.IsFeedback)
    (h : Midway k applied.delivery Accepted stage seen) :
    Follows k call (fun stage _ r => Midway k applied.delivery EmailDelivery.Settles stage r)
      applied.applyDeliveryTransition
      stage seen := by
  unfold AppliedFeedback.applyDeliveryTransition
  dsimp only
  split
  · refine Register.Follows.bind (follows_setFeedback hFeedback h fun d hSame _ => ?_)
    simp [hSame, terminalDeliveryStatuses]
  · have hShape : (fun d => applied.delivery.is d && d.status ∉ terminalDeliveryStatuses &&
        newerEventFilters applied.revision d.lastEvent) = fun d => applied.delivery.is d &&
          (d.status ∉ terminalDeliveryStatuses && newerEventFilters applied.revision d.lastEvent) :=
      funext fun d => Bool.and_assoc _ _ _
    rw [hShape]
    refine Register.Follows.bind (follows_setFeedback hFeedback h fun d hSame hNone => ?_)
    simp [hSame, hNone, terminalDeliveryStatuses]

theorem follows_transitions (hFeedback : call.IsFeedback)
    (h : Midway k applied.delivery EmailDelivery.Settles stage seen) :
    Follows k call (fun stage _ r => stage ≠ .outside ∧ (stage = .locked → Settled r))
      (applied.transitions recipientHashes)
      stage seen := by
  refine Register.Follows.bind ((follows_recordProviderAcceptance hFeedback h).mono
    fun _ _ _ hAccepted => Register.Follows.bind
    ((follows_applyDeliveryTransition hFeedback hAccepted).mono fun stage _ r hHere => ?_))
  refine (Register.Follows.of_aside (I := Midway k applied.delivery EmailDelivery.Settles stage)
    aside_applyDestinationTransition
    (fun _ _ hMidway hSees hFit => hMidway.sees stable_settles hSees hFit) hHere).mono ?_
  rintro stage _ r ⟨rfl, hMidway⟩
  exact ⟨hMidway.inside, fun _ => hMidway.settled⟩

theorem follows_findDelivery {base : Services} {feedback : SesFeedback} :
    Follows k call (fun stage delivery r => stage = .unlocked ∧ Known k delivery r)
      (findDelivery base feedback recipientHashes)
      .unlocked seen := by
  have hRow {v : View notifications} {d : EmailDelivery}
    (hGet : v.db.deliveries.get d.requestId = some d)
      (hFit : Settled ((deliveryRegister k).read v.db)) : Known k d
        ((deliveryRegister k).read v.db) :=
    ⟨fun hKey => ⟨d, hKey ▸ hGet, .refl d⟩, hFit⟩
  refine Register.Follows.bind (Register.Follows.query fun v hSees hFit => ?_)
  have hNow := hFit (by simp)
  have hMessage (d : EmailDelivery) (hFound : v.db.deliveryByMessage feedback.sesMessageId =
    some d) :
      Known k d ((deliveryRegister k).read v.db) :=
    hRow (Table.get_of_mem (List.mem_of_find?_eq_some hFound)) hNow
  have hBoth {rest : Option EmailDelivery → Script notifications EmailDelivery}
      (hRest : ∀ byRequestId r,
        (∀ d, v.db.deliveryByMessage feedback.sesMessageId = some d → Known k d r) →
        (∀ d, byRequestId = some d → Known k d r) →
        Follows k call (fun stage delivery r => stage = .unlocked ∧ Known k delivery r)
          (rest byRequestId) .unlocked r) :
      Follows k call (fun stage delivery r => stage = .unlocked ∧ Known k delivery r)
        (if feedback.requestId.any base.isUUID = true then
          (query Statement.findByRequestId fun v : View notifications => feedback.requestId.bind
            v.db.deliveries.get).bind rest
        else (Script.done none).bind rest) .unlocked ((deliveryRegister k).read v.db) := by
    split
    · refine Register.Follows.bind (Register.Follows.query fun v' hSees' hFit' =>
        hRest _ _ (fun d hFound => ?_) fun d hFound => ?_)
      · exact (hMessage d hFound).sees (by simp) hSees' (hFit' (by simp))
      · obtain ⟨requestId, _, hGet⟩ := Option.bind_eq_some_iff.mp hFound
        exact hRow (Table.key_of_get hGet ▸ hGet) (hFit' (by simp))
    · exact hRest none _ hMessage fun d hNone => by cases hNone
  refine hBoth fun byRequestId r hByMessage hByRequest => ?_
  refine Register.Follows.bind (Register.Follows.check fun _ =>
    Register.Follows.bind (Register.Follows.check fun _ => ?_))
  cases hFound : (v.db.deliveryByMessage feedback.sesMessageId).or byRequestId with
  | none => trivial
  | some delivery =>
    refine Register.Follows.bind (Register.Follows.check fun _ => follows_done ⟨rfl, ?_⟩)
    rcases Option.or_eq_some_iff.mp hFound with hHere | ⟨_, hHere⟩
    · exact hByMessage delivery hHere
    · exact hByRequest delivery hHere

theorem follows_attachProviderMessageId {messageId : String} (hFeedback : call.IsFeedback)
    (h : Known k delivery seen) :
    Follows k call (fun stage _ r => Midway k delivery EmailDelivery.Settles stage r)
      (attachProviderMessageId delivery messageId)
      .unlocked seen := by
  have hHere := h.midway (P := EmailDelivery.Settles) fun _ hSettles => hSettles
  unfold attachProviderMessageId
  split
  · exact follows_done hHere
  · refine Register.Follows.bind
      ((hHere.follows_attach stable_settles fun d hSettles hFree => ?_).mono fun _ _ _ hAttached =>
      Register.Follows.check fun _ => hAttached)
    rw [Bool.or_eq_true, decide_eq_true_eq, decide_eq_true_eq] at hFree
    exact ⟨.feedback hFeedback (.attached hFree), hSettles.answered, hSettles.followed⟩

theorem aside_createEvent {feedback : SesFeedback} {fingerprint eventId : String} :
    Aside k (createEvent feedback delivery fingerprint eventId) := by
  refine (aside_change (fun _ hMem => ?_) fun v db => ?_).bind fun _ => Register.Aside.check
  · simp at hMem
  · split <;> rfl

theorem follows_persist {base : Services} {feedback : SesFeedback} {drawn : DrawnFeedback}
    (hFeedback : call.IsFeedback) :
    Follows k call (fun stage _ r => stage ≠ .outside ∧ (stage = .locked → Settled r))
      (persist base feedback recipientHashes drawn) .unlocked seen := by
  refine Register.Follows.bind (follows_findDelivery.mono ?_)
  rintro stage delivery r ⟨rfl, hKnown⟩
  refine Register.Follows.bind ((follows_attachProviderMessageId hFeedback hKnown).mono
    fun stage _ r hAttached => ?_)
  refine Register.Follows.bind (Register.Follows.check fun _ =>
    Register.Follows.bind (Register.Follows.query fun v hSees hFit => ?_))
  have hHere := hAttached.sees stable_settles hSees hFit
  cases v.db.eventOf feedback.snsMessageId
    (createSesFeedbackFingerprint base feedback delivery.recipientHash.value) with
  | some event =>
    exact Register.Follows.bind (Register.Follows.check fun _ =>
      follows_done ⟨hHere.inside, fun _ => hHere.settled⟩)
  | none =>
    refine Register.Follows.bind
      ((Register.Follows.of_aside (I := Midway k delivery EmailDelivery.Settles stage)
      aside_createEvent
      (fun _ _ hMidway hSees hFit => hMidway.sees stable_settles hSees hFit) hHere).mono ?_)
    rintro stage _ r ⟨rfl, hStored⟩
    exact Register.Follows.bind ((follows_transitions hFeedback hStored).mono fun _ _ _ hDone =>
      follows_done hDone)

theorem follows_processFeedback {base : Services} {feedback : SesFeedback} {drawn : DrawnFeedback}
    (hFeedback : call.IsFeedback) :
    Follows k call (fun stage _ _ => stage = .outside)
      (processFeedback base ring feedback drawn) .outside seen := by
  refine Register.Follows.transaction (fun error => ?_) (Register.Follows.bind
    ((follows_persist hFeedback).mono fun _ _ _ hDone => follows_done ⟨hDone.1, hDone.2, rfl⟩))
  split
  · refine Register.Follows.transaction (fun _ => follows_done rfl)
      (Register.Follows.bind (Register.Follows.bind
      (follows_findDelivery.mono ?_)))
    rintro stage delivery r ⟨rfl, _⟩
    refine Register.Follows.bind (Register.Follows.check fun _ =>
      Register.Follows.bind (Register.Follows.query fun v _ _ => ?_))
    cases v.db.eventOf feedback.snsMessageId
      (createSesFeedbackFingerprint base feedback delivery.recipientHash.value) with
    | none =>
      exact Register.Follows.bind (Register.Follows.check fun _ =>
        ⟨by simp, fun hLocked => (by cases hLocked), rfl⟩)
    | some event =>
      refine Register.Follows.bind (Register.Follows.check fun _ => ?_)
      exact Register.Follows.bind (Register.Follows.check fun _ =>
        ⟨by simp, fun hLocked => (by cases hLocked), rfl⟩)
  · exact follows_done rfl

end Feedback

/-! ## The other calls -/

theorem follows_expireStaleClaims (hCall : call = .expireStaleClaims) :
    Follows k call (fun stage _ _ => stage = .outside) expireStaleClaims .outside seen := by
  refine Register.Follows.bind (Register.Follows.readClock fun now => Register.Follows.bind
    (follows_updateDeliveries (fun d n _ hSettles _ hLease => ?_) fun r n _ _ _ =>
      follows_done rfl))
  exact ⟨.reconcile hCall hLease, fun _ => settles_expired (hSettles (by simp)) hLease,
    follows_done rfl⟩

theorem follows_aside_transaction {body : Script notifications (Except Failure Unit)} {limit : Nat}
    (h : Aside k body) :
    Follows k call (fun stage _ _ => stage = .outside)
      (transaction limit body refuse) .outside seen := by
  refine Register.Follows.transaction (fun _ => follows_done rfl)
    ((Register.Follows.of_aside (I := fun _ => True) h (fun _ _ _ _ _ => trivial) trivial).mono ?_)
  rintro stage _ r ⟨rfl, _⟩
  exact ⟨by simp, fun hLocked => (by cases hLocked), rfl⟩

theorem aside_transitionInTransaction {change : RecoveryTransition} {evidence : RecoveryEvidence}
    {lookupHashes : List RecipientHash} :
    Aside k (transitionInTransaction change evidence lookupHashes) := by
  refine Register.Aside.bind (aside_change (fun _ hMem => by cases List.mem_singleton.mp hMem)
    fun _ _ => rfl) fun _ =>
    Register.Aside.query.bind fun destinations => Register.Aside.check.bind fun _ =>
      Register.Aside.query.bind fun audits => ?_
  split
  · exact Register.Aside.check
  · exact Register.Aside.check.bind fun _ => aside_updateDestinations.bind fun _ =>
      Register.Aside.check.bind fun _ =>
      aside_change (fun _ hMem => by cases hMem) fun _ _ => rfl

theorem follows_transition {recipient : String} {change : RecoveryTransition}
    {evidence : RecoveryEvidence} :
    Follows k call (fun stage _ _ => stage = .outside)
      (transition services ring recipient change evidence) .outside seen := by
  unfold transition
  split
  · exact follows_done rfl
  · exact follows_aside_transaction (aside_transitionInTransaction.bind fun _ => trivial)

theorem after_ne_outside {locks : Bool} (h : stage ≠ .outside) : stage.after locks ≠ .outside := by
  cases stage with
  | outside => exact absurd rfl h
  | unlocked => cases locks <;> simp [Stage.after]
  | locked => simp [Stage.after]

theorem follows_deleteDeliveries {p : Database → EmailDelivery → Bool}
    (hCall : call = .cleanupExpiredHistory) (hStage : stage ≠ .outside) (hSettled : Settled seen) :
    Follows k call (fun stage _ r => stage ≠ .outside ∧ Settled r)
      (Script.change .deleteDeliveries (fun v => (v.db.deliveries.select (p v.db)).map fun d =>
        .delivery d.requestId)
        (fun v db => db.deleteDeliveries fun d =>
          d.requestId ∈ (v.db.deliveries.select (p v.db)).map EmailDelivery.requestId)
        fun _ => ()) stage seen := by
  intro v hSees hFit
  have hNow : Settled ((deliveryRegister k).read v.db) := by
    by_cases hLocked : stage = .locked
    · subst hLocked
      rwa [show (deliveryRegister k).read v.db = seen from hSees]
    · exact hFit hLocked
  have hRead (db : Database) : (deliveryRegister k).read
      (db.deleteDeliveries fun d => d.requestId ∈
        (v.db.deliveries.select (p v.db)).map EmailDelivery.requestId) =
        (db.deliveries.get k).filter fun _ =>
          !decide (k ∈ (v.db.deliveries.select (p v.db)).map EmailDelivery.requestId) := by
    show Table.get _ k = _
    rw [Database.deleteDeliveries, Table.get_delete]
    cases hGet : db.deliveries.get k with
    | none => rfl
    | some d => simp [Option.filter, Table.key_of_get hGet]
  by_cases hChosen : ∃ d, v.db.deliveries.get k = some d ∧ p v.db d = true
  · obtain ⟨d, hGet, hp⟩ := hChosen
    have hMem := Table.mem_map_select.mpr ⟨d, hGet, hp⟩
    have hNone (db : Database) : (deliveryRegister k).read
        (db.deleteDeliveries fun d => d.requestId ∈
          (v.db.deliveries.select (p v.db)).map EmailDelivery.requestId) = none := by
      rw [hRead, decide_eq_true hMem]
      cases db.deliveries.get k <;> simp
    have hBefore : (deliveryRegister k).read v.db = some d := hGet
    have hLock := lock_mem_select.mpr ⟨d, hGet, hp⟩
    refine ⟨.inr ⟨.inl hLock, ?_,
      fun db _ => by rw [hNone, hNone], fun hOutside => absurd hOutside hStage⟩, ?_, ?_⟩
    · rw [hNone, hBefore]
      exact .deleted hCall
    · exact after_ne_outside hStage
    · rw [hNone]
      exact fun _ hSome => by cases hSome
  · have hAlone (db : Database) : (deliveryRegister k).read
        (db.deleteDeliveries fun d => d.requestId ∈
          (v.db.deliveries.select (p v.db)).map EmailDelivery.requestId) =
          (deliveryRegister k).read db := by
      rw [hRead, decide_eq_false fun hMem => hChosen (Table.mem_map_select.mp hMem)]
      show _ = db.deliveries.get k
      cases db.deliveries.get k <;> simp
    refine ⟨.inl hAlone, ?_⟩
    rw [after_not_mem fun hMem => hChosen (lock_mem_select.mp hMem), hAlone]
    exact ⟨hStage, hNow⟩

theorem follows_cleanupExpiredHistory (hCall : call = .cleanupExpiredHistory)
    (hSettled : Settled seen) :
    Follows k call (fun stage _ _ => stage = .outside)
      (cleanupExpiredHistory services ring) .outside seen := by
  have hAside {p : Script notifications Unit} {stage : Stage} {r : Option EmailDelivery}
    (h : Aside k p)
      (hHere : stage ≠ .outside ∧ Settled r) : Follows k call
        (fun stage _ r => stage ≠ .outside ∧ Settled r) p stage r := by
    refine (Register.Follows.of_aside (I := Settled) h
      (fun r r' hOld hSees hFit => ?_) hHere.2).mono ?_
    · cases stage with
      | outside => exact absurd rfl hHere.1
      | unlocked => exact hFit (by simp)
      | locked =>
        cases hSees
        exact hOld
    · rintro stage' _ r ⟨rfl, hSettled⟩
      exact ⟨hHere.1, hSettled⟩
  have hDestinations {stage : Stage} {r : Option EmailDelivery} {name : Statement}
    {where_ : Database → EmailDestination → Bool}
      (hHere : stage ≠ .outside ∧ Settled r) :
      Follows k call (fun stage _ r => stage ≠ .outside ∧ Settled r)
        (deleteDestinations name where_) stage r := by
    refine hAside (aside_change (fun v hMem => ?_) fun _ _ => rfl) hHere
    obtain ⟨_, _, hEq⟩ := List.mem_map.mp hMem
    cases hEq
  have hHistory {r : Option EmailDelivery} {cutoff : Nat} (hHere : Settled r) :
      Follows k call (fun stage _ r => stage ≠ .outside ∧ Settled r)
        (deleteHistory cutoff) .unlocked r := by
    refine Register.Follows.bind ((hAside ?_ ⟨by simp, hHere⟩).mono fun _ _ _ hEvents =>
      Register.Follows.bind
      ((hAside ?_ hEvents).mono fun _ _ _ hAudits => follows_deleteDeliveries
        (p := fun db d => d.createdAt < cutoff && !db.hasEvents d) hCall hAudits.1 hAudits.2))
    · refine aside_change (fun v hMem => ?_) fun _ _ => rfl
      obtain ⟨_, _, hEq⟩ := List.mem_map.mp hMem
      cases hEq
    · exact aside_change (fun _ hMem => by cases hMem) fun _ _ => rfl
  refine Register.Follows.bind (Register.Follows.readClock fun time =>
    Register.Follows.transaction (fun _ => follows_done rfl)
    (Register.Follows.bind
      ((Register.Follows.of_aside (I := Settled) (aside_change (fun v hMem => ?_) fun _ _ => rfl)
      (fun _ _ _ _ hFit => hFit (by simp)) hSettled).mono ?_)))
  · split at hMem
    · cases hMem
    · cases List.mem_singleton.mp hMem
  · rintro stage acquired r ⟨rfl, hHere⟩
    split
    · exact follows_done ⟨by simp, fun _ => hHere, rfl⟩
    · refine Register.Follows.bind ((hHistory hHere).mono fun _ _ _ hHistory =>
        Register.Follows.bind ((hDestinations hHistory).mono
        fun _ _ _ hRetired =>
          Register.Follows.bind ((hDestinations hRetired).mono fun _ _ _ hDone => ?_)))
      exact follows_done ⟨hDone.1, fun _ => hDone.2, rfl⟩

theorem deliveries_followed : (deliveryRegister k).FollowedBy (system services) := by
  intro call s ext script hProgram seen hSettled
  have hOutcome {β : Type} {p : Script notifications β} {outcome : β → Outcome}
    {Q : Stage → β → Option EmailDelivery → Prop}
      (h : Follows k call Q p .outside seen) :
      Follows k call (fun _ _ _ => True) (p.bind fun b => .done (outcome b)) .outside seen :=
    (h.mono fun _ _ _ _ => trivial).bind
  cases call with
  | deploy ring =>
    unfold system at hProgram
    dsimp only at hProgram
    split at hProgram <;> cases hProgram
    trivial
  | send request deadlineAt drawn polls =>
    cases hProgram
    exact hOutcome (follows_sendSecurityEmail ⟨request, deadlineAt, drawn, polls, rfl⟩ hSettled)
  | processFeedback feedback drawn =>
    cases hProgram
    exact hOutcome (follows_processFeedback ⟨feedback, drawn, rfl⟩)
  | expireStaleClaims =>
    cases hProgram
    exact hOutcome (follows_expireStaleClaims rfl)
  | requestRecovery recipient evidence =>
    cases hProgram
    exact hOutcome follows_transition
  | completeRecovery recipient evidence =>
    cases hProgram
    exact hOutcome follows_transition
  | failRecovery recipient evidence =>
    cases hProgram
    exact hOutcome follows_transition
  | cleanupExpiredHistory =>
    cases hProgram
    exact hOutcome (follows_cleanupExpiredHistory rfl hSettled)

theorem deliveries_start : (deliveryRegister k).Starts emptyDatabase :=
  fun _ hSome => by cases hSome

end Pixaeron.Notifications.Deliveries
