import Pixaeron.Notifications.Verified.Deliveries

/-! # Verified: changes

Which changes the scripts of the service make, told by the rows that these leave alone. Whatever
allows such changes allows the scripts.
-/

namespace Pixaeron.Notifications

open Transactions Transactions.Script

/-- The recipient, the attempts and the event that is followed stay, and the delivery does not
become pending. -/
structure RowChange.IsModest (change : DeliveryChange) : Prop where
  pending : ∀ d, (change.apply d).status = .pending → d.status = .pending
  recipient : ∀ d, (change.apply d).recipientHash = d.recipientHash
  attempts : ∀ d, (change.apply d).attemptCount = d.attemptCount
  lastEvent : ∀ d, (change.apply d).lastEvent = d.lastEvent

/-- What allows every change outside of the tables that feedback writes, and every modest change of
deliveries. -/
structure AllowsDeliveries (P : (Database → Database) → Prop) : Prop where
  other : ∀ change, (∀ db, (change db).deliveries = db.deliveries ∧
    (change db).destinations = db.destinations ∧
    (change db).events = db.events) → P change
  modest : ∀ requestIds (change : DeliveryChange), change.IsModest → P fun db =>
    db.changeDeliveries requestIds change

section

variable {P : (Database → Database) → Prop} {M : (SesSubmissionResult → Outside → Option Outside) →
  Prop} {α : Type}
  {services : EmailServices} {ring : KeyRing} {request : SendSecurityEmailRequest}
    {delivery : EmailDelivery}
  (h : AllowsDeliveries P)
include h

theorem only_query {name : Statement} {answer : View notifications → α} :
    (query name answer).Only P :=
  Only.query (h.other _ fun _ => ⟨rfl, rfl, rfl⟩)

theorem only_updateDeliveries {name : Statement} {where_ : EmailDelivery → Bool}
    {change : DeliveryChange} (hModest : change.IsModest) :
    (updateDeliveries name where_ change).Only P :=
  Only.change fun _ => h.modest _ _ hModest

theorem only_lockRecipientAliases {recipientHashes : List RecipientHash} :
    (lockRecipientAliases recipientHashes).Only P :=
  Only.forEach fun _ _ => Only.change fun _ => h.other _ fun _ => ⟨rfl, rfl, rfl⟩

theorem only_findByIdOrThrow : (findByIdOrThrow delivery).Only P :=
  (only_query h).bind fun found => by cases found <;> trivial

theorem only_attachMessageId {where_ : EmailDelivery → Bool} {messageId : String} :
    (attachMessageId delivery where_ messageId).Only P := by
  refine Only.bind (Only.change fun v => ?_) fun _ => Only.check.bind fun _ => trivial
  by_cases hTaken : v.db.messageTaken delivery.requestId messageId = true
  · simp only [hTaken, if_true]
    exact h.other _ fun _ => ⟨rfl, rfl, rfl⟩
  · simp only [hTaken, Bool.false_eq_true, if_false]
    exact h.modest _ _ ⟨fun _ hPending => hPending, fun _ => rfl, fun _ => rfl, fun _ => rfl⟩

/-! ## Commands -/

theorem only_expireClaim : (expireClaim delivery).Only P :=
  Only.readClock.bind fun _ =>
    (only_updateDeliveries h ⟨fun _ hPending => (by cases hPending), fun _ => rfl, fun _ => rfl,
    fun _ => rfl⟩).bind
    fun _ => only_findByIdOrThrow h

theorem only_waitForCallerResult {deadlineAt : Option Nat} {polls : Nat} :
    (waitForCallerResult deadlineAt polls delivery).Only P := by
  induction polls generalizing delivery with
  | zero => trivial
  | succ polls ih =>
    refine Only.readClock.bind fun time => ?_
    split
    · trivial
    · split
      · trivial
      · refine Only.readClock.bind fun leaseTime => ?_
        split
        · refine (only_expireClaim h).bind fun expired => ?_
          cases expired with
          | error error => trivial
          | ok row => exact ih
        · refine Only.readClock.bind fun remaining => ?_
          split
          · trivial
          · refine (only_findByIdOrThrow h).bind fun found => ?_
            cases found with
            | error error => trivial
            | ok row => exact ih

omit h in
theorem setOutcome_isModest (submission : SesSubmissionResult) :
    (EmailDelivery.setOutcome submission).IsModest := by
  refine ⟨fun _ hPending => ?_, fun _ => rfl, fun _ => rfl, fun _ => rfl⟩
  cases submission <;> cases hPending

theorem only_finalizeInTransaction {submission : SesSubmissionResult} :
    (finalizeInTransaction delivery submission).Only P := by
  refine Only.readClock.bind fun now => Only.bind (Only.bind ?_ fun _ =>
    (only_updateDeliveries h (setOutcome_isModest submission)).bind fun _ => trivial) fun _ =>
      (only_updateDeliveries h ⟨fun _ hPending => hPending, fun _ => rfl, fun _ => rfl,
        fun _ => rfl⟩).bind fun _ => (only_query h).bind fun found => ?_
  · cases submission with
    | accepted messageId =>
      refine (only_attachMessageId h).bind fun attached => Only.bind ?_ fun _ =>
        (only_updateDeliveries h ⟨fun _ hPending => hPending, fun _ => rfl, fun _ => rfl,
          fun _ => rfl⟩).bind fun _ => trivial
      unfold assertAttached
      split
      · trivial
      · refine (only_query h).bind fun current => ?_
        cases current with
        | none => trivial
        | some row => exact Only.check
    | rejected code => trivial
    | failed code => trivial
    | submissionUnknown code => trivial
  · cases found <;> trivial

theorem writes_finalizeResult {submission : SesSubmissionResult} :
    (finalizeResult delivery submission).Writes P M := by
  refine Writes.transaction ((only_finalizeInTransaction h).writes.bind fun _ => trivial) fun _ =>
    (only_query h).writes.bind fun found => ?_
  cases found <;> trivial

theorem writes_submit {recipient : String}
    (hAttempt : ∀ requestIds, P fun db => db.changeDeliveries requestIds EmailDelivery.setAttempted)
    (hSubmit : ∀ submission, M (Outside.submit submission)) :
    (submit delivery request recipient).Writes P M := by
  refine Writes.bind (Writes.change fun _ => hAttempt _) fun attempted => ?_
  split
  · refine (only_findByIdOrThrow h).writes.bind fun found => ?_
    cases found <;> trivial
  · refine Writes.bind ?_ fun submission => (writes_finalizeResult h).bind fun _ => trivial
    unfold createSubmission
    split
    · exact ⟨hSubmit _, fun _ => trivial⟩
    · trivial

theorem writes_claimDelivery {recipientHash : RecipientHash} {lookupHashes : List RecipientHash}
    {drawn : String} (hInsert : ∀ row, row.lastEvent = none → P fun db => db.insertDelivery row) :
    (claimDelivery services request recipientHash lookupHashes drawn).Writes P M := by
  refine Writes.transaction (Writes.bind ((only_query h).writes.bind fun existing => ?_)
    fun _ => trivial) fun error => ?_
  · cases existing with
    | some delivery => exact Writes.check.bind fun _ => trivial
    | none =>
      refine (only_lockRecipientAliases h).writes.bind fun _ =>
        (only_query h).writes.bind fun blocked => Writes.readClock.bind fun now =>
        Writes.bind (Writes.bind (Writes.change fun v => ?_) fun _ => Writes.check.bind
          fun _ => trivial) fun _ => trivial
      by_cases hRefused : v.db.refusesDelivery request.requestId drawn
      · simp only [hRefused, if_true]
        exact h.other _ fun _ => ⟨rfl, rfl, rfl⟩
      · simp only [hRefused, if_false]
        exact hInsert _ rfl
  · dsimp only
    split
    · trivial
    · refine (only_query h).writes.bind fun existing => ?_
      cases existing with
      | none => trivial
      | some delivery =>
        dsimp only
        split <;> trivial

theorem writes_sendSecurityEmail {deadlineAt : Option Nat} {drawn : String} {polls : Nat}
    (hInsert : ∀ row, row.lastEvent = none → P fun db => db.insertDelivery row)
    (hAttempt : ∀ requestIds, P fun db => db.changeDeliveries requestIds EmailDelivery.setAttempted)
    (hSubmit : ∀ submission, M (Outside.submit submission)) :
    (sendSecurityEmail services ring request deadlineAt drawn polls).Writes P M := by
  refine (writes_claimDelivery h hInsert).bind fun claim => ?_
  cases claim with
  | error error => trivial
  | ok claim =>
    dsimp only
    split
    · trivial
    · split
      · exact (only_waitForCallerResult h).writes
      · exact writes_submit h hAttempt hSubmit

theorem only_expireStaleClaims : expireStaleClaims.Only P :=
  Only.readClock.bind fun _ =>
    (only_updateDeliveries h ⟨fun _ hPending => (by cases hPending), fun _ => rfl, fun _ => rfl,
    fun _ => rfl⟩).bind
    fun _ => trivial

/-! ## Feedback -/

section Feedback

variable {base : Services} {feedback : SesFeedback} {recipientHashes : List RecipientHash}
  {applied : AppliedFeedback}

theorem only_recordProviderAcceptance : applied.recordProviderAcceptance.Only P :=
  (only_updateDeliveries h ⟨fun _ hPending => hPending, fun _ => rfl, fun _ => rfl,
    fun _ => rfl⟩).bind fun _ => Only.readClock.bind fun _ =>
    (only_updateDeliveries h ⟨fun _ hPending => hPending, fun _ => rfl, fun _ => rfl,
      fun _ => rfl⟩).bind fun _ => trivial

omit h in
theorem only_applyDeliveryTransition (hFollow : ∀ requestIds failureCode,
      P fun db => db.changeDeliveries requestIds
      (EmailDelivery.setFeedback applied.feedback.event.deliveryStatus failureCode
        applied.revision)) :
    applied.applyDeliveryTransition.Only P := by
  unfold AppliedFeedback.applyDeliveryTransition
  dsimp only
  split
  · exact Only.bind (Only.change fun _ => hFollow _ _) fun _ => trivial
  · exact Only.bind (Only.change fun _ => hFollow _ _) fun _ => trivial

theorem only_findDelivery : (findDelivery base feedback recipientHashes).Only P := by
  refine (only_query h).bind fun byMessageId => ?_
  have hBoth {rest : Option EmailDelivery → Script notifications EmailDelivery}
    (hRest : ∀ found, (rest found).Only P) :
      (if feedback.requestId.any base.isUUID = true then
        (query Statement.findByRequestId fun v : View notifications => feedback.requestId.bind
          v.db.deliveries.get).bind rest
      else (Script.done none).bind rest : Script notifications EmailDelivery).Only P := by
    split
    · exact (only_query h).bind hRest
    · exact hRest none
  refine hBoth fun byRequestId => Only.check.bind fun _ => Only.check.bind fun _ => ?_
  cases byMessageId.or byRequestId with
  | none => trivial
  | some delivery => exact Only.check.bind fun _ => trivial

theorem only_attachProviderMessageId {messageId : String} :
    (attachProviderMessageId delivery messageId).Only P := by
  unfold attachProviderMessageId
  split
  · trivial
  · exact (only_attachMessageId h).bind fun _ => Only.check

theorem only_createEvent {fingerprint eventId : String}
    (hEvent : ∀ now, P fun db => db.insertEvent
      (newEvent feedback delivery fingerprint eventId now)) :
    (createEvent feedback delivery fingerprint eventId).Only P := by
  refine Only.bind (Only.change fun v => ?_) fun _ => Only.check
  by_cases hRefused : v.db.refusesEvent eventId feedback.snsMessageId fingerprint
  · simp only [hRefused, if_true]
    exact h.other _ fun _ => ⟨rfl, rfl, rfl⟩
  · simp only [hRefused, if_false]
    exact hEvent _

theorem only_isCommittedDuplicate :
    (isCommittedDuplicate base feedback recipientHashes).Only P := by
  refine (only_findDelivery h).bind fun delivery => Only.check.bind fun _ =>
    (only_query h).bind fun duplicate => ?_
  cases duplicate with
  | none => trivial
  | some event => exact Only.check.bind fun _ => trivial

end Feedback

end

/-! ## Aliases -/

/-- The change is one of the aliases of a recipient. -/
structure Within (recipientHashes : List RecipientHash) (write : Database → Database) : Prop where
  deliveries : ∀ db, (write db).deliveries = db.deliveries
  events : ∀ db, (write db).events = db.events
  aliases : ∀ db, ∀ a ∉ recipientHashes, (write db).destinations.get a = db.destinations.get a

section Aliases

variable {applied : AppliedFeedback} {recipientHashes : List RecipientHash}

theorem Within.comp {f g : Database → Database} (hf : Within recipientHashes f)
    (hg : Within recipientHashes g) :
    Within recipientHashes (f ∘ g) where
  deliveries db := (hf.deliveries (g db)).trans (hg.deliveries db)
  events db := (hf.events (g db)).trans (hg.events db)
  aliases db a hOther := (hf.aliases (g db) a hOther).trans (hg.aliases db a hOther)

theorem within_id : Within recipientHashes id := ⟨fun _ => rfl, fun _ => rfl, fun _ _ _ => rfl⟩

theorem within_changeDestinations {aliases : List RecipientHash} {change : DestinationChange}
    (h : ∀ a ∈ aliases, a ∈ recipientHashes) :
    Within recipientHashes fun db => db.changeDestinations aliases change := by
  refine ⟨fun _ => rfl, fun _ => rfl, fun db a hOther => ?_⟩
  show (db.destinations.modify aliases change.apply change.key_apply).get a = _
  exact Table.get_modify_of_not_mem fun hMem => hOther (h a hMem)

theorem within_updateDestinations {name : Statement} {where_ : EmailDestination → Bool}
    {change : DestinationChange} (h : ∀ d, where_ d = true → d.recipientHash ∈ recipientHashes) :
    (updateDestinations name where_ change).Only (Within recipientHashes) := by
  refine Only.change fun v => within_changeDestinations fun a hMem => ?_
  obtain ⟨d, hSelected, rfl⟩ := List.mem_map.mp hMem
  exact h d (Table.mem_select.mp hSelected).2

theorem within_upsertDestination {row : EmailDestination} {update : Option DestinationChange}
    {rest : EmailDestination → Script notifications Unit} (h : row.recipientHash ∈ recipientHashes)
    (hRest : ∀ d, d.recipientHash = row.recipientHash → (rest d).Only (Within recipientHashes)) :
    ((AppliedFeedback.upsertDestination row update).bind rest).Only (Within recipientHashes) := by
  intro v
  refine ⟨?_, (?_ : Only _ (rest _))⟩
  · cases hGet : v.db.destinations.get row.recipientHash with
    | none =>
      simp only [hGet]
      refine ⟨fun _ => rfl, fun _ => rfl, fun db a hOther => ?_⟩
      have hKey : row.recipientHash ≠ a := fun hSame => hOther (hSame ▸ h)
      simp [Database.insertDestination, Table.get_insert, hKey]
    | some found =>
      cases update with
      | none =>
        simp only [hGet]
        exact within_id
      | some change =>
        simp only [hGet]
        refine within_changeDestinations fun a hMem => ?_
        rwa [List.mem_singleton.mp hMem]
  · cases hGet : v.db.destinations.get row.recipientHash with
    | none =>
      simp only [hGet]
      exact hRest row rfl
    | some found =>
      have hKey : found.recipientHash = row.recipientHash := Table.key_of_get hGet
      cases update with
      | none =>
        simp only [hGet]
        exact hRest found hKey
      | some change =>
        simp only [hGet]
        exact hRest _ ((change.key_apply found).trans hKey)

theorem within_suppressDestination {revision : Nat} {a : RecipientHash} (h : a ∈ recipientHashes) :
    (applied.suppressDestination revision a).Only (Within recipientHashes) := by
  refine within_upsertDestination h fun destination hSame => ?_
  have hRow (d : EmailDestination) (hIs : destination.is d = true) :
      d.recipientHash ∈ recipientHashes := by
    simp only [EmailDestination.is, decide_eq_true_eq] at hIs
    rwa [hIs.1, hSame]
  refine (within_updateDestinations fun d hWhere => ?_).bind fun _ =>
    (within_updateDestinations fun d hWhere => ?_).bind fun _ => trivial
  · exact hRow d (Bool.and_eq_true_iff.mp hWhere).1
  · exact hRow d (Bool.and_eq_true_iff.mp hWhere).1

theorem within_updateNonterminalDestination {status : EmailDestinationStatus} {a : RecipientHash}
    (h : a ∈ recipientHashes) :
    (applied.updateNonterminalDestination status a).Only (Within recipientHashes) := by
  refine within_upsertDestination h fun _ _ =>
    (within_updateDestinations fun d hWhere => ?_).bind fun _ => trivial
  simp only [Bool.and_eq_true, decide_eq_true_eq] at hWhere
  rwa [hWhere.1.1]

theorem within_findAuthoritative {where_ : EmailDestination → Bool} :
    (AppliedFeedback.findAuthoritativeDestination where_).Only (Within recipientHashes) :=
  (Only.query within_id).bind fun found => by cases found <;> trivial

theorem within_suppressDestinationAliases :
    (applied.suppressDestinationAliases recipientHashes).Only (Within recipientHashes) :=
  (Only.query within_id).bind fun _ =>
    (Only.forEach fun _ hMem => within_suppressDestination hMem).bind fun _ =>
    within_findAuthoritative.bind fun _ =>
      (within_updateDestinations fun _ hWhere => of_decide_eq_true hWhere).bind fun _ => trivial

theorem within_convergeNonterminalAliases :
    (AppliedFeedback.convergeNonterminalAliases recipientHashes).Only (Within recipientHashes) := by
  unfold AppliedFeedback.convergeNonterminalAliases
  split
  · trivial
  · refine within_findAuthoritative.bind fun _ =>
      (within_updateDestinations fun d hWhere => ?_).bind fun _ => trivial
    exact of_decide_eq_true (Bool.and_eq_true_iff.mp hWhere).2

theorem only_applyDestinationTransition {P : (Database → Database) → Prop} (h : AllowsDeliveries P)
    (hWithin : ∀ write, Within recipientHashes write → P write) :
    (applied.applyDestinationTransition recipientHashes).Only P := by
  unfold AppliedFeedback.applyDestinationTransition
  split
  · exact (only_lockRecipientAliases h).bind fun _ => within_suppressDestinationAliases.mono hWithin
  · split
    · trivial
    · refine (only_lockRecipientAliases h).bind fun _ => (only_query h).bind fun blocked => ?_
      split
      · trivial
      · exact Only.mono
          ((Only.forEach fun _ hMem => within_updateNonterminalDestination hMem).bind fun _ =>
            within_convergeNonterminalAliases) hWithin

end Aliases

/-! ## Recovery and retention -/

section Others

variable {P : (Database → Database) → Prop} {M : (SesSubmissionResult → Outside → Option Outside) →
  Prop} {services : EmailServices}
  {ring : KeyRing} (hAside : ∀ change,
    (∀ db, (change db).deliveries = db.deliveries ∧ (change db).events = db.events) → P change)
include hAside

theorem writes_transition {recipient : String} {change : RecoveryTransition}
    {evidence : RecoveryEvidence} :
    (transition services ring recipient change evidence).Writes P M := by
  have hOther {write : Database → Database} (hDeliveries : ∀ db,
    (write db).deliveries = db.deliveries)
      (hEvents : ∀ db, (write db).events = db.events) : P write :=
        hAside write fun db => ⟨hDeliveries db, hEvents db⟩
  have hId : P id := hOther (fun _ => rfl) fun _ => rfl
  unfold transition
  split
  · trivial
  · refine Writes.transaction (Writes.bind ?_ fun _ => trivial) fun _ => trivial
    refine Writes.bind (Writes.change fun _ => hId) fun _ =>
      (Writes.query hId).bind fun destinations => Writes.check.bind fun _ =>
      (Writes.query hId).bind fun audits => ?_
    split
    · exact Writes.check
    · exact Writes.check.bind fun _ =>
        Writes.bind (Writes.change fun _ => hOther (fun _ => rfl) fun _ => rfl) fun _ =>
        Writes.check.bind fun _ => Writes.change fun _ => hOther (fun _ => rfl) fun _ => rfl

theorem writes_cleanupExpiredHistory (hEvents : ∀ p, P fun db => db.deleteEvents p)
    (hDeliveries : ∀ p, P fun db => db.deleteDeliveries p) :
    (cleanupExpiredHistory services ring).Writes P M := by
  have hOther {write : Database → Database} (hDeliveries : ∀ db,
    (write db).deliveries = db.deliveries)
      (hEvents : ∀ db, (write db).events = db.events) : P write :=
        hAside write fun db => ⟨hDeliveries db, hEvents db⟩
  refine Writes.readClock.bind fun time =>
    Writes.transaction (Writes.bind (Writes.change fun _ => hOther (fun _ => rfl) fun _ => rfl)
    fun acquired => ?_) fun _ => trivial
  split
  · trivial
  · refine Writes.bind (Writes.bind (Writes.change fun _ => hEvents _) fun _ => Writes.bind
      (Writes.change fun _ => hOther (fun _ => rfl) fun _ => rfl) fun _ => Writes.change
        fun _ => hDeliveries _) fun _ => ?_
    exact Writes.bind (Writes.change fun _ => hOther (fun _ => rfl) fun _ => rfl) fun _ =>
      Writes.bind
      (Writes.change fun _ => hOther (fun _ => rfl) fun _ => rfl) fun _ => trivial

end Others

end Pixaeron.Notifications
