import Pixaeron.Notifications.FeedbackPolicy

/-! # What feedback does to the rows

The transitions of a delivery and of the alias rows of its recipient, in the transaction that
stores the event.
-/

namespace Pixaeron.Notifications

open Transactions Transactions.Script

/-! ## Newer events -/

/-- The six filters of which a row has to satisfy one. -/
def newerEventFilters (revision : EventRevision) (lastEvent : Option EventRevision) : Bool :=
  let lastEventAt := lastEvent.map EventRevision.occurredAt
  let lastEventRank := lastEvent.map EventRevision.rank
  let lastEventFingerprint := lastEvent.map EventRevision.fingerprint
  lastEventAt = none ||
  lastEventAt.any (fun t => t < revision.occurredAt) ||
  (lastEventAt = some revision.occurredAt && lastEventRank = none) ||
  (lastEventAt = some revision.occurredAt && lastEventRank.any fun n => n < revision.rank) ||
  (lastEventAt = some revision.occurredAt && lastEventRank =
    some revision.rank && lastEventFingerprint = none) ||
  (lastEventAt = some revision.occurredAt && lastEventRank = some revision.rank &&
    lastEventFingerprint.any fun f => f < revision.fingerprint)

@[simp] theorem newerEventFilters_none {revision : EventRevision} :
    newerEventFilters revision none = true := rfl

@[simp] theorem newerEventFilters_some {revision last : EventRevision} :
    newerEventFilters revision (some last) = decide (last < revision) := by
  rw [Bool.eq_iff_iff, decide_eq_true_iff, EventRevision.lt_iff]
  simp [newerEventFilters]
  grind

/-! ## Changes of one row -/

namespace EmailDelivery

def setSubmittedAt (submittedAt : Int) : DeliveryChange where
  apply d := { d with submittedAt := some submittedAt }
  key_apply _ := rfl

def setAccepted (now : Nat) : DeliveryChange where
  apply d := { d with
    callerResult := some .accepted
    callerResultCode := none
    leaseExpiresAt := none
    finalizedAt := some now }
  key_apply _ := rfl

def setFeedback (status : EmailDeliveryStatus) (failureCode : Option String)
    (revision : EventRevision) : DeliveryChange where
  apply d := { d with status := status, failureCode := failureCode, lastEvent := some revision }
  key_apply _ := rfl

end EmailDelivery

/-- The columns that tell which event a destination follows. -/
structure AuthoritativeData where
  reasonCode : Option String
  lastDeliveryId : Option String
  lastEventId : Option String
  lastEvent : Option EventRevision
deriving DecidableEq

namespace EmailDestination

def authoritativeData (d : EmailDestination) : AuthoritativeData :=
  ⟨d.reasonCode, d.lastDeliveryId, d.lastEventId, d.lastEvent⟩

/-- Sets the status and the columns of the last event. -/
def follow (status : EmailDestinationStatus) (data : AuthoritativeData) : DestinationChange where
  apply d := { d with
    status := status
    reasonCode := data.reasonCode
    lastDeliveryId := data.lastDeliveryId
    lastEventId := data.lastEventId
    lastEvent := data.lastEvent }
  key_apply _ := rfl

def setSuppressionRevision (revision : Nat) : DestinationChange where
  apply d := { d with suppressionRevision := revision }
  key_apply _ := rfl

def setSuppressedAt (suppressedAt : Int) : DestinationChange where
  apply d := { d with suppressedAt := some suppressedAt }
  key_apply _ := rfl

def suppressAs (data : AuthoritativeData) (suppressedAt : Int)
    (suppressionRevision : Nat) : DestinationChange where
  apply d := { d with
    status := .suppressed
    reasonCode := data.reasonCode
    lastDeliveryId := data.lastDeliveryId
    lastEventId := data.lastEventId
    lastEvent := data.lastEvent
    suppressedAt := some suppressedAt
    suppressionRevision := suppressionRevision }
  key_apply _ := rfl

def blocked (d : EmailDestination) : Bool := decide (d.status ∈ blockedDestinationStatuses)

/-- `WHERE id = …` for a row that has been read: it is found under its key. -/
def is (d : EmailDestination) (row : EmailDestination) : Bool :=
  row.recipientHash = d.recipientHash ∧ row.id = d.id

/-- Rows without an event come last. -/
def olderThan (d d' : EmailDestination) : Bool :=
  match d.lastEvent, d'.lastEvent with
  | none, some _ => true
  | some r, some r' => decide (r < r')
  | _, none => false

end EmailDestination

/-- `ORDER BY` the last event, newest first, `LIMIT 1`. -/
def authoritative : List EmailDestination → Option EmailDestination
  | [] => none
  | d :: rest =>
    match authoritative rest with
    | none => some d
    | some d' => if d.olderThan d' then some d' else some d

/-! ## The scripts -/

/-- What an event brings to the rows: the delivery it is about, the stored event's identifier and
revision, and the identifiers that are drawn for alias rows it creates. -/
structure AppliedFeedback where
  feedback : SesFeedback
  delivery : EmailDelivery
  eventId : String
  revision : EventRevision
  destinationId : RecipientHash → String

namespace AppliedFeedback

variable (applied : AppliedFeedback)

def reasonCode : Option String := applied.feedback.event.deliveryFailureCode

def data (reasonCode : Option String) : AuthoritativeData :=
  ⟨reasonCode, some applied.delivery.id, some applied.eventId, some applied.revision⟩

def destination (alias_ : RecipientHash) (status : EmailDestinationStatus)
    (reasonCode : Option String) (suppressedAt : Option Int)
    (suppressionRevision : Nat) : EmailDestination where
  id := applied.destinationId alias_
  recipientHash := alias_
  status := status
  reasonCode := reasonCode
  suppressedAt := suppressedAt
  lastDeliveryId := some applied.delivery.id
  lastEventId := some applied.eventId
  lastEvent := some applied.revision
  suppressionRevision := suppressionRevision

def recordProviderAcceptance : Script notifications Unit := do
  let _ ← updateDeliveries .setSubmittedAt (fun d => applied.delivery.is d && d.submittedAt = none)
    (EmailDelivery.setSubmittedAt applied.feedback.mailTimestamp)
  let now ← readClock
  let _ ← updateDeliveries .setAccepted (fun d => applied.delivery.is d && d.callerResult = none)
    (EmailDelivery.setAccepted now)

def applyDeliveryTransition : Script notifications Unit := do
  let change := EmailDelivery.setFeedback applied.feedback.event.deliveryStatus
    applied.feedback.event.deliveryFailureCode applied.revision
  if applied.feedback.event.isTerminalMailboxEvent then
    let _ ← updateDeliveries .applyTerminal (fun d => applied.delivery.is d &&
      (d.status ∉ terminalDeliveryStatuses || newerEventFilters applied.revision d.lastEvent))
        change
  else
    let _ ← updateDeliveries .applyNonterminal (fun d => applied.delivery.is d &&
      d.status ∉ terminalDeliveryStatuses && newerEventFilters applied.revision d.lastEvent) change

/-- `emailDestination.upsert`, with the row it leaves. -/
def upsertDestination (row : EmailDestination) (update : Option DestinationChange) :
    Script notifications EmailDestination :=
  Script.change .upsertDestination (fun _ => [.destination row.recipientHash])
    (fun v db => match v.db.destinations.get row.recipientHash, update with
      | none, _ => db.insertDestination row
      | some _, some change => db.changeDestinations [row.recipientHash] change
      | some _, none => db)
    fun v => match v.db.destinations.get row.recipientHash, update with
      | none, _ => row
      | some found, some change => change.apply found
      | some found, none => found

def suppressDestination (suppressionRevision : Nat)
    (alias_ : RecipientHash) : Script notifications Unit := do
  let destination ← upsertDestination (applied.destination alias_ .suppressed applied.reasonCode
    (some applied.feedback.providerTimestamp) suppressionRevision)
    (some (EmailDestination.setSuppressionRevision suppressionRevision))
  let _ ← updateDestinations .suppressAlias (fun d => destination.is d &&
      (d.status ≠ .suppressed || newerEventFilters applied.revision d.lastEvent))
    (EmailDestination.follow .suppressed (applied.data applied.reasonCode))
  let _ ← updateDestinations .suppressSince (fun d => destination.is d &&
      (d.suppressedAt = none || d.suppressedAt.any fun t => applied.feedback.providerTimestamp < t))
    (EmailDestination.setSuppressedAt applied.feedback.providerTimestamp)

def findAuthoritativeDestination (where_ : EmailDestination → Bool) :
    Script notifications EmailDestination := do
  let found ← query .findAuthoritative fun v => authoritative (v.db.destinations.select where_)
  match found with
  | none => fail .recordNotFound
  | some destination => pure destination

/-- The greatest suppression revision of the rows, and their earliest suppression. -/
def mailboxState (rows : List EmailDestination) : Nat × Option Int :=
  ((rows.map EmailDestination.suppressionRevision).foldl max 0,
    (rows.filterMap EmailDestination.suppressedAt).min?)

def earliestSuppressedAt (providerTimestamp : Int) : Option Int → Int
  | none => providerTimestamp
  | some previous => if providerTimestamp < previous then providerTimestamp else previous

def suppressDestinationAliases (recipientHashes : List RecipientHash) :
    Script notifications Unit := do
  let (revision, previousSuppressedAt) ← query .readMailbox fun v =>
    mailboxState (v.db.aliases recipientHashes)
  let nextSuppressionRevision := revision + 1
  forEach (applied.suppressDestination nextSuppressionRevision) recipientHashes
  let found ← findAuthoritativeDestination fun d => d.recipientHash ∈ recipientHashes
  let _ ← updateDestinations .convergeAliases (fun d => d.recipientHash ∈ recipientHashes)
    (EmailDestination.suppressAs found.authoritativeData
      (earliestSuppressedAt applied.feedback.providerTimestamp previousSuppressedAt)
        nextSuppressionRevision)

def updateNonterminalDestination (status : EmailDestinationStatus)
    (alias_ : RecipientHash) : Script notifications Unit := do
  let reasonCode := if status = .temporaryFailure then applied.reasonCode else none
  let _ ← upsertDestination (applied.destination alias_ status reasonCode none 0) none
  let _ ← updateDestinations .updateAlias (fun d => d.recipientHash = alias_ && !d.blocked &&
      newerEventFilters applied.revision d.lastEvent)
    (EmailDestination.follow status (applied.data reasonCode))

def convergeNonterminalAliases (recipientHashes : List RecipientHash) :
    Script notifications Unit := do
  if recipientHashes.length < 2 then pure () else
    let found ← findAuthoritativeDestination fun d =>
      !d.blocked && d.recipientHash ∈ recipientHashes
    let _ ← updateDestinations .convergeAliases (fun d =>
      !d.blocked && d.recipientHash ∈ recipientHashes)
      (EmailDestination.follow found.status found.authoritativeData)

def applyDestinationTransition (recipientHashes : List RecipientHash) :
    Script notifications Unit := do
  if applied.feedback.event.isTerminalMailboxEvent then
    lockRecipientAliases recipientHashes
    applied.suppressDestinationAliases recipientHashes
  else
    match applied.feedback.event.destinationStatus with
    | none => pure ()
    | some nextStatus =>
      lockRecipientAliases recipientHashes
      let blocked ← query .findBlocked fun v =>
        (v.db.aliases recipientHashes).any EmailDestination.blocked
      if blocked then pure () else
        forEach (applied.updateNonterminalDestination nextStatus) recipientHashes
        convergeNonterminalAliases recipientHashes

/-- `applySesFeedbackTransitions`. -/
def transitions (recipientHashes : List RecipientHash) : Script notifications Unit := do
  applied.recordProviderAcceptance
  applied.applyDeliveryTransition
  applied.applyDestinationTransition recipientHashes

end AppliedFeedback

end Pixaeron.Notifications
