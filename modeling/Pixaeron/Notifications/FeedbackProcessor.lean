import Pixaeron.Notifications.FeedbackTransitions

/-! # Processing of feedback

One event of the provider: its delivery is found and gets the provider's message identifier, and
the event is stored with its transitions, once for every fingerprint.
-/

namespace Pixaeron.Notifications

open Transactions Transactions.Script

inductive ProcessingResult where
  | processed
  | duplicate
deriving DecidableEq

/-- The identifiers that are drawn for the rows of one event. -/
structure DrawnFeedback where
  eventId : String
  destinationId : RecipientHash → String

/-- The texts that make up the identity of an event. -/
def feedbackIdentity (services : Services) (feedback : SesFeedback)
    (recipientHash : String) : List String :=
  match feedback.event with
  | .bounce _ _ feedbackId => ["v1", feedback.sesMessageId, "BOUNCE", feedbackId, recipientHash]
  | .complaint _ _ feedbackId =>
    ["v1", feedback.sesMessageId, "COMPLAINT", feedbackId, recipientHash]
  | .deliveryDelay delayType =>
    ["v1", feedback.sesMessageId, "DELIVERY_DELAY", delayType,
      services.toISOString feedback.providerTimestamp, recipientHash]
  | .reject reason =>
    ["v1", feedback.sesMessageId, "REJECT", reason, services.toISOString feedback.providerTimestamp,
      recipientHash]
  | .send =>
    ["v1", feedback.sesMessageId, "SEND", "", services.toISOString feedback.providerTimestamp,
      recipientHash]
  | .delivery =>
    ["v1", feedback.sesMessageId, "DELIVERY", "", services.toISOString feedback.providerTimestamp,
      recipientHash]
  | .renderingFailure _ =>
    ["v1", feedback.sesMessageId, "RENDERING_FAILURE", "",
      services.toISOString feedback.providerTimestamp, recipientHash]

def createSesFeedbackFingerprint (services : Services) (feedback : SesFeedback)
    (recipientHash : String) : String :=
  services.digest (feedbackIdentity services feedback recipientHash)

/-- The delivery must have the request, the message and the recipient that the feedback names. -/
def deliveryMatches (feedback : SesFeedback) (recipientHashes : List RecipientHash)
    (delivery : EmailDelivery) : Bool :=
  (feedback.requestId.getD "" = "" || feedback.requestId = some delivery.requestId) &&
  (delivery.providerMessageId.getD "" = "" || delivery.providerMessageId =
    some feedback.sesMessageId) &&
  matchesRecipientHash delivery.recipientHash recipientHashes

def findDelivery (services : Services) (feedback : SesFeedback)
    (recipientHashes : List RecipientHash) :
    Script notifications EmailDelivery := do
  let hasValidRequestId := feedback.requestId.any services.isUUID
  let byMessageId ← query .findByMessageId fun v => v.db.deliveryByMessage feedback.sesMessageId
  let byRequestId ←
    if hasValidRequestId then
      query .findByRequestId fun v => feedback.requestId.bind v.db.deliveries.get
    else pure none
  require (¬(feedback.requestId.isSome ∧ hasValidRequestId = false)) .conflictingSesFeedback
  require (∀ d ∈ byMessageId, ∀ d' ∈ byRequestId, d.id = d'.id) .conflictingSesFeedback
  match byMessageId.or byRequestId with
  | none => fail .unmatchedSesFeedback
  | some delivery =>
    require (deliveryMatches feedback recipientHashes delivery = true) .conflictingSesFeedback
    pure delivery

def EmailDelivery.setProviderMessageId (messageId : String) : DeliveryChange where
  apply d := { d with providerMessageId := some messageId }
  key_apply _ := rfl

def Database.messageTaken (db : Database) (requestId messageId : String) : Bool :=
  db.deliveries.rows.any fun d => d.requestId ≠ requestId && d.providerMessageId = some messageId

/-- `emailDelivery.updateMany` that sets the provider's message identifier, which is unique. -/
def attachMessageId (delivery : EmailDelivery) (where_ : EmailDelivery → Bool)
    (messageId : String) :
    Script notifications Nat := do
  let answer ← Script.change .attachMessageId
    (fun v =>
      .providerMessage messageId ::
        (v.db.deliveries.select fun d => delivery.is d && where_ d).map fun d =>
          .delivery d.requestId)
    (fun v db => if v.db.messageTaken delivery.requestId messageId then db else
      db.changeDeliveries ((v.db.deliveries.select fun d => delivery.is d && where_ d).map
        EmailDelivery.requestId)
        (EmailDelivery.setProviderMessageId messageId))
    fun v => ((v.db.deliveries.select fun d => delivery.is d && where_ d).length,
      v.db.messageTaken delivery.requestId messageId)
  require (¬(answer.1 ≠ 0 ∧ answer.2 = true)) .uniqueConstraint
  pure answer.1

def attachProviderMessageId (delivery : EmailDelivery)
    (providerMessageId : String) : Script notifications Unit := do
  if delivery.providerMessageId = some providerMessageId then pure () else
    let attached ← attachMessageId delivery
      (fun d => d.providerMessageId = none || d.providerMessageId = some providerMessageId)
        providerMessageId
    require (attached = 1) .conflictingSesFeedback

def findDuplicateEvent (snsMessageId fingerprint : String) :
    Script notifications (Option EmailDeliveryEvent) :=
  query .findEvent fun v => v.db.eventOf snsMessageId fingerprint

def assertSameEvent (event : EmailDeliveryEvent) (deliveryId fingerprint : String) :
    Script notifications Unit :=
  require (event.deliveryId = deliveryId ∧
    event.semanticFingerprint = fingerprint) .conflictingSesFeedback

def newEvent (feedback : SesFeedback) (delivery : EmailDelivery) (fingerprint eventId : String)
    (now : Nat) :
    EmailDeliveryEvent where
  id := eventId
  deliveryId := delivery.id
  type := feedback.event.toEventType
  snsMessageId := feedback.snsMessageId
  providerFeedbackId := feedback.event.feedbackId
  subtype := feedback.event.eventSubtype
  providerMessageId := feedback.sesMessageId
  semanticFingerprint := fingerprint
  occurredAt := feedback.providerTimestamp
  receivedAt := now

/-- An identifier, a message and a fingerprint are stored once. -/
def Database.refusesEvent (db : Database) (eventId snsMessageId fingerprint : String) : Prop :=
  eventId ∈ db.issuedEvents ∨ (db.eventOf snsMessageId fingerprint).isSome = true

instance {db : Database} {eventId snsMessageId fingerprint : String} :
    Decidable (db.refusesEvent eventId snsMessageId fingerprint) :=
  inferInstanceAs (Decidable (_ ∨ _))

/-- `emailDeliveryEvent.create`. The row is received at the transaction's `now()`. -/
def createEvent (feedback : SesFeedback) (delivery : EmailDelivery) (fingerprint eventId : String) :
    Script notifications Unit := do
  let refused ← Script.change .createEvent (fun _ =>
    [.event fingerprint, .snsMessage feedback.snsMessageId])
    (fun v db => if v.db.refusesEvent eventId feedback.snsMessageId fingerprint then db else
      db.insertEvent (newEvent feedback delivery fingerprint eventId v.now))
    fun v => decide (v.db.refusesEvent eventId feedback.snsMessageId fingerprint)
  require (refused = false) .uniqueConstraint

def createEventRevision (feedback : SesFeedback) (fingerprint : String) : EventRevision :=
  ⟨feedback.providerTimestamp, feedback.event.feedbackPrecedence, fingerprint⟩

def persist (services : Services) (feedback : SesFeedback) (recipientHashes : List RecipientHash)
    (drawn : DrawnFeedback) :
    Script notifications ProcessingResult := do
  let delivery ← findDelivery services feedback recipientHashes
  attachProviderMessageId delivery feedback.sesMessageId
  require (delivery.recipientHash.value ≠ "") (.invalidFeedback "recipient hash")
  let fingerprint := createSesFeedbackFingerprint services feedback delivery.recipientHash.value
  let duplicate ← findDuplicateEvent feedback.snsMessageId fingerprint
  match duplicate with
  | some event =>
    assertSameEvent event delivery.id fingerprint
    pure .duplicate
  | none =>
    createEvent feedback delivery fingerprint drawn.eventId
    let applied : AppliedFeedback :=
      ⟨feedback, delivery, drawn.eventId, createEventRevision feedback fingerprint,
        drawn.destinationId⟩
    applied.transitions recipientHashes
    pure .processed

def isCommittedDuplicate (services : Services) (feedback : SesFeedback)
    (recipientHashes : List RecipientHash) :
    Script notifications Bool := do
  let delivery ← findDelivery services feedback recipientHashes
  require (delivery.recipientHash.value ≠ "") (.invalidFeedback "recipient hash")
  let fingerprint := createSesFeedbackFingerprint services feedback delivery.recipientHash.value
  let duplicate ← findDuplicateEvent feedback.snsMessageId fingerprint
  match duplicate with
  | none => pure false
  | some event =>
    assertSameEvent event delivery.id fingerprint
    pure true

/-- `process`, once the body of the message has been read. -/
def processFeedback (services : Services) (ring : KeyRing) (feedback : SesFeedback)
    (drawn : DrawnFeedback) :
    Script notifications (Except Failure ProcessingResult) :=
  let recipientHashes := services.createLookupHashes ring feedback.recipient
  transaction transactionTimeoutMs (do
    let result ← persist services feedback recipientHashes drawn
    pure (.ok result)) fun error =>
      if error = .uniqueConstraint then
        transaction transactionTimeoutMs (do
          let isDuplicate ← isCommittedDuplicate services feedback recipientHashes
          require (isDuplicate = true) error
          pure (.ok .duplicate)) refuse
      else refuse error

end Pixaeron.Notifications
