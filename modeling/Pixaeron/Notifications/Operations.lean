import Pixaeron.Notifications.FeedbackPolicy
import Pixaeron.Notifications.SecurityEmail

/-! # Operations

Commands that take a suppressed recipient back into use, the clean-up of old rows, and the
reconciliation of claims whose lease has run out.
-/

namespace Pixaeron.Notifications

open Transactions Transactions.Script

/-! ## Reconciliation -/

def expireStaleClaims : Script notifications (Except Failure Unit) := do
  let expiredAt ← readClock
  let _ ← updateDeliveries .expireStaleClaims (EmailDelivery.expiredLease expiredAt)
    (EmailDelivery.expireLease expiredAt)
  pure (.ok ())

/-! ## Recovery -/

structure RecoveryEvidence where
  operationId : String
  expectedSuppressionRevision : Int
  actorId : String
  reasonCode : String
  evidenceReference : String
  providerRequestId : Option String
deriving DecidableEq

def isAlphanumeric (c : Char) : Bool := c.isAlphanum

/-- One character of the first kind and at most `most` of the second. -/
def matchesPattern (first rest : Char → Bool) (most : Nat) (value : String) : Bool :=
  match value.toList with
  | [] => false
  | c :: cs => first c && decide (cs.length ≤ most) && cs.all rest

def actorIdPattern : String → Bool :=
  matchesPattern isAlphanumeric (fun c => isAlphanumeric c || c ∈ ['.', '_', ':', '/', '-']) 127

def reasonCodePattern : String → Bool :=
  matchesPattern Char.isUpper (fun c => c.isUpper || c.isDigit || c = '_') 99

def evidenceReferencePattern : String → Bool :=
  matchesPattern isAlphanumeric
    (fun c => isAlphanumeric c || c ∈ ['.', '_', ':', '/', '#', '-']) 254

def providerRequestIdPattern : String → Bool :=
  matchesPattern isAlphanumeric (fun c => isAlphanumeric c || c = '-') 254

/-- `Number.MAX_SAFE_INTEGER`. -/
def maxSafeInteger : Int := 9007199254740991

def validateIdentifier (services : Services) (value : String) (pattern : String → Bool)
    (name : String) : Except String Unit :=
  if value ≠ services.trim value ∨ pattern value = false then
    .error (name ++ " must be an opaque identifier") else .ok ()

def validateProviderRequest (action : EmailRecoveryAction)
    (providerRequestId : String) : Except String Unit :=
  if action = .completed ∧ providerRequestId = "" then
    .error "provider-request is required for completion"
  else if providerRequestId ≠ "" ∧ providerRequestIdPattern providerRequestId = false then
    .error "provider-request must be an opaque identifier"
  else .ok ()

def validateRecoveryEvidence (services : EmailServices) (evidence : RecoveryEvidence)
    (action : EmailRecoveryAction) :
    Except String Unit :=
  if services.isUUIDv4 evidence.operationId = false then .error "operation-id must be a UUID v4"
  else if evidence.expectedSuppressionRevision < 1 ∨
    maxSafeInteger < evidence.expectedSuppressionRevision then
    .error "suppression-revision must be a positive integer"
  else do
    validateIdentifier services.toServices evidence.actorId actorIdPattern "actor"
    validateIdentifier services.toServices evidence.reasonCode reasonCodePattern "reason"
    validateIdentifier services.toServices evidence.evidenceReference
      evidenceReferencePattern "evidence"
    validateProviderRequest action (evidence.providerRequestId.getD "")

/-- The status that a command expects and the one it leaves. -/
structure RecoveryTransition where
  expectedStatus : EmailDestinationStatus
  nextStatus : EmailDestinationStatus
  action : EmailRecoveryAction
deriving DecidableEq

def EmailDestinationStatus.text : EmailDestinationStatus → String
  | .active => "ACTIVE"
  | .temporaryFailure => "TEMPORARY_FAILURE"
  | .suppressed => "SUPPRESSED"
  | .recoveryPending => "RECOVERY_PENDING"

def maximumRevision (revisions : List Nat) : Nat := revisions.foldl max 0

def isExactReplay (audits : List EmailRecoveryAudit) (destinations : List EmailDestination)
    (change : RecoveryTransition) (evidence : RecoveryEvidence) : Bool :=
  (maximumRevision (audits.map EmailRecoveryAudit.suppressionRevision) : Int) =
    evidence.expectedSuppressionRevision &&
  audits.all fun audit =>
    decide (audit.destinationId ∈ destinations.map EmailDestination.id) && audit.action =
      change.action &&
    audit.actorId = evidence.actorId && audit.reasonCode = evidence.reasonCode &&
    audit.evidenceReference = evidence.evidenceReference && audit.providerRequestId =
      evidence.providerRequestId &&
    audit.previousStatus = change.expectedStatus && audit.nextStatus = change.nextStatus

def isExpectedState (destinations : List EmailDestination) (expectedStatus : EmailDestinationStatus)
    (expectedRevision : Int) : Bool :=
  destinations.all (fun d => d.status = expectedStatus) &&
  (maximumRevision (destinations.map EmailDestination.suppressionRevision) : Int) = expectedRevision

/-- `destinationUpdate`. -/
def EmailDestination.recover (nextStatus : EmailDestinationStatus) : DestinationChange where
  apply d :=
    if nextStatus = .active then
      { d with status := nextStatus, reasonCode := none, suppressedAt := none }
    else { d with status := nextStatus }
  key_apply d := by split <;> rfl

def newAudit (change : RecoveryTransition) (evidence : RecoveryEvidence) (now : Nat)
    (destination : EmailDestination) :
    EmailRecoveryAudit where
  destinationId := destination.id
  operationId := evidence.operationId
  action := change.action
  actorId := evidence.actorId
  reasonCode := evidence.reasonCode
  evidenceReference := evidence.evidenceReference
  previousStatus := change.expectedStatus
  nextStatus := change.nextStatus
  providerRequestId := evidence.providerRequestId
  suppressionRevision := destination.suppressionRevision
  createdAt := now

/-- The row is still as it was read. -/
def isUnchanged (destinations : List EmailDestination) (expectedStatus : EmailDestinationStatus)
    (d : EmailDestination) :
    Bool :=
  destinations.any fun found =>
    found.is d && d.status = expectedStatus && d.suppressionRevision = found.suppressionRevision

def applyRecovery (change : RecoveryTransition) (evidence : RecoveryEvidence)
    (destinations : List EmailDestination) :
    Script notifications Unit := do
  require (isExpectedState destinations change.expectedStatus evidence.expectedSuppressionRevision =
    true)
    (.recoveryState ("Email destination must be " ++ change.expectedStatus.text ++
      " at suppression revision " ++
      toString evidence.expectedSuppressionRevision))
  let updated ← updateDestinations .recover (isUnchanged destinations change.expectedStatus)
    (EmailDestination.recover change.nextStatus)
  require (updated = destinations.length)
    (.recoveryState "Email destination changed during recovery")
  Script.change .createAudits (fun _ => []) (fun v db =>
    db.insertAudits (destinations.map (newAudit change evidence v.now)))
    fun _ => ()

def transitionInTransaction (change : RecoveryTransition) (evidence : RecoveryEvidence)
    (lookupHashes : List RecipientHash) :
    Script notifications Unit := do
  Script.change .lockOperation (fun _ => [.recoveryOperation evidence.operationId])
    (fun _ => id) fun _ => ()
  let destinations ← query .findAliases fun v => v.db.aliases lookupHashes
  require (destinations ≠ []) (.recoveryState "Email destination does not exist")
  let existingAudits ← query .findAudits fun v => v.db.audits.select fun a =>
    a.operationId = evidence.operationId
  if existingAudits ≠ [] then
    require (isExactReplay existingAudits destinations change evidence = true)
      .recoveryOperationConflict
  else applyRecovery change evidence destinations

def transition (services : EmailServices) (ring : KeyRing) (recipient : String)
    (change : RecoveryTransition) (evidence : RecoveryEvidence) :
    Script notifications (Except Failure Unit) :=
  match validateRecoveryEvidence services evidence change.action with
  | .error message => refuse (.recoveryEvidence message)
  | .ok _ =>
    transaction transactionTimeoutMs (do
      transitionInTransaction change evidence (services.createLookupHashes ring recipient)
      pure (.ok ())) refuse

def requestRecovery (services : EmailServices) (ring : KeyRing) (recipient : String)
    (evidence : RecoveryEvidence) :
    Script notifications (Except Failure Unit) :=
  transition services ring recipient ⟨.suppressed, .recoveryPending, .requested⟩ evidence

def completeRecovery (services : EmailServices) (ring : KeyRing) (recipient : String)
    (evidence : RecoveryEvidence) :
    Script notifications (Except Failure Unit) :=
  transition services ring recipient ⟨.recoveryPending, .active, .completed⟩ evidence

def failRecovery (services : EmailServices) (ring : KeyRing) (recipient : String)
    (evidence : RecoveryEvidence) :
    Script notifications (Except Failure Unit) :=
  transition services ring recipient ⟨.recoveryPending, .suppressed, .failed⟩ evidence

/-! ## Retention -/

def cleanupTimeoutMs : Nat := 30000

def Database.hasEvents (db : Database) (d : EmailDelivery) : Bool :=
  db.events.rows.any fun e => e.deliveryId = d.id

def Database.hasAudits (db : Database) (d : EmailDestination) : Bool :=
  db.audits.rows.any fun a => a.destinationId = d.id

/-- An alias under an older key that no longer blocks and that no audit is about. -/
def Database.isRetired (db : Database) (activeKeyVersion : Nat) (d : EmailDestination) : Bool :=
  d.recipientHash.keyVersion ≠ activeKeyVersion &&
    (d.status = .active || d.status = .temporaryFailure) && !db.hasAudits d

/-- The alias under the active key that has the state of an older one. -/
def isEquivalent (activeKeyVersion : Nat) (old active : EmailDestination) : Bool :=
  active.recipientHash.keyVersion = activeKeyVersion && active.status = old.status &&
  active.lastEventId = old.lastEventId && active.lastDeliveryId =
    old.lastDeliveryId && active.lastEvent = old.lastEvent &&
  active.reasonCode = old.reasonCode && active.suppressionRevision = old.suppressionRevision

/-- A blocking alias under an older key whose state an alias under the active key has, too. -/
def Database.isRetiredBlocking (db : Database) (activeKeyVersion : Nat)
    (d : EmailDestination) : Bool :=
  d.recipientHash.keyVersion ≠ activeKeyVersion && d.blocked && d.lastEventId.isSome &&
    !db.hasAudits d &&
  db.destinations.rows.any (isEquivalent activeKeyVersion d)

def deleteDestinations (name : Statement) (where_ : Database → EmailDestination → Bool) :
    Script notifications Unit :=
  Script.change name
    (fun v => (v.db.destinations.select (where_ v.db)).map fun d => .destination d.recipientHash)
    (fun v db => db.deleteDestinations fun d => d.recipientHash ∈
      (v.db.destinations.select (where_ v.db)).map EmailDestination.recipientHash)
    fun _ => ()

def deleteHistory (cutoff : Nat) : Script notifications Unit := do
  Script.change .deleteEvents
    (fun v => (v.db.events.select fun e => e.receivedAt < cutoff).map fun e =>
      .event e.semanticFingerprint)
    (fun v db => db.deleteEvents fun e => e.semanticFingerprint ∈
      (v.db.events.select fun e => e.receivedAt < cutoff).map
        EmailDeliveryEvent.semanticFingerprint) fun _ => ()
  Script.change .deleteAudits (fun _ => [])
    (fun v db => db.deleteAudits fun a => a.key ∈
      (v.db.audits.select fun a => a.createdAt < cutoff).map EmailRecoveryAudit.key) fun _ => ()
  Script.change .deleteDeliveries
    (fun v =>
      (v.db.deliveries.select fun d => d.createdAt < cutoff && !v.db.hasEvents d).map fun d =>
        .delivery d.requestId)
    (fun v db => db.deleteDeliveries fun d => d.requestId ∈
      (v.db.deliveries.select fun d => d.createdAt < cutoff && !v.db.hasEvents d).map
        EmailDelivery.requestId) fun _ => ()

def cleanupExpiredHistory (services : EmailServices) (ring : KeyRing) :
    Script notifications (Except Failure Unit) := do
  let time ← readClock
  transaction cleanupTimeoutMs (do
    let acquired ← Script.change .lockCleanup (fun v => if v.busy .cleanup then [] else [.cleanup])
      (fun _ => id)
      fun v => !v.busy .cleanup
    if acquired = false then pure (.ok ()) else
      deleteHistory (time - services.retentionMs)
      deleteDestinations .deleteRetired fun db => db.isRetired ring.activeKey.version
      deleteDestinations .deleteEquivalent fun db => db.isRetiredBlocking ring.activeKey.version
      pure (.ok ())) refuse

end Pixaeron.Notifications
