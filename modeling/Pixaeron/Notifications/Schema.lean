import Mathlib.Data.Prod.Lex
import Mathlib.Data.String.Basic
import Pixaeron.Transactions.Table

/-! # The tables of the notifications service

Deliveries of security e-mails, the provider's events about them, one destination row for every
hash of a recipient's address, and the audit of recovery commands.
-/

namespace Pixaeron.Notifications

open Transactions

structure RecipientHash where
  value : String
  keyVersion : Nat
deriving DecidableEq

inductive EmailPurpose where
  | emailVerification
  | passwordReset
deriving DecidableEq

inductive EmailDeliveryStatus where
  | pending
  | accepted
  | delivered
  | delayed
  | bounced
  | complained
  | rejected
  | failed
  | submissionUnknown
  | suppressed
deriving DecidableEq

inductive EmailCommandResult where
  | accepted
  | failed
  | rejected
  | suppressed
  | submissionUnknown
deriving DecidableEq

inductive EmailDeliveryEventType where
  | send
  | delivery
  | deliveryDelay
  | bounce
  | complaint
  | reject
  | renderingFailure
deriving DecidableEq

inductive EmailDestinationStatus where
  | active
  | temporaryFailure
  | suppressed
  | recoveryPending
deriving DecidableEq

inductive EmailRecoveryAction where
  | requested
  | completed
  | failed
deriving DecidableEq

/-! ## Event revisions -/

/-- What orders the provider's events: the time, the precedence of the kind of event, and the
fingerprint where both agree. The times are the provider's, in milliseconds. -/
structure EventRevision where
  occurredAt : Int
  rank : Nat
  fingerprint : String
deriving DecidableEq

namespace EventRevision

def key (r : EventRevision) : Int ×ₗ Nat ×ₗ String :=
  toLex (r.occurredAt, toLex (r.rank, r.fingerprint))

theorem key_injective : Function.Injective key := by
  rintro ⟨t, n, f⟩ ⟨t', n', f'⟩ h
  obtain ⟨hTime, hRest⟩ := Prod.mk.inj (toLex.injective h)
  obtain ⟨hRank, hFingerprint⟩ := Prod.mk.inj (toLex.injective hRest)
  rw [mk.injEq]
  exact ⟨hTime, hRank, hFingerprint⟩

instance : LinearOrder EventRevision := LinearOrder.lift' key key_injective

theorem lt_iff {r r' : EventRevision} : r < r' ↔ r.occurredAt < r'.occurredAt ∨
    (r.occurredAt = r'.occurredAt ∧
      (r.rank < r'.rank ∨ (r.rank = r'.rank ∧ r.fingerprint < r'.fingerprint))) := by
  show toLex (r.occurredAt, toLex (r.rank, r.fingerprint)) <
    toLex (r'.occurredAt, toLex (r'.rank, r'.fingerprint)) ↔ _
  rw [Prod.Lex.toLex_lt_toLex, Prod.Lex.toLex_lt_toLex]

end EventRevision

/-! ## Rows -/

/-- The three columns of the last event are all null or all set, so they are one field. -/
structure EmailDelivery where
  id : String
  requestId : String
  publicSubject : String
  recipientHash : RecipientHash
  purpose : EmailPurpose
  contentVersion : Nat
  tokenFingerprint : String
  status : EmailDeliveryStatus
  callerResult : Option EmailCommandResult
  callerResultCode : Option String
  providerMessageId : Option String
  attemptCount : Nat
  leaseExpiresAt : Option Nat
  failureCode : Option String
  submittedAt : Option Int
  finalizedAt : Option Nat
  lastEvent : Option EventRevision
  createdAt : Nat
deriving DecidableEq

structure EmailDeliveryEvent where
  id : String
  deliveryId : String
  type : EmailDeliveryEventType
  snsMessageId : String
  providerFeedbackId : Option String
  subtype : Option String
  providerMessageId : String
  semanticFingerprint : String
  occurredAt : Int
  receivedAt : Nat
deriving DecidableEq

structure EmailDestination where
  id : String
  recipientHash : RecipientHash
  status : EmailDestinationStatus
  reasonCode : Option String
  suppressedAt : Option Int
  lastDeliveryId : Option String
  lastEventId : Option String
  lastEvent : Option EventRevision
  suppressionRevision : Nat
deriving DecidableEq

structure EmailRecoveryAudit where
  destinationId : String
  operationId : String
  action : EmailRecoveryAction
  actorId : String
  reasonCode : String
  evidenceReference : String
  previousStatus : EmailDestinationStatus
  nextStatus : EmailDestinationStatus
  providerRequestId : Option String
  suppressionRevision : Nat
  createdAt : Nat
deriving DecidableEq

def EmailRecoveryAudit.key (a : EmailRecoveryAudit) : String × String :=
  (a.operationId, a.destinationId)

/-- A change of one row that leaves its key alone. -/
structure RowChange {κ ρ : Type} (key : ρ → κ) where
  apply : ρ → ρ
  key_apply : ∀ r, key (apply r) = key r

abbrev DeliveryChange := RowChange EmailDelivery.requestId

abbrev DestinationChange := RowChange EmailDestination.recipientHash

/-! ## The database -/

/-- A delivery is found under its request id, an alias row under its hash and an event under its
fingerprint; the schema makes them unique. `issuedDeliveries` and `issuedEvents` remember the
identifiers that have ever been used, so that none is drawn twice. -/
structure Database where
  deliveries : Table EmailDelivery.requestId
  events : Table EmailDeliveryEvent.semanticFingerprint
  destinations : Table EmailDestination.recipientHash
  audits : Table EmailRecoveryAudit.key
  issuedDeliveries : List String
  issuedEvents : List String

namespace Database

def changeDeliveries (db : Database) (requestIds : List String)
    (change : DeliveryChange) : Database :=
  { db with deliveries := db.deliveries.modify requestIds change.apply change.key_apply }

def changeDestinations (db : Database) (aliases : List RecipientHash)
    (change : DestinationChange) : Database :=
  { db with destinations := db.destinations.modify aliases change.apply change.key_apply }

def insertDelivery (db : Database) (d : EmailDelivery) : Database :=
  { db with deliveries := db.deliveries.insert d, issuedDeliveries := d.id :: db.issuedDeliveries }

def insertEvent (db : Database) (e : EmailDeliveryEvent) : Database :=
  { db with events := db.events.insert e, issuedEvents := e.id :: db.issuedEvents }

def insertDestination (db : Database) (d : EmailDestination) : Database :=
  { db with destinations := db.destinations.insert d }

def insertAudits (db : Database) (audits : List EmailRecoveryAudit) : Database :=
  { db with audits := audits.foldl Table.insert db.audits }

def deleteEvents (db : Database) (p : EmailDeliveryEvent → Bool) : Database :=
  { db with events := db.events.delete p }

def deleteAudits (db : Database) (p : EmailRecoveryAudit → Bool) : Database :=
  { db with audits := db.audits.delete p }

def deleteDeliveries (db : Database) (p : EmailDelivery → Bool) : Database :=
  { db with deliveries := db.deliveries.delete p }

def deleteDestinations (db : Database) (p : EmailDestination → Bool) : Database :=
  { db with destinations := db.destinations.delete p }

/-- `WHERE provider_message_id = …`. -/
def deliveryByMessage (db : Database) (messageId : String) : Option EmailDelivery :=
  db.deliveries.rows.find? fun d => d.providerMessageId = some messageId

/-- The event of that SNS message or that fingerprint. -/
def eventOf (db : Database) (snsMessageId fingerprint : String) : Option EmailDeliveryEvent :=
  db.events.rows.find? fun e => e.snsMessageId = snsMessageId ∨ e.semanticFingerprint = fingerprint

/-- The alias rows among the given hashes, in the order of the table. -/
def aliases (db : Database) (hashes : List RecipientHash) : List EmailDestination :=
  db.destinations.select fun d => d.recipientHash ∈ hashes

end Database

end Pixaeron.Notifications
