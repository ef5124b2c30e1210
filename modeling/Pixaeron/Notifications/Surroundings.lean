import Mathlib.Data.List.Sort
import Pixaeron.Transactions.World
import Pixaeron.Notifications.Schema

/-! # What the notifications services work with

The rows and advisory locks, the errors, the mail provider, the keys under which recipients are
hashed, and the statements that change rows.
-/

namespace Pixaeron.Notifications

open Transactions Transactions.Script

/-- What a transaction can hold a lock on. The last three are advisory locks. -/
inductive Resource where
  | delivery (requestId : String)
  | providerMessage (id : String)
  | event (fingerprint : String)
  | snsMessage (id : String)
  | destination (alias_ : RecipientHash)
  | recipientAlias (alias_ : RecipientHash)
  | recoveryOperation (id : String)
  | cleanup
deriving DecidableEq

inductive Failure where
  | unmatchedSesFeedback
  | conflictingSesFeedback
  | invalidFeedback (field : String)
  | emailCommandConflict
  | submissionConflict
  | recoveryEvidence (message : String)
  | recoveryState (message : String)
  | recoveryOperationConflict
  | recordNotFound
  | uniqueConstraint
  | rolledBack
deriving DecidableEq

/-- Names for the SQL statements of the services. -/
inductive Statement where
  | findByMessageId
  | findByRequestId
  | attachMessageId
  | findEvent
  | createEvent
  | setSubmittedAt
  | setAccepted
  | applyTerminal
  | applyNonterminal
  | lockAlias
  | findBlocked
  | readMailbox
  | upsertDestination
  | suppressAlias
  | suppressSince
  | updateAlias
  | findAuthoritative
  | convergeAliases
  | findDelivery
  | createDelivery
  | expireClaim
  | attempt
  | recordOutcome
  | setCallerResult
  | lockOperation
  | findAliases
  | findAudits
  | recover
  | createAudits
  | lockCleanup
  | deleteEvents
  | deleteAudits
  | deleteDeliveries
  | deleteRetired
  | deleteEquivalent
  | expireStaleClaims
deriving DecidableEq

/-! ## The keys of recipient hashes -/

structure RecipientHashKey where
  value : String
  version : Nat
deriving DecidableEq

/-- The configured keys. New rows are hashed under the active one. -/
structure KeyRing where
  keys : List RecipientHashKey
  activeKey : RecipientHashKey
  configured : activeKey ∈ keys
  versions : (keys.map RecipientHashKey.version).Nodup

/-- The active key, then the others from the newest to the oldest. -/
def KeyRing.lookupKeys (ring : KeyRing) : List RecipientHashKey :=
  ring.activeKey :: (ring.keys.filter fun k => k.version ≠ ring.activeKey.version).insertionSort
    fun left right => right.version ≤ left.version

/-- What the services are configured with, and the functions they take from elsewhere: the keyed
hash of recipients, the digest of a list of texts, and the form of times and identifiers. -/
structure Services where
  hmac : String → String → String
  digest : List String → String
  toISOString : Int → String
  isUUID : String → Bool
  trim : String → String
  toLowerCase : String → String
  deliveryLeaseMs : Nat
  retentionMs : Nat

namespace Services

variable (services : Services)

def normalizeEmail (email : String) : String := services.toLowerCase (services.trim email)

def hash (recipient : String) (key : RecipientHashKey) : RecipientHash :=
  ⟨services.hmac key.value recipient, key.version⟩

def create (ring : KeyRing) (recipient : String) : RecipientHash :=
  services.hash (services.normalizeEmail recipient) ring.activeKey

def createLookupHashes (ring : KeyRing) (recipient : String) : List RecipientHash :=
  ring.lookupKeys.map (services.hash (services.normalizeEmail recipient))

theorem lookupKeys_nodup (ring : KeyRing) :
    (ring.lookupKeys.map RecipientHashKey.version).Nodup := by
  unfold KeyRing.lookupKeys
  rw [List.map_cons, List.nodup_cons]
  refine ⟨?_, ?_⟩
  · intro hMem
    obtain ⟨k, hk, hSame⟩ := List.mem_map.mp hMem
    rw [List.mem_insertionSort, List.mem_filter] at hk
    simp [hSame] at hk
  · have hPerm :=
      (List.perm_insertionSort (fun left right : RecipientHashKey => right.version ≤ left.version)
      (ring.keys.filter fun k => k.version ≠ ring.activeKey.version)).map RecipientHashKey.version
    rw [hPerm.nodup_iff]
    exact ring.versions.sublist (List.filter_sublist.map _)

theorem createLookupHashes_nodup (ring : KeyRing) (recipient : String) :
    (services.createLookupHashes ring recipient).Nodup := by
  refine List.Nodup.of_map RecipientHash.keyVersion ?_
  rw [createLookupHashes, List.map_map]
  exact lookupKeys_nodup ring

end Services

def matchesRecipientHash (recipientHash : RecipientHash) (hashes : List RecipientHash) : Bool :=
  decide (recipientHash ∈ hashes)

/-! ## The mail provider -/

inductive SesSubmissionResult where
  | accepted (messageId : String)
  | rejected (code : String)
  | failed (code : String)
  | submissionUnknown (code : String)
deriving DecidableEq

/-- A submission that has reached the provider's client. -/
structure Submission where
  requestId : String
  deliveryId : String
  recipient : String
deriving DecidableEq

/-- The submissions so far, and the keys the services are deployed with. -/
structure Outside where
  submissions : List Submission
  keyRing : KeyRing

abbrev notifications : Vocabulary where
  Db := Database
  Res := Resource
  Ext := Outside
  Reply := SesSubmissionResult
  Err := Failure
  Name := Statement
  rolledBack := .rolledBack

/-- Prisma's time limit for an interactive transaction that asks for none. -/
def transactionTimeoutMs : Nat := 5000

/-! ## Statements -/

/-- `if (!condition) throw error`. -/
def require (condition : Prop) [Decidable condition] (error : Failure) :
    Script notifications Unit :=
  if condition then .done () else .fail error

/-- An error that reaches the caller. -/
def refuse {α : Type} (error : Failure) : Script notifications (Except Failure α) :=
  .done (.error error)

/-- `emailDelivery.updateMany`, with the number of rows it changed. -/
def updateDeliveries (name : Statement) (where_ : EmailDelivery → Bool) (change : DeliveryChange) :
    Script notifications Nat :=
  Script.change name (fun v => (v.db.deliveries.select where_).map fun d => .delivery d.requestId)
    (fun v db =>
      db.changeDeliveries ((v.db.deliveries.select where_).map EmailDelivery.requestId) change)
    fun v => (v.db.deliveries.select where_).length

/-- `emailDestination.updateMany`, with the number of rows it changed. -/
def updateDestinations (name : Statement) (where_ : EmailDestination → Bool)
    (change : DestinationChange) :
    Script notifications Nat :=
  Script.change name (fun v => (v.db.destinations.select where_).map fun d =>
    .destination d.recipientHash)
    (fun v db =>
      db.changeDestinations ((v.db.destinations.select where_).map EmailDestination.recipientHash)
      change)
    fun v => (v.db.destinations.select where_).length

/-- `WHERE id = …` for a row that has been read: it is found under its key. -/
def EmailDelivery.is (d : EmailDelivery) (row : EmailDelivery) : Bool :=
  row.requestId = d.requestId ∧ row.id = d.id

def aliasBefore (left right : RecipientHash) : Prop :=
  left.keyVersion < right.keyVersion ∨
    (left.keyVersion = right.keyVersion ∧ left.value ≤ right.value)

instance : DecidableRel aliasBefore := fun _ _ => inferInstanceAs (Decidable (_ ∨ _))

/-- `pg_advisory_xact_lock`. -/
def lockAlias (alias_ : RecipientHash) : Script notifications Unit :=
  Script.change .lockAlias (fun _ => [.recipientAlias alias_]) (fun _ => id) fun _ => ()

def lockRecipientAliases (recipientHashes : List RecipientHash) : Script notifications Unit :=
  forEach lockAlias (recipientHashes.insertionSort aliasBefore)

end Pixaeron.Notifications
