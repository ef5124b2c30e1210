import Pixaeron.Transactions.World
import Pixaeron.Conversion.Schema

/-! # What the services work with

The rows they lock, the queues and the object store they call, the answers they get and the
errors they raise.
-/

namespace Pixaeron.Conversion

open Transactions

/-- What a transaction can hold a lock on. A subject stands for its advisory lock. -/
inductive Resource where
  | subject (subject : String)
  | batch (id : Uuid)
  | file (id : Uuid)
  | usage (key : String × Nat)
  | outbox (id : Nat)
deriving DecidableEq

/-- A message of a request queue. `receives` is its receive count. -/
structure Request where
  queue : String
  body : ConversionRequestMessage
  receives : Nat
  deleted : Bool
deriving DecidableEq

structure EventMessage where
  body : WorkerEvent
  deleted : Bool
deriving DecidableEq

/-- One receive of a request by a worker. -/
structure Delivery where
  message : Nat
  fileId : Uuid
  batchId : Uuid
  attempt : Nat
deriving DecidableEq

/-- An object a delivery has stored. -/
structure StoredOutput where
  key : String
  delivery : Delivery
deriving DecidableEq

/-- The queues and the object store. The last four fields only observe: who received what, what
was stored, which deliveries deleted their request while a later receive had it, and how many
sends were accepted although they failed for their sender. -/
structure Outside where
  requests : List Request
  events : List EventMessage
  deliveries : List Delivery
  puts : List StoredOutput
  staleDeletes : List Delivery
  phantomSends : Nat

def Outside.initial : Outside := ⟨[], [], [], [], [], 0⟩

/-- The metadata a HEAD request answers with. -/
structure StoredObject where
  bytes : Nat
  etag : String
  checksumSha256 : Option String
deriving DecidableEq

inductive CompressionResult where
  | ok (kind : ConversionResultKind) (bytes : List UInt8) (format : ConversionImageFormat)
    (contentType : String) (frames width height : Nat)
  | failed (failureCode : ConversionFailureCode)
deriving DecidableEq

/-- Answers from outside the database. `threw applied` is an error for the caller; the other
side has acted on the request if `applied` says so. -/
inductive Reply where
  | ok
  | threw (applied : Bool)
  | deleted (gone : Bool)
  | head (stored : Option StoredObject)
  | headOf (fileId : Uuid) (stored : Option (Option StoredObject))
  | input (bytes : List UInt8)
  | inputRefused (failureCode : ConversionFailureCode)
  | compressed (result : CompressionResult)
  | preview (bytes : List UInt8)
deriving DecidableEq

inductive AdmissionErrorCode where
  | batchNotFound
  | batchNotAdmittable
  | batchSizeInvalid
  | batchTokenMismatch
  | dailyQuotaExceeded
  | fileNotMeasured
  | fileTooLarge
  | idempotencyConflict
  | storageLimitExceeded
deriving DecidableEq

inductive Failure where
  | admission (code : AdmissionErrorCode)
  | error (message : String)
  | uniqueConstraint (modelName : String)
  | rolledBack
deriving DecidableEq

/-- Names for the SQL statements of the services. -/
inductive Statement where
  | insertBatch
  | findByIdempotencyKey
  | findOwnedBatch
  | findUploading
  | verifyUpload
  | findBatch
  | lockSubject
  | lockBatch
  | claimReady
  | currentBatch
  | storageUsed
  | lockSubjectBatches
  | evictable
  | evict
  | rollUpRead
  | rollUpWrite
  | reserveDailyUsage
  | queueFiles
  | claimBatch
  | insertOutbox
  | remainingToday
  | startFile
  | startBatch
  | finishFile
  | findOverdueFiles
  | findAbandonedBatches
  | expireFiles
  | purgeBatches
  | purgeUsage
  | claimEvents
  | deleteDelivered
  | backOffFailed
deriving DecidableEq

abbrev conversion : Vocabulary where
  Db := Database
  Res := Resource
  Ext := Outside
  Reply := Reply
  Err := Failure
  Name := Statement
  rolledBack := .rolledBack

/-- `conversionFile.updateMany`: locks and changes the rows that match, and counts them. -/
def updateFiles (name : Statement) (where_ : View conversion → ConversionFile → Bool)
    (data : View conversion → ConversionFile → ConversionFile)
    (hKey : ∀ v f, (data v f).id = f.id := by exact fun _ _ => rfl) : Script conversion Nat :=
  Script.change name (fun v => (v.db.files.select (where_ v)).map fun f => .file f.id)
    (fun v db =>
      db.changeFiles ((v.db.files.select (where_ v)).map ConversionFile.id) (data v) (hKey v))
    fun v => (v.db.files.select (where_ v)).length

/-- `conversionBatch.updateMany`. -/
def updateBatches (name : Statement) (where_ : View conversion → ConversionBatch → Bool)
    (data : View conversion → ConversionBatch → ConversionBatch)
    (hKey : ∀ v b, (data v b).id = b.id := by exact fun _ _ => rfl) : Script conversion Nat :=
  Script.change name (fun v => (v.db.batches.select (where_ v)).map fun b => .batch b.id)
    (fun v db =>
      db.changeBatches ((v.db.batches.select (where_ v)).map ConversionBatch.id) (data v) (hKey v))
    fun v => (v.db.batches.select (where_ v)).length

/-- `SELECT … FROM conversion_batches … FOR UPDATE`. -/
def lockBatches (name : Statement) (where_ : ConversionBatch → Bool) : Script conversion Unit :=
  Script.lockRows name (fun v => (v.db.batches.select where_).map fun b => .batch b.id) fun _ => ()

/-- `if (!condition) throw error`. -/
def require (condition : Prop) [Decidable condition] (error : Failure) : Script conversion Unit :=
  if condition then .done () else .fail error

/-- What the services are configured with: the two hash functions and the size from which a paid
file goes to the queue for large files. -/
structure Services where
  digest : String → String
  sha256 : List UInt8 → String
  largeQueueBytes : Nat

/-- Prisma's time limit for an interactive transaction that asks for none. -/
def transactionTimeoutMs : Nat := 5000

end Pixaeron.Conversion
