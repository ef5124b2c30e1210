import Pixaeron.Transactions.Ledger
import Pixaeron.Conversion.Evolution

/-! # What the calls commit

Whatever a call does to the rows is one of the commits below. `Allowed` says what was true of
the rows at that moment.
-/

namespace Pixaeron.Conversion

open Transactions

abbrev LogEntry := Entry conversion Call

/-- What is assumed of a run: subjects whose storage cap never changes, whether a drain may lose
a message it has already sent, and whether worker events come from workers only. -/
structure Policy where
  cap : String → Option Nat
  clean : Bool
  closed : Bool

/-- An admission with something to admit, as it commits. -/
structure Admission where
  batch : ConversionBatch
  snapshot : EntitlementSnapshot
  outputRetention : ConversionRetentionClass
  tierQueue : String
  claimed : List ClaimedFile
  startedAt : Nat
  retentionExpiresAt : Nat
  evicted : List Uuid
  evictedAt : Nat
  rolled : List Uuid

/-- `rolled` are the batches that a roll-up gave a new status. -/
inductive Commit where
  | nothing
  | create (input : CreateBatchInput) (snapshot : EntitlementSnapshot)
      (planCode : ConversionPlanCode)
    (drawn : Drawn) (now : Nat)
  | verify (ids : List Uuid) (stored : StoredObject)
  | admission (a : Admission)
  | start (ids : List Uuid) (event : WorkerEvent) (startedAt : Nat)
  | process (ids : List Uuid)
  | finish (event : WorkerEvent) (data : FileResult) (rolled : List Uuid)
      (status : ConversionBatchStatus)
  | sweep (batchId : Uuid) (ids rolled : List Uuid) (status : ConversionBatchStatus)
  | purge (ids : List Uuid)
  | purgeUsage (keys : List (String × Nat))
  | publish (deliveredIds failedIds : List Nat) (now : Nat)

namespace Admission

def claimedIds (a : Admission) : List Uuid := a.claimed.map ClaimedFile.id

def evict (a : Admission) (db : Database) : Database :=
  db.changeFiles a.evicted fun f => { f with status := .expired, expiresAt := a.evictedAt }

def rollUp (a : Admission) (db : Database) : Database :=
  db.changeBatches a.rolled fun b => { b with status := .expired }

def charge (a : Admission) (db : Database) : Database :=
  match a.snapshot.dailyFiles with
  | some _ => db.reserve a.batch.subject (dayOf a.startedAt) a.claimed.length
  | none => db

def queueFiles (a : Admission) (db : Database) : Database :=
  db.changeFiles a.claimedIds fun f =>
    { f with status := .queued, expiresAt := a.retentionExpiresAt }

def queueBatch (a : Admission) (db : Database) : Database :=
  db.changeBatches [a.batch.id] fun b =>
    { b with status := .queued, expiresAt := a.retentionExpiresAt }

variable (services : Services)

def messages (a : Admission) : List (String × ConversionRequestMessage) :=
  a.claimed.map fun file =>
    (queueFor services a.snapshot a.tierQueue file, requestFor a.batch a.outputRetention file)

def write (a : Admission) (db : Database) : Database :=
  (a.queueBatch (a.queueFiles (a.charge (a.rollUp (a.evict db))))).insertOutbox a.startedAt
    (a.messages services)

end Admission

variable (services : Services)

def Commit.apply : Commit → Database → Database
  | .nothing, db => db
  | .create input snapshot planCode drawn now, db =>
    db.insertBatch (newBatch services input snapshot planCode drawn now)
      (drawn.fileIds.map fun fileId => newFile drawn.batchId fileId (now + uploadWindowMs))
  | .verify ids stored, db => db.changeFiles ids fun f =>
    { f with status := .ready, inputBytes := some stored.bytes, inputEtag := some stored.etag }
  | .admission a, db => a.write services db
  | .start ids event startedAt, db => db.changeFiles ids fun f =>
    { f with status := .processing, attempt := event.attempt, startedAt := some startedAt }
  | .process ids, db => db.changeBatches ids fun b => { b with status := .processing }
  | .finish event data rolled status, db =>
    (db.changeFiles [event.fileId] data.write data.write_id).changeBatches rolled fun b =>
      { b with status := status }
  | .sweep _ ids rolled status, db =>
    (db.changeFiles ids fun f => { f with status := .expired }).changeBatches rolled fun b =>
      { b with status := status }
  | .purge ids, db => db.deleteBatches ids
  | .purgeUsage keys, db => db.deleteUsage keys
  | .publish deliveredIds failedIds now, db =>
    (db.deleteDelivered deliveredIds).backOffFailed failedIds now

def Call.handles : Call → WorkerEvent → Prop
  | .applyEvent event', event => event = event'
  | .consume _ body, event => event = body
  | _, _ => False

def Call.admission : Call → Option (Uuid × BatchOwnership × EntitlementSnapshot)
  | .completeUploads batchId ownership snapshot => some (batchId, ownership, snapshot)
  | .admitReadyFiles batchId ownership snapshot => some (batchId, ownership, snapshot)
  | _ => none

def Database.statuses (db : Database) (batchId : Uuid) : List ConversionFileStatus :=
  (db.filesOf batchId).map ConversionFile.status

/-- The batch agrees with its files, if it exists. -/
def Database.AgreesOn (db : Database) (batchId : Uuid) : Prop :=
  ∀ b, db.batches.get batchId = some b → Agrees b.status (db.statuses batchId)

/-- The event accounts for the result, and a completed one has been checked against the store. -/
inductive FileResult.Reports (event : WorkerEvent) (replies : List Reply) : FileResult → Prop
  | failed {failureCode : String} {completedAt : Nat} :
    event.report = .result (.failed failureCode) →
      Reports event replies (.failed failureCode completedAt)
  | completed {result : CompletedOutcome} {stored : StoredObject} {completedAt : Nat} :
    event.report = .result (.completed result) →
    result.outputObjectKey = outputObjectKey event.batchId event.fileId event.attempt →
    (∀ key, result.previewObjectKey = some key →
      key = previewObjectKey event.batchId event.fileId event.attempt) →
    .head (some stored) ∈ replies → stored.bytes = result.outputBytes →
    stored.checksumSha256 = some result.outputChecksumSha256 →
    Reports event replies (.completed result completedAt)

/-- What is true when an admission commits. -/
structure Admission.Allowed (p : Policy) (e : LogEntry) (a : Admission) : Prop where
  call : ∃ ownership, e.call.admission = some (a.batch.id, ownership, a.snapshot) ∧
    ownership.subject = a.batch.subject
  started : a.startedAt = e.startedAt
  timely : e.endedAt ≤ e.startedAt + transactionTimeoutMs
  retention : ∃ t, e.startedAt ≤ t ∧ t ≤ e.endedAt ∧
    a.retentionExpiresAt = t + a.snapshot.outputRetentionHours * hourMs
  retentionClass : retentionClassByHours a.snapshot.outputRetentionHours = some a.outputRetention
  tier : queueForTier a.snapshot.queueTier = .ok a.tierQueue
  nonempty : a.claimed ≠ []
  distinct : a.claimedIds.Nodup
  claimed : ∀ c ∈ a.claimed, ∃ f, e.before.files.get c.id = some f ∧ f.status = .ready ∧
    f.batchId = a.batch.id ∧ f.claimed = c ∧ f.inputBytes.isSome ∧ f.inputEtag.isSome
  batch : ∃ b, e.before.batches.get a.batch.id = some b ∧ BatchStep a.batch b ∧
    (b.status = .uploading ∨ b.status = .queued)
  born : a.batch.createdAt ≤ e.startedAt
  quota : ∀ dailyFiles, a.snapshot.dailyFiles = some dailyFiles → a.claimed.length ≤ dailyFiles ∧
    e.before.reserves a.batch.subject (dayOf e.startedAt) a.claimed.length dailyFiles = true
  evicted : ∀ id ∈ a.evicted, ∃ f, e.before.files.get id = some f ∧ f.status = .completed ∧
    e.before.subjectOf f = some a.batch.subject ∧ e.startedAt < f.expiresAt
  uncapped : a.snapshot.storageBytes = none → a.evicted = []
  overCap : a.evicted ≠ [] → ∃ storageBytes measured, a.snapshot.storageBytes = some storageBytes ∧
    e.saw .storageUsed = some measured ∧
      storageBytes < measured.storageUsed a.batch.subject e.startedAt +
      (a.claimed.map fun c => c.inputBytes.getD 0).sum
  rolled : ∀ id ∈ a.rolled, ∃ f ∈ a.evicted, ∃ row, e.before.files.get f = some row ∧
    row.batchId = id
  agrees : ∀ id ∈ a.evicted, ∀ row, e.before.files.get id = some row → row.batchId ≠ a.batch.id →
    (a.write services e.before).AgreesOn row.batchId
  cap : ∀ storageBytes, p.cap a.batch.subject = some storageBytes →
    (a.write services e.before).storageUsed a.batch.subject e.startedAt ≤ storageBytes

def Commit.Allowed (p : Policy) (e : LogEntry) : Commit → Prop
  | .nothing => True
  | .create input snapshot planCode drawn now =>
    e.call = .createBatch input snapshot drawn ∧ planCodes snapshot.planCode = some planCode ∧
      now = e.endedAt ∧ drawn.fileIds ≠ [] ∧ drawn.fileIds.length = input.fileCount ∧
      e.before.acceptsBatch input drawn = true ∧ e.before.acceptsFiles drawn = true
  | .verify ids _ => ∀ id ∈ ids, ∃ f, e.before.files.get id = some f ∧ f.status = .uploading
  | .admission a => a.Allowed services p e
  | .start ids event _ => e.call.handles event ∧ event.report = .started ∧
    ∀ id ∈ ids, ∃ f, e.before.files.get id = some f ∧ id = event.fileId ∧
      f.batchId = event.batchId ∧
      f.status ∈ eventAcceptingFileStatuses ∧ f.attempt < event.attempt
  | .process ids => ∀ id ∈ ids, ∃ b, e.before.batches.get id = some b ∧ b.status = .queued
  | .finish event data rolled status => e.call.handles event ∧ data.Reports event e.replies ∧
    (∃ f, e.before.files.get event.fileId = some f ∧ f.batchId = event.batchId ∧
      f.status ∈ eventAcceptingFileStatuses ∧ f.attempt ≤ event.attempt) ∧
    (∀ id ∈ rolled, id = event.batchId ∧ status ≠ .uploading) ∧
    (Commit.finish event data rolled status |>.apply services e.before).AgreesOn event.batchId
  | .sweep batchId ids rolled status =>
    (∀ id ∈ ids, ∃ f, e.before.files.get id = some f ∧ f.batchId = batchId ∧
      f.status ∈ liveFileStatuses ∧
      f.expiresAt ≤ e.endedAt) ∧
    (∀ id ∈ rolled, id = batchId ∧ status ≠ .uploading) ∧
    (Commit.sweep batchId ids rolled status |>.apply services e.before).AgreesOn batchId
  | .purge ids => ∀ id ∈ ids, ∃ b, e.before.batches.get id = some b ∧
    b.expiresAt ≤ e.endedAt - purgeGraceMs ∧ ∀ f ∈ e.before.filesOf id, f.status ∉ liveFileStatuses
  | .purgeUsage keys =>
    e.call = .purgeDeadRows ∧ ∀ key ∈ keys, key.2 < dayOf (e.endedAt - purgeGraceMs)
  | .publish _ _ _ => ∃ rounds, e.call = .drain rounds

/-- The files that an entry evicts: completed before it, expired after it. -/
def Evicted (e : LogEntry) (id : Uuid) : Prop :=
  ∃ f f', e.before.files.get id = some f ∧ f.status = .completed ∧
    e.after.files.get id = some f' ∧ f'.status = .expired

/-- How the storage check of an admission went: nothing is evicted without it, and it is left out
only where no file is claimed or no plan caps the storage; nothing is evicted without a deficit, and
with one the eviction loop decides. -/
def StorageChecked (e : LogEntry) : Prop :=
  ∀ batchId ownership snapshot, e.call.admission = some (batchId, ownership, snapshot) →
  (e.saw .storageUsed = none → e.error ≠ some (.admission .storageLimitExceeded) ∧
    (e.error = none → (∀ id, ¬ Evicted e id) ∧ (snapshot.storageBytes ≠ none →
      ∀ ready, e.saw .claimReady = some ready → ready.readyFiles batchId = []))) ∧
  ∀ measured, e.saw .storageUsed = some measured → ∃ ready storageBytes,
    e.saw .claimReady = some ready ∧ snapshot.storageBytes = some storageBytes ∧
    let incoming := ((ready.readyFiles batchId).map fun f => f.inputBytes.getD 0).sum
    let deficit : Int :=
      (measured.storageUsed ownership.subject e.startedAt : Int) + incoming - storageBytes
    (deficit ≤ 0 → e.saw .evictable = none ∧ e.error ≠ some (.admission .storageLimitExceeded) ∧
      (e.error = none → ∀ id, ¬ Evicted e id)) ∧
    (0 < deficit → ∃ seen, e.saw .evictable = some seen ∧
      let outcome :=
        evictWhile deficit ((seen.evictable ownership.subject e.startedAt).map
        ConversionFile.candidate)
      (0 < outcome.2 → e.error = some (.admission .storageLimitExceeded)) ∧
      (outcome.2 ≤ 0 → e.error ≠ some (.admission .storageLimitExceeded) ∧
        (e.error = none → ∀ id, Evicted e id ↔ id ∈ outcome.1.map EvictionCandidate.id)))

/-- The entries that the conversion system records. -/
structure Legal (p : Policy) (e : LogEntry) : Prop where
  started : e.startedAt ≤ e.endedAt
  commit : ∃ commit : Commit, commit.Allowed services p e ∧ e.after = commit.apply services e.before
  kept : e.error ≠ none → e.after = e.before
  checked : e.error ≠ some .rolledBack → StorageChecked e

end Pixaeron.Conversion
