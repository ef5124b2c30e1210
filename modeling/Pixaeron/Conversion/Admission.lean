import Pixaeron.Conversion.BatchRollup

/-! # Admission

Batches are created, their files are admitted for conversion, and older results of the same
subject make room for them.
-/

namespace Pixaeron.Conversion

open Transactions Transactions.Script

def uploadWindowMs : Nat := 24 * 60 * 60 * 1000

def hourMs : Nat := 60 * 60 * 1000

inductive EntitlementPlanCode where
  | unrecognized
  | unspecified
  | anonymous
  | free
  | light
  | pro
deriving DecidableEq

def EntitlementPlanCode.number : EntitlementPlanCode → Int
  | .unrecognized => -1
  | .unspecified => 0
  | .anonymous => 1
  | .free => 2
  | .light => 3
  | .pro => 4

structure EntitlementSnapshot where
  planCode : EntitlementPlanCode
  revision : Nat
  maxBatchFiles : Nat
  maxFileBytes : Nat
  dailyFiles : Option Nat
  queueTier : Nat
  outputRetentionHours : Nat
  storageBytes : Option Nat
deriving DecidableEq

def retentionClassByHours : Nat → Option ConversionRetentionClass
  | 1 => some .short
  | 48 => some .standard
  | 96 => some .extended
  | 168 => some .extended
  | _ => none

def planCodes : EntitlementPlanCode → Option ConversionPlanCode
  | .anonymous => some .anonymous
  | .free => some .free
  | .light => some .light
  | .pro => some .pro
  | _ => none

def planCodeFor (snapshot : EntitlementSnapshot) : Script conversion ConversionPlanCode :=
  match planCodes snapshot.planCode with
  | some planCode => .done planCode
  | none => .fail (.error s!"Unmapped entitlement plan code {snapshot.planCode.number}")

def firstPaidTier : Nat := 2

structure CreateBatchInput where
  subject : String
  anonymous : Bool
  idempotencyKey : String
  fileCount : Nat
  mode : ConversionMode
  strength : ConversionStrength
  batchToken : Option String

/-- The random values a call draws. -/
structure Drawn where
  batchId : Uuid
  fileIds : List Uuid
  batchToken : String

structure CreatedBatch where
  batch : ConversionBatch
  files : List ConversionFile
  batchToken : Option String
  replayed : Bool

structure BatchOwnership where
  subject : String
  batchToken : Option String

structure AdmissionResult where
  batch : ConversionBatch
  admittedFiles : Nat

structure ClaimedFile where
  id : Uuid
  inputObjectKey : String
  inputEtag : Option String
  inputBytes : Option Nat
deriving DecidableEq

variable (services : Services)

/-- Equal hexadecimal digests are equal bytes, so the comparison is one of texts. -/
def assertOwnership (batch : ConversionBatch) (ownership : BatchOwnership)
    (mismatchCode : AdmissionErrorCode) :
    Script conversion Unit := do
  require (batch.subject = ownership.subject) (.admission .batchNotFound)
  match batch.batchTokenHash with
  | none => pure ()
  | some "" => pure ()
  | some expected =>
    match ownership.batchToken with
    | none => .fail (.admission mismatchCode)
    | some "" => .fail (.admission mismatchCode)
    | some presented => require (services.digest presented = expected) (.admission mismatchCode)

/-! ## createBatch -/

def newFile (batchId fileId : Uuid) (expiresAt : Nat) : ConversionFile where
  id := fileId
  batchId := batchId
  status := .uploading
  inputObjectKey := s!"inputs/{batchId.text}/{fileId.text}"
  inputEtag := none
  outputObjectKey := none
  previewObjectKey := none
  inputFormat := none
  outputFormat := none
  inputBytes := none
  outputBytes := none
  outputChecksum := none
  resultKind := none
  width := none
  height := none
  frameCount := none
  attempt := 0
  failureCode := none
  startedAt := none
  completedAt := none
  expiresAt := expiresAt

def newBatch (input : CreateBatchInput) (snapshot : EntitlementSnapshot)
    (planCode : ConversionPlanCode) (drawn : Drawn) (now : Nat) : ConversionBatch where
  id := drawn.batchId
  subject := input.subject
  batchTokenHash := if input.anonymous then some (services.digest drawn.batchToken) else none
  idempotencyKey := input.idempotencyKey
  planCode := planCode
  planRevision := snapshot.revision
  mode := input.mode
  strength := input.strength
  status := .uploading
  fileCount := input.fileCount
  createdAt := now
  expiresAt := now + uploadWindowMs

/-- Neither the identifier nor the idempotency key of the subject is taken. -/
def Database.acceptsBatch (db : Database) (input : CreateBatchInput) (drawn : Drawn) : Bool :=
  drawn.batchId ∉ db.issued &&
    db.batches.rows.all fun b =>
      ¬ (b.subject = input.subject ∧ b.idempotencyKey = input.idempotencyKey)

def Database.acceptsFiles (db : Database) (drawn : Drawn) : Bool :=
  drawn.fileIds.all (fun id => id ∉ db.issued) && decide drawn.fileIds.Nodup

def Database.insertBatch (db : Database) (batch : ConversionBatch)
    (files : List ConversionFile) : Database :=
  { db with
    batches := db.batches.insert batch
    files := files.foldl Table.insert db.files
    issued := db.issued ++ batch.id :: files.map ConversionFile.id }

def createBatch (input : CreateBatchInput) (snapshot : EntitlementSnapshot) (drawn : Drawn) :
    Script conversion CreatedBatch := do
  require (1 ≤ input.fileCount ∧ input.fileCount ≤ snapshot.maxBatchFiles)
    (.admission .batchSizeInvalid)
  let planCode ← planCodeFor snapshot
  let newRows (now : Nat) := (newBatch services input snapshot planCode drawn now,
    drawn.fileIds.map fun fileId => newFile drawn.batchId fileId (now + uploadWindowMs))
  let created : Except String (ConversionBatch × List ConversionFile) ← change .insertBatch
    (fun _ => [])
    (fun v db => if db.acceptsBatch input drawn && db.acceptsFiles drawn then
      db.insertBatch (newRows v.clock).1 (newRows v.clock).2 else db)
    fun v => if !v.db.acceptsBatch input drawn then .error "ConversionBatch"
      else if !v.db.acceptsFiles drawn then .error "ConversionFile" else .ok (newRows v.clock)
  match created with
  | .ok (batch, files) =>
    pure ⟨batch, files, if input.anonymous then some drawn.batchToken else none, false⟩
  | .error "ConversionBatch" =>
    let existing ← query .findByIdempotencyKey fun v =>
      (v.db.batches.rows.find? fun b => b.subject = input.subject ∧
        b.idempotencyKey = input.idempotencyKey).map
        fun b => (b, v.db.filesOf b.id)
    match existing with
    | none => .fail (.uniqueConstraint "ConversionBatch")
    | some (existing, files) =>
      assertOwnership services existing ⟨input.subject, input.batchToken⟩ .batchTokenMismatch
      require (existing.fileCount = input.fileCount ∧ existing.mode = input.mode ∧
        existing.strength = input.strength)
        (.admission .idempotencyConflict)
      pure ⟨existing, files, none, true⟩
  | .error modelName => .fail (.uniqueConstraint modelName)

/-! ## Storage -/

/-- The files that count towards a subject's storage at time `now`. -/
def Database.stored (db : Database) (subject : String) (now : Nat) (f : ConversionFile) : Bool :=
  db.subjectOf f = some subject && (f.status = .queued || f.status = .processing || f.status =
    .completed) &&
    now < f.expiresAt

def ConversionFile.storedBytes (f : ConversionFile) : Nat :=
  if f.status = .completed then f.outputBytes.getD 0 else f.inputBytes.getD 0

def Database.storageUsed (db : Database) (subject : String) (now : Nat) : Nat :=
  db.files.total fun f => if db.stored subject now f then f.storedBytes else 0

def storageUsedFor (subject : String) : Script conversion Nat :=
  query .storageUsed fun v => v.db.storageUsed subject v.now

structure EvictionCandidate where
  id : Uuid
  batchId : Uuid
  bytes : Option Nat
deriving DecidableEq

def ConversionFile.candidate (f : ConversionFile) : EvictionCandidate :=
  ⟨f.id, f.batchId, f.outputBytes⟩

def ConversionFile.evictedBefore (f g : ConversionFile) : Prop :=
  f.expiresAt < g.expiresAt ∨ f.expiresAt = g.expiresAt ∧ f.id.text ≤ g.id.text

instance : DecidableRel ConversionFile.evictedBefore :=
  fun f g =>
    inferInstanceAs (Decidable (f.expiresAt < g.expiresAt ∨ f.expiresAt = g.expiresAt ∧
    f.id.text ≤ g.id.text))

/-- The subject's unexpired results in the order `expires_at ASC, id ASC`. -/
def Database.evictable (db : Database) (subject : String) (now : Nat) : List ConversionFile :=
  orderBy ConversionFile.evictedBefore (db.files.select fun f =>
    db.subjectOf f = some subject && f.status = .completed && now < f.expiresAt)

/-- The loop over the candidates: the evicted ones and the deficit that is left. -/
def evictWhile : Int → List EvictionCandidate → List EvictionCandidate × Int
  | deficit, [] => ([], deficit)
  | deficit, candidate :: rest =>
    if deficit ≤ 0 then ([], deficit)
    else
      let (evicted, left) := evictWhile (deficit - (candidate.bytes.getD 0 : Nat)) rest
      (candidate :: evicted, left)

/-- Results of the subject are evicted until the incoming bytes fit the cap. -/
def evictForIncoming (subject : String)
    (incomingBytes storageBytes : Nat) : Script conversion Unit := do
  let used ← storageUsedFor subject
  let deficit : Int := (used : Int) + incomingBytes - storageBytes
  if 0 < deficit then
    lockBatches .lockSubjectBatches fun b => b.subject = subject
    let evictable ← lockRows .evictable (fun v =>
      (v.db.evictable subject v.now).map fun f => .file f.id)
      fun v => (v.db.evictable subject v.now).map ConversionFile.candidate
    let (evicted, left) := evictWhile deficit evictable
    require (left ≤ 0) (.admission .storageLimitExceeded)
    let _ ← updateFiles .evict (fun _ f => f.id ∈ evicted.map EvictionCandidate.id)
      fun v f => { f with status := .expired, expiresAt := v.clock }
    forEach (fun batchId => do let _ ← rollUpBatch batchId)
      (evicted.map EvictionCandidate.batchId).eraseDups

/-! ## Daily quota -/

def Database.admittedFiles (db : Database) (subject : String) (day : Nat) : Nat :=
  ((db.usage.get (subject, day)).map DailyUsage.admittedFiles).getD 0

/-- `INSERT … ON CONFLICT … DO UPDATE … WHERE`: whether a row came back. -/
def Database.reserves (db : Database) (subject : String) (day files dailyFiles : Nat) : Bool :=
  match db.usage.get (subject, day) with
  | none => true
  | some row => row.admittedFiles + files ≤ dailyFiles

def Database.reserve (db : Database) (subject : String) (day files : Nat) : Database :=
  { db with
    usage := match db.usage.get (subject, day) with
      | none => db.usage.insert ⟨subject, day, files⟩
      | some _ => db.usage.modify [(subject, day)] fun row =>
        { row with admittedFiles := row.admittedFiles + files } }

def reserveDailyUsage (subject : String) (files dailyFiles : Nat) : Script conversion Unit := do
  require (files ≤ dailyFiles) (.admission .dailyQuotaExceeded)
  let reserved ← change .reserveDailyUsage (fun v => [.usage (subject, dayOf v.now)])
    (fun v db => if v.db.reserves subject (dayOf v.now) files dailyFiles then
      db.reserve subject (dayOf v.now) files else db)
    fun v => v.db.reserves subject (dayOf v.now) files dailyFiles
  require (reserved = true) (.admission .dailyQuotaExceeded)

def remainingToday (subject : String) (dailyFiles : Nat) : Script conversion Nat :=
  query .remainingToday fun v => dailyFiles - v.db.admittedFiles subject (dayOf v.now)

/-! ## admitReadyFiles -/

def ConversionFile.claimed (f : ConversionFile) : ClaimedFile :=
  ⟨f.id, f.inputObjectKey, f.inputEtag, f.inputBytes⟩

def Database.readyFiles (db : Database) (batchId : Uuid) : List ConversionFile :=
  orderBy (fun f g => f.id.text ≤ g.id.text) (db.files.select fun f =>
    f.batchId = batchId && f.status = .ready)

def requireAdmissible (maxFileBytes : Nat) (file : ClaimedFile) : Script conversion Unit := do
  require (file.inputBytes.isSome ∧ file.inputEtag.isSome) (.admission .fileNotMeasured)
  require (file.inputBytes.getD 0 ≤ maxFileBytes) (.admission .fileTooLarge)

def requestFor (batch : ConversionBatch) (outputRetention : ConversionRetentionClass)
    (file : ClaimedFile) :
    ConversionRequestMessage where
  fileId := file.id
  batchId := batch.id
  inputObjectKey := file.inputObjectKey
  inputEtag := file.inputEtag.getD ""
  outputRetention := outputRetention
  mode := batch.mode
  strength := batch.strength

def queueFor (snapshot : EntitlementSnapshot) (tierQueue : String) (file : ClaimedFile) : String :=
  if firstPaidTier ≤ snapshot.queueTier ∧
    services.largeQueueBytes < file.inputBytes.getD 0 then paidLargeQueue
  else tierQueue

def Database.insertOutbox (db : Database) (now : Nat)
    (messages : List (String × ConversionRequestMessage)) :
    Database :=
  messages.foldl (fun db (queue, payload) => { db with
    outbox := db.outbox.insert ⟨db.outboxSeq, queue, payload, .pending, 0, now⟩
    outboxSeq := db.outboxSeq + 1 }) db

/-- The claimed files and their batch become QUEUED, and each file's request goes to the outbox. -/
def queueClaimed (batch : ConversionBatch) (snapshot : EntitlementSnapshot)
    (outputRetention : ConversionRetentionClass) (claimed : List ClaimedFile) :
    Script conversion AdmissionResult := do
  let retentionExpiresAt ← readClock
  let retentionExpiresAt := retentionExpiresAt + snapshot.outputRetentionHours * hourMs
  let _ ← updateFiles .queueFiles (fun _ f => f.id ∈ claimed.map ClaimedFile.id)
    fun _ f => { f with status := .queued, expiresAt := retentionExpiresAt }
  let batchClaim ← updateBatches .claimBatch
    (fun _ b => b.id = batch.id && (b.status = .uploading || b.status = .queued))
    fun _ b => { b with status := .queued, expiresAt := retentionExpiresAt }
  require (batchClaim = 1) (.admission .batchNotAdmittable)
  match queueForTier snapshot.queueTier with
  | .error message => .fail (.error message)
  | .ok tierQueue =>
    change .insertOutbox (fun _ => [])
      (fun v db => db.insertOutbox v.now (claimed.map fun file =>
        (queueFor services snapshot tierQueue file, requestFor batch outputRetention file)))
      fun _ => ()
    pure ⟨{ batch with status := .queued, expiresAt := retentionExpiresAt }, claimed.length⟩

/-- Room for the incoming files, if the plan caps the storage. -/
def makeRoom (batch : ConversionBatch) (snapshot : EntitlementSnapshot)
    (claimed : List ClaimedFile) :
    Script conversion Unit :=
  match snapshot.storageBytes with
  | some storageBytes =>
    evictForIncoming batch.subject (claimed.map fun file => file.inputBytes.getD 0).sum storageBytes
  | none => pure ()

/-- The claimed files count towards the day, if the plan limits it. -/
def chargeDailyUsage (batch : ConversionBatch) (snapshot : EntitlementSnapshot)
    (claimed : List ClaimedFile) :
    Script conversion Unit :=
  match snapshot.dailyFiles with
  | some dailyFiles => reserveDailyUsage batch.subject claimed.length dailyFiles
  | none => pure ()

/-- The files of the locked batch that are ready are claimed and, if there are any, admitted. -/
def claimReadyFiles (batch : ConversionBatch) (snapshot : EntitlementSnapshot)
    (outputRetention : ConversionRetentionClass) : Script conversion AdmissionResult := do
  lockBatches .lockBatch fun b => b.id = batch.id
  let claimed ← lockRows .claimReady (fun v => (v.db.readyFiles batch.id).map fun f => .file f.id)
    fun v => (v.db.readyFiles batch.id).map ConversionFile.claimed
  if claimed.isEmpty then
    let current ← query .currentBatch fun v => v.db.batches.get batch.id
    match current with
    | some current => pure ⟨current, 0⟩
    | none => .fail (.error "No record was found for a query.")
  else
    forEach (requireAdmissible snapshot.maxFileBytes) claimed
    makeRoom batch snapshot claimed
    chargeDailyUsage batch snapshot claimed
    queueClaimed services batch snapshot outputRetention claimed

/-- The body of the admission's transaction. -/
def admitClaimed (batch : ConversionBatch) (snapshot : EntitlementSnapshot)
    (outputRetention : ConversionRetentionClass) : Script conversion AdmissionResult := do
  if snapshot.storageBytes.isSome then
    lockRows .lockSubject (fun _ => [.subject batch.subject]) fun _ => ()
  claimReadyFiles services batch snapshot outputRetention

def admitReadyFiles (batchId : Uuid) (ownership : BatchOwnership) (snapshot : EntitlementSnapshot) :
    Script conversion AdmissionResult := do
  match retentionClassByHours snapshot.outputRetentionHours with
  | none => .fail (.error
      s!"Unmapped output retention {snapshot.outputRetentionHours}h for plan {snapshot.planCode.number}")
  | some outputRetention =>
    let found ← query .findBatch fun v => v.db.batches.get batchId
    match found with
    | none => .fail (.admission .batchNotFound)
    | some batch =>
      assertOwnership services batch ownership .batchNotFound
      require (batch.status = .uploading ∨ batch.status = .queued) (.admission .batchNotAdmittable)
      let now ← readClock
      require (now < batch.expiresAt) (.admission .batchNotAdmittable)
      transaction transactionTimeoutMs (admitClaimed services batch snapshot outputRetention) .fail

/-! ## getOwnedBatch -/

def getOwnedBatch (batchId : Uuid) (ownership : BatchOwnership) :
    Script conversion (ConversionBatch × List ConversionFile) := do
  let found ← query .findOwnedBatch fun v => (v.db.batches.get batchId).map fun b =>
    (b, orderBy (fun f g => f.id.text ≤ g.id.text) (v.db.filesOf batchId))
  match found with
  | none => .fail (.admission .batchNotFound)
  | some (batch, files) =>
    assertOwnership services batch ownership .batchNotFound
    pure (batch, files)

end Pixaeron.Conversion
