import Pixaeron.Conversion.Runs
import Pixaeron.Transactions.Straight

/-! # Late uploads

An upload that comes in after its siblings have been admitted is admitted by a call of its own,
as long as the batch still takes files: from the start of the first conversion on it does not.
-/

namespace Pixaeron.Conversion

open Transactions Transactions.Script

/-- What the owner of a batch calls with. -/
def IsOwner (services : Services) (batch : ConversionBatch) (ownership : BatchOwnership) : Prop :=
  assertOwnership services batch ownership .batchNotFound = .done ()

/-- A plan whose retention has a class and whose tier has a queue. -/
def Mapped (snapshot : EntitlementSnapshot) : Prop :=
  (∃ outputRetention, retentionClassByHours snapshot.outputRetentionHours = some outputRetention) ∧
    ∃ tierQueue, queueForTier snapshot.queueTier = .ok tierQueue

/-- The READY files of the batch are within the limits of the plan. -/
structure HasRoom (db : Database) (batch : ConversionBatch) (snapshot : EntitlementSnapshot)
    (now : Nat) : Prop where
  fileSize : ∀ f ∈ db.readyFiles batch.id, f.inputBytes.getD 0 ≤ snapshot.maxFileBytes
  quota : ∀ dailyFiles ∈ snapshot.dailyFiles,
    db.admittedFiles batch.subject (dayOf now) + (db.readyFiles batch.id).length ≤ dailyFiles
  storage : ∀ storageBytes ∈ snapshot.storageBytes,
    db.storageUsed batch.subject now +
      ((db.readyFiles batch.id).map fun f => f.inputBytes.getD 0).sum ≤ storageBytes

instance (db : Database) (batch : ConversionBatch) (snapshot : EntitlementSnapshot) (now : Nat) :
    Decidable (HasRoom db batch snapshot now) :=
  decidable_of_iff ((∀ f ∈ db.readyFiles batch.id, f.inputBytes.getD 0 ≤ snapshot.maxFileBytes) ∧
    (∀ dailyFiles ∈ snapshot.dailyFiles,
      db.admittedFiles batch.subject (dayOf now) + (db.readyFiles batch.id).length ≤ dailyFiles) ∧
    ∀ storageBytes ∈ snapshot.storageBytes,
      db.storageUsed batch.subject now +
        ((db.readyFiles batch.id).map fun f => f.inputBytes.getD 0).sum ≤ storageBytes)
    ⟨fun h => ⟨h.1, h.2.1, h.2.2⟩, fun h => ⟨h.fileSize, h.quota, h.storage⟩⟩

/-- The call, left to itself, moves the file to QUEUED and writes its request to the outbox. -/
def AdmitsFile (services : Services) (db : Database) (now : Nat) (batch : ConversionBatch)
    (ownership : BatchOwnership) (snapshot : EntitlementSnapshot) (file : ConversionFile) : Prop :=
  ∃ result db', (admitReadyFiles services batch.id ownership snapshot).alone now db =
    some (.ok result, db') ∧
    (∃ f', db'.files.get file.id = some f' ∧ f'.status = .queued) ∧
    ∃ row ∈ db'.outbox.rows, row.payload.fileId = file.id ∧ db.outbox.get row.id = none

/-- The call, left to itself, is refused and leaves everything as it is. -/
def Refused (services : Services) (db : Database) (now : Nat) (batch : ConversionBatch)
    (ownership : BatchOwnership) (snapshot : EntitlementSnapshot) : Prop :=
  (admitReadyFiles services batch.id ownership snapshot).alone now db =
    some (.error (.admission .batchNotAdmittable), db)

variable {services : Services} {db : Database} {now : Nat} {batch : ConversionBatch}
  {file : ConversionFile}
  {ownership : BatchOwnership} {snapshot : EntitlementSnapshot} {claimed : List ClaimedFile}
  {outputRetention : ConversionRetentionClass} {tierQueue : String}

/-! ## The admission, statement by statement -/

theorem runs_require {condition : Prop} [Decidable condition] {error : Failure} (h : condition) :
    Runs now (require condition error) db () db := by
  rw [require, if_pos h]
  exact Runs.done

theorem runs_requireAdmissible {maxFileBytes : Nat} {c : ClaimedFile}
    (hMeasured : c.inputBytes.isSome ∧ c.inputEtag.isSome)
    (hSize : c.inputBytes.getD 0 ≤ maxFileBytes) :
    Runs now (requireAdmissible maxFileBytes c) db () db := by
  unfold requireAdmissible
  exact Runs.bind (runs_require hMeasured) (runs_require hSize)

theorem runs_makeRoom (h : ∀ storageBytes, snapshot.storageBytes = some storageBytes →
    db.storageUsed batch.subject now + (claimed.map fun c => c.inputBytes.getD 0).sum ≤
    storageBytes) :
    Runs now (makeRoom batch snapshot claimed) db () db := by
  unfold makeRoom
  cases hStorage : snapshot.storageBytes with
  | none => exact Runs.done
  | some storageBytes =>
    have hFits := h storageBytes hStorage
    refine Runs.bind Runs.query ?_
    dsimp only [Script.viewAlone]
    rw [if_neg (by omega)]
    exact Runs.done

theorem runs_reserveDailyUsage {subject : String} {files dailyFiles : Nat}
    (h : db.admittedFiles subject (dayOf now) + files ≤ dailyFiles) :
    Runs now (reserveDailyUsage subject files dailyFiles) db ()
      (db.reserve subject (dayOf now) files) := by
  have hReserves : db.reserves subject (dayOf now) files dailyFiles = true := by
    unfold Database.admittedFiles at h
    unfold Database.reserves
    cases hRow : db.usage.get (subject, dayOf now) with
    | none => rfl
    | some row =>
      rw [hRow] at h
      exact decide_eq_true h
  unfold reserveDailyUsage
  refine Runs.bind (runs_require (by omega))
    (Runs.bind (Runs.changes hReserves (if_pos hReserves)) ?_)
  exact runs_require rfl

/-- What the call writes, if it admits the claimed files. -/
def admissionOf (batch : ConversionBatch) (snapshot : EntitlementSnapshot)
    (outputRetention : ConversionRetentionClass) (tierQueue : String) (claimed : List ClaimedFile)
    (now : Nat) : Admission where
  batch := batch
  snapshot := snapshot
  outputRetention := outputRetention
  tierQueue := tierQueue
  claimed := claimed
  startedAt := now
  retentionExpiresAt := now + snapshot.outputRetentionHours * hourMs
  evicted := []
  evictedAt := now
  rolled := []

theorem runs_chargeDailyUsage (h : ∀ dailyFiles, snapshot.dailyFiles = some dailyFiles →
    db.admittedFiles batch.subject (dayOf now) + claimed.length ≤ dailyFiles) :
    Runs now (chargeDailyUsage batch snapshot claimed) db ()
      ((admissionOf batch snapshot outputRetention tierQueue claimed now).charge db) := by
  unfold chargeDailyUsage Admission.charge
  cases hDaily : snapshot.dailyFiles with
  | none =>
    simp only [admissionOf, hDaily]
    exact Runs.done
  | some dailyFiles =>
    simp only [admissionOf, hDaily]
    exact runs_reserveDailyUsage (h dailyFiles hDaily)

theorem mem_ids_select {ids : List Uuid} (db : Database)
    (h : ∀ id ∈ ids, ∃ f, db.files.get id = some f) (id : Uuid) :
    id ∈ (db.files.select fun f => f.id ∈ ids).map ConversionFile.id ↔ id ∈ ids := by
  constructor
  · intro hMem
    obtain ⟨f, hSelect, rfl⟩ := List.mem_map.1 hMem
    exact of_decide_eq_true (Table.mem_select.1 hSelect).2
  · intro hMem
    obtain ⟨f, hGet⟩ := h id hMem
    obtain ⟨hRow, rfl⟩ := Table.get_eq_some_iff.1 hGet
    exact List.mem_map_of_mem (Table.mem_select.2 ⟨hRow, decide_eq_true hMem⟩)

theorem runs_updateFiles {name : Statement} {where_ : View conversion → ConversionFile → Bool}
    {data : View conversion → ConversionFile → ConversionFile} {hKey : ∀ v f, (data v f).id = f.id}
    {ids : List Uuid}
    (h : ∀ id, id ∈ (db.files.select (where_ (viewAlone conversion now db))).map ConversionFile.id ↔
      id ∈ ids) :
    Runs now (updateFiles name where_ data hKey) db
      (db.files.select (where_ (viewAlone conversion now db))).length
      (db.changeFiles ids (data (viewAlone conversion now db)) (hKey _)) := by
  refine Runs.changes rfl ?_
  unfold Database.changeFiles
  rw [← Table.modify_congr h]
  rfl

theorem runs_updateBatches {name : Statement} {where_ : View conversion → ConversionBatch → Bool}
    {data : View conversion → ConversionBatch → ConversionBatch}
    {hKey : ∀ v b, (data v b).id = b.id} {b : ConversionBatch}
    (h : db.batches.select (where_ (viewAlone conversion now db)) = [b]) :
    Runs now (updateBatches name where_ data hKey) db 1
      (db.changeBatches [b.id] (data (viewAlone conversion now db)) (hKey _)) := by
  have hRows : ((viewAlone conversion now db).db : Database).batches.select
    (where_ (viewAlone conversion now db)) = [b] := h
  refine Runs.changes ?_ ?_
  · rw [hRows]
    rfl
  · rw [hRows]
    rfl

theorem runs_queueClaimed (hBatch : db.batches.get batch.id = some batch)
    (hStatus : batch.status = .uploading ∨ batch.status = .queued)
    (hTier : queueForTier snapshot.queueTier = .ok tierQueue)
    (hClaimed : ∀ id ∈ claimed.map ClaimedFile.id, ∃ f, db.files.get id = some f) :
    Runs now (queueClaimed services batch snapshot outputRetention claimed) db
      ⟨{ batch with status := .queued, expiresAt := now + snapshot.outputRetentionHours * hourMs },
        claimed.length⟩
      (((admissionOf batch snapshot outputRetention tierQueue claimed now).queueBatch
        ((admissionOf batch snapshot outputRetention tierQueue claimed now).queueFiles
          db)).insertOutbox now
          ((admissionOf batch snapshot outputRetention tierQueue claimed now).messages
            services)) := by
  have hOne : db.batches.select (fun b => b.id =
    batch.id && (b.status = .uploading || b.status = .queued)) = [batch] := by
    refine Table.select_eq_singleton (k := batch.id) ?_ fun b hMem => ?_
    · rw [Table.mem_select]
      refine ⟨Table.mem_of_get hBatch, ?_⟩
      simpa using hStatus
    · obtain ⟨hRow, hWhere⟩ := Table.mem_select.1 hMem
      rw [Bool.and_eq_true, decide_eq_true_eq] at hWhere
      rw [← hWhere.1]
      exact Table.get_of_mem hRow
  unfold queueClaimed
  refine Runs.bind Runs.readClock (Runs.bind (runs_updateFiles (mem_ids_select db hClaimed)) ?_)
  refine Runs.bind (runs_updateBatches hOne) (Runs.bind (runs_require rfl) ?_)
  rw [hTier]
  exact Runs.bind Runs.change Runs.done

theorem readyFile_of_mem {f : ConversionFile} : f ∈ db.readyFiles batch.id ↔
    f ∈ db.files.rows ∧ f.batchId = batch.id ∧ f.status = .ready := by
  rw [Database.readyFiles, mem_orderBy, Table.mem_select, Bool.and_eq_true, decide_eq_true_eq,
    decide_eq_true_eq]

theorem admissionOf_write :
    (admissionOf batch snapshot outputRetention tierQueue claimed now).write services db =
    ((admissionOf batch snapshot outputRetention tierQueue claimed now).queueBatch
      ((admissionOf batch snapshot outputRetention tierQueue claimed now).queueFiles
        ((admissionOf batch snapshot outputRetention tierQueue claimed now).charge
          db))).insertOutbox now
          ((admissionOf batch snapshot outputRetention tierQueue claimed now).messages
            services) := by
  have hKept : (admissionOf batch snapshot outputRetention tierQueue claimed now).rollUp
      ((admissionOf batch snapshot outputRetention tierQueue claimed now).evict db) = db := by
    unfold Admission.rollUp Admission.evict Database.changeBatches Database.changeFiles
    dsimp only [admissionOf]
    rw [Table.modify_nil, Table.modify_nil]
  rw [Admission.write, hKept]
  rfl

theorem runs_claimReadyFiles (hCons : Consistent db now)
    (hBatch : db.batches.get batch.id = some batch)
    (hStatus : batch.status = .uploading ∨ batch.status = .queued)
    (hTier : queueForTier snapshot.queueTier = .ok tierQueue)
    (hRoom : HasRoom db batch snapshot now)
    (hClaimed : claimed = (db.readyFiles batch.id).map ConversionFile.claimed)
    (hSome : claimed ≠ []) :
    Runs now (claimReadyFiles services batch snapshot outputRetention) db
      ⟨{ batch with status := .queued, expiresAt := now + snapshot.outputRetentionHours * hourMs },
        claimed.length⟩
      ((admissionOf batch snapshot outputRetention tierQueue claimed now).write services db) := by
  have hChecks : ∀ c ∈ claimed, Runs now (requireAdmissible snapshot.maxFileBytes c) db () db := by
    intro c hMem
    rw [hClaimed] at hMem
    obtain ⟨f, hReady, rfl⟩ := List.mem_map.1 hMem
    obtain ⟨hRow, _, hStatus⟩ := readyFile_of_mem.1 hReady
    exact runs_requireAdmissible (hCons.measured f hRow hStatus) (hRoom.fileSize f hReady)
  have hRows : ∀ id ∈ claimed.map ClaimedFile.id, ∃ f, db.files.get id = some f := by
    intro id hMem
    obtain ⟨c, hClaim, rfl⟩ := List.mem_map.1 hMem
    rw [hClaimed] at hClaim
    obtain ⟨f, hReady, rfl⟩ := List.mem_map.1 hClaim
    exact ⟨f, Table.get_of_mem (readyFile_of_mem.1 hReady).1⟩
  have hSum : (claimed.map fun c => c.inputBytes.getD 0).sum =
    ((db.readyFiles batch.id).map fun f => f.inputBytes.getD 0).sum := by
    rw [hClaimed, List.map_map]
    rfl
  have hStorage : ∀ storageBytes, snapshot.storageBytes = some storageBytes →
      db.storageUsed batch.subject now + (claimed.map fun c => c.inputBytes.getD 0).sum ≤
        storageBytes := by
    rw [hSum]
    exact hRoom.storage
  have hQuota : ∀ dailyFiles, snapshot.dailyFiles = some dailyFiles →
      db.admittedFiles batch.subject (dayOf now) + claimed.length ≤ dailyFiles := by
    rw [hClaimed, List.length_map]
    exact hRoom.quota
  have hQueues :=
    @runs_queueClaimed services
      ((admissionOf batch snapshot outputRetention tierQueue claimed now).charge db) now batch
    snapshot claimed outputRetention tierQueue
      (by rw [Admission.charge_batches]; exact hBatch) hStatus hTier
    (by rw [Admission.charge_files]; exact hRows)
  rw [← admissionOf_write] at hQueues
  unfold claimReadyFiles
  refine Runs.bind Runs.lockRows ?_
  have hLock : Runs now (@Script.lockRows conversion _ Statement.claimReady (fun v =>
    (v.db.readyFiles batch.id).map fun f => .file f.id)
      fun v => (v.db.readyFiles batch.id).map ConversionFile.claimed) db claimed db := by
    rw [hClaimed]
    exact Runs.lockRows
  refine Runs.bind hLock ?_
  rw [if_neg (by rw [List.isEmpty_iff]; exact hSome)]
  exact Runs.bind (Runs.forEach_same hChecks)
    (Runs.bind (runs_makeRoom hStorage) (Runs.bind (runs_chargeDailyUsage hQuota) hQueues))

theorem runs_admitClaimed (hCons : Consistent db now)
    (hBatch : db.batches.get batch.id = some batch)
    (hStatus : batch.status = .uploading ∨ batch.status = .queued)
    (hTier : queueForTier snapshot.queueTier = .ok tierQueue)
    (hRoom : HasRoom db batch snapshot now)
    (hClaimed : claimed = (db.readyFiles batch.id).map ConversionFile.claimed)
    (hSome : claimed ≠ []) :
    Runs now (admitClaimed services batch snapshot outputRetention) db
      ⟨{ batch with status := .queued, expiresAt := now + snapshot.outputRetentionHours * hourMs },
        claimed.length⟩
      ((admissionOf batch snapshot outputRetention tierQueue claimed now).write services db) := by
  have hClaim :=
    @runs_claimReadyFiles services db now batch snapshot claimed outputRetention tierQueue hCons
      hBatch hStatus hTier
    hRoom hClaimed hSome
  unfold admitClaimed
  split
  · exact Runs.bind Runs.lockRows hClaim
  · exact hClaim

/-! ## The call -/

theorem alone_admitReadyFiles (hBatch : db.batches.get batch.id = some batch)
    (hOwner : IsOwner services batch ownership)
    (hClass : retentionClassByHours snapshot.outputRetentionHours = some outputRetention) :
    (admitReadyFiles services batch.id ownership snapshot).alone now db =
      if (batch.status = .uploading ∨ batch.status = .queued) ∧ now < batch.expiresAt then
        (Script.transaction transactionTimeoutMs
          (admitClaimed services batch snapshot outputRetention) .fail).alone now db
      else some (.error (.admission .batchNotAdmittable), db) := by
  unfold admitReadyFiles Script.alone
  rw [hClass]
  simp only [Script.bind_eq, Script.aloneThen_bind, Script.query, Script.aloneThen,
    Script.viewAlone, hBatch]
  rw [hOwner]
  simp only [Script.aloneThen]
  unfold require
  by_cases hStatus : batch.status = .uploading ∨ batch.status = .queued
  · by_cases hTime : now < batch.expiresAt
    · rw [if_pos hStatus, if_pos ⟨hStatus, hTime⟩]
      simp only [Script.aloneThen, Script.readClock, if_pos hTime]
      rfl
    · rw [if_pos hStatus, if_neg fun h => hTime h.2]
      simp only [Script.aloneThen, Script.readClock, if_neg hTime]
      rfl
  · rw [if_neg hStatus, if_neg fun h => hStatus h.1]
    rfl

/-- The call admits a READY file that it has room for exactly while the batch takes files. -/
theorem admitsFile_iff (hCons : Consistent db now) (hBatch : db.batches.get batch.id = some batch)
    (hFile : file ∈ db.files.rows) (hOf : file.batchId = batch.id) (hReady : file.status = .ready)
    (hOwner : IsOwner services batch ownership) (hMapped : Mapped snapshot)
    (hRoom : HasRoom db batch snapshot now) :
    AdmitsFile services db now batch ownership snapshot file ↔
      (batch.status = .uploading ∨ batch.status = .queued) ∧ now < batch.expiresAt := by
  obtain ⟨⟨outputRetention, hClass⟩, tierQueue, hTier⟩ := hMapped
  have hAlone :=
    @alone_admitReadyFiles services db now batch ownership snapshot outputRetention hBatch
      hOwner hClass
  constructor
  · rintro ⟨result, db', hRun, _⟩
    by_contra hClosed
    rw [hAlone, if_neg hClosed] at hRun
    cases hRun
  · intro hTakes
    have hClaimed : file.claimed ∈ (db.readyFiles batch.id).map ConversionFile.claimed :=
      List.mem_map_of_mem (readyFile_of_mem.2 ⟨hFile, hOf, hReady⟩)
    have hRuns :=
      @runs_admitClaimed services db now batch snapshot _ outputRetention tierQueue hCons hBatch
        hTakes.1 hTier hRoom rfl
      (List.ne_nil_of_mem hClaimed)
    refine ⟨_, _, by rw [hAlone, if_pos hTakes]; exact Runs.transaction hRuns, ?_, ?_⟩
    · have hId : file.id ∈ (admissionOf batch snapshot outputRetention tierQueue
          ((db.readyFiles batch.id).map ConversionFile.claimed) now).claimedIds :=
        List.mem_map_of_mem hClaimed
      rw [Admission.get_write_files, Table.get_of_mem hFile, Option.map_some, if_pos hId]
      exact ⟨_, rfl, rfl⟩
    · obtain ⟨row, hRow, hPayload, hNew⟩ := @exists_outboxRow services
        (admissionOf batch snapshot outputRetention tierQueue
          ((db.readyFiles batch.id).map ConversionFile.claimed) now)
        file.claimed db.outboxSeq hClaimed
      refine ⟨row, ?_, congrArg ConversionRequestMessage.fileId hPayload, ?_⟩
      · rw [Admission.write_outbox hCons.numbered]
        exact List.mem_append_right _ hRow
      · exact Table.get_eq_none_iff.2 fun old hOld hId =>
          absurd (hCons.numbered old hOld) (by omega)

theorem refused_of_closed (hBatch : db.batches.get batch.id = some batch)
    (hOwner : IsOwner services batch ownership) (hMapped : Mapped snapshot)
    (hClosed : ¬ ((batch.status = .uploading ∨ batch.status = .queued) ∧ now < batch.expiresAt)) :
    Refused services db now batch ownership snapshot := by
  obtain ⟨⟨outputRetention, hClass⟩, -⟩ := hMapped
  rw [Refused, alone_admitReadyFiles hBatch hOwner hClass, if_neg hClosed]

theorem not_admitsFile_of_unmapped
    (hNone : retentionClassByHours snapshot.outputRetentionHours = none) :
    ¬ AdmitsFile services db now batch ownership snapshot file := by
  rintro ⟨result, db', hRun, -⟩
  unfold admitReadyFiles Script.alone at hRun
  rw [hNone] at hRun
  cases hRun

/-- A READY file within the limits of its owner's plan is admitted by the owner's next call,
whatever has become of its siblings, exactly while the batch is UPLOADING or QUEUED and has not
expired itself. After that the call is refused. -/
theorem late_upload_admitted_iff {started : Nat} {w : World conversion Call Outcome}
    (h : World.Leads (system services) (start started) w)
    (hBatch : batch ∈ w.shared.db.batches.rows) (hFile : file ∈ w.shared.db.files.rows)
    (hOf : file.batchId = batch.id) (hReady : file.status = .ready)
    (hOwner : IsOwner services batch ownership) (hMapped : Mapped snapshot)
    (hRoom : HasRoom w.shared.db batch snapshot w.shared.now) :
    (AdmitsFile services w.shared.db w.shared.now batch ownership snapshot file ↔
      (batch.status = .uploading ∨ batch.status = .queued) ∧ w.shared.now < batch.expiresAt) ∧
    (¬ ((batch.status = .uploading ∨ batch.status = .queued) ∧ w.shared.now < batch.expiresAt) →
      Refused services w.shared.db w.shared.now batch ownership snapshot) :=
  ⟨admitsFile_iff (Sound.consistent (system_sound h))
    (Table.get_of_mem hBatch) hFile hOf hReady hOwner hMapped hRoom,
    refused_of_closed (Table.get_of_mem hBatch) hOwner hMapped⟩

theorem isOwner_of_subject (hSubject : batch.subject = ownership.subject)
    (hNone : batch.batchTokenHash = none) :
    IsOwner services batch ownership := by
  unfold IsOwner assertOwnership require
  rw [if_pos hSubject, hNone]
  rfl

namespace Sample

def lateId : Uuid := ⟨"l", by decide, by decide⟩

/-- Of two files one is uploaded and admitted. -/
def firstRun (snapshot : EntitlementSnapshot) : List (Action conversion Call) :=
  [.spawn 0 (.createBatch ⟨"alice", false, "key", 2, .lossy, .medium, none⟩ snapshot ⟨batchId,
    [fileId, lateId], ""⟩), .run 0, .spawn 1 (.completeUploads batchId alice snapshot), .run 1,
    .run 1, .answer 1 (.headOf fileId (some (some ⟨40, "etag", none⟩))), .run 1,
    .answer 1 (.headOf lateId (some none))] ++ runs 1 13

/-- The upload of the other file is found. -/
def secondRun (snapshot : EntitlementSnapshot) : List (Action conversion Call) :=
  [.spawn 3 (.completeUploads batchId alice snapshot), .run 3, .run 3,
    .answer 3 (.headOf lateId (some (some ⟨40, "etag", none⟩))), .run 3]

/-- The first file is started before the other upload is found. -/
def startedRun : List (Action conversion Call) :=
  firstRun plan ++ [.spawn 2 (.applyEvent ⟨fileId, batchId, 1, .started⟩)] ++ runs 2 2 ++
    secondRun plan

def shortPlan : EntitlementSnapshot := { plan with outputRetentionHours := 1 }

def oddPlan : EntitlementSnapshot := { plan with outputRetentionHours := 24 }

/-- The other upload is found when the first result would already have expired. -/
def outlivedRun : List (Action conversion Call) :=
  firstRun shortPlan ++ [.tick (2 * hourMs)] ++ secondRun shortPlan

/-- A batch: whether it is alice's, whether it has not expired, and whether the plan has room for
its READY files. -/
structure BatchSummary where
  id : Uuid
  owned : Bool
  status : ConversionBatchStatus
  future : Bool
  room : Bool
deriving DecidableEq

structure FileSummary where
  batchId : Uuid
  status : ConversionFileStatus
  future : Bool
deriving DecidableEq

def summary (snapshot : EntitlementSnapshot) (w : World conversion Call Outcome) :
    List BatchSummary × List FileSummary :=
  (w.shared.db.batches.rows.map fun b =>
    ⟨b.id, b.subject = "alice" && b.batchTokenHash = none, b.status,
      w.shared.now < b.expiresAt, HasRoom w.shared.db b snapshot w.shared.now⟩,
    w.shared.db.files.rows.map fun f => ⟨f.batchId, f.status, w.shared.now < f.expiresAt⟩)

theorem plan_mapped : Mapped plan := ⟨⟨.standard, rfl⟩, _, rfl⟩

theorem shortPlan_mapped : Mapped shortPlan := ⟨⟨.short, rfl⟩, _, rfl⟩

/-- A READY file of the batch, with all that the owner's call needs but for the state of the batch.
-/
structure Late (snapshot : EntitlementSnapshot) (w : World conversion Call Outcome)
    (b : ConversionBatch) (f : ConversionFile) : Prop where
  reached : World.Leads (system Sample.services) (start 0) w
  batch : b ∈ w.shared.db.batches.rows
  file : f ∈ w.shared.db.files.rows
  batchId : f.batchId = b.id
  ready : f.status = .ready
  future : w.shared.now < f.expiresAt
  owner : IsOwner Sample.services b alice
  room : HasRoom w.shared.db b snapshot w.shared.now

theorem late_of_run {snapshot : EntitlementSnapshot} {actions : List (Action conversion Call)}
    {status : ConversionBatchStatus} {future : Bool} {others : List FileSummary}
    (h : ((World.run (system Sample.services) (start 0) actions).map (summary snapshot)) =
      some ([⟨batchId, true, status, future, true⟩], others ++ [⟨batchId, .ready, true⟩])) :
    ∃ w batch file, Late snapshot w batch file ∧ batch.status = status ∧
      (w.shared.now < batch.expiresAt ↔ future = true) := by
  obtain ⟨w, hW, h⟩ := Option.map_eq_some_iff.mp h
  obtain ⟨hBatches, hFiles⟩ := Prod.mk.inj h
  obtain ⟨batch, hBatch, hSame⟩ := List.mem_map.1 (hBatches ▸ List.mem_singleton_self _)
  obtain ⟨file, hFile, hSameFile⟩ :=
    List.mem_map.1 (hFiles ▸ List.mem_append_right _ (List.mem_singleton_self _))
  simp only [BatchSummary.mk.injEq, FileSummary.mk.injEq, Bool.and_eq_true,
    decide_eq_true_eq] at hSame hSameFile
  obtain ⟨hId, ⟨hSubject, hNone⟩, hStatus, hOpen, hRoom⟩ := hSame
  obtain ⟨hOf, hReady, hFuture⟩ := hSameFile
  refine ⟨w, batch, file, ?_, hStatus, by rw [← hOpen, decide_eq_true_eq]⟩
  exact ⟨World.leads_of_run hW, hBatch, hFile, hOf.trans hId.symm, hReady, hFuture,
    isOwner_of_subject hSubject hNone, hRoom⟩

end Sample

/-- The second file is admitted after the first, and refused after the first has been started. -/
theorem late_upload_admitted_second :
    (∃ w batch file, Sample.Late Sample.plan w batch file ∧ batch.status = .queued ∧
      AdmitsFile Sample.services w.shared.db w.shared.now batch Sample.alice Sample.plan file) ∧
    ∃ w batch file, Sample.Late Sample.plan w batch file ∧
      Refused Sample.services w.shared.db w.shared.now batch Sample.alice Sample.plan := by
  constructor
  · have hRun : ((World.run (system Sample.services) (start 0)
      (Sample.firstRun Sample.plan ++ Sample.secondRun Sample.plan)).map
        (Sample.summary Sample.plan)) = some ([⟨Sample.batchId, true, .queued, true, true⟩],
          [⟨Sample.batchId, .queued, true⟩] ++ [⟨Sample.batchId, .ready, true⟩]) := by decide
    obtain ⟨w, batch, file, h, hStatus, hOpen⟩ := Sample.late_of_run hRun
    have hLate :=
      late_upload_admitted_iff h.reached h.batch h.file h.batchId h.ready h.owner
        Sample.plan_mapped h.room
    exact ⟨w, batch, file, h, hStatus, hLate.1.mpr ⟨.inr hStatus, hOpen.2 rfl⟩⟩
  · have hRun : ((World.run (system Sample.services) (start 0) Sample.startedRun).map
      (Sample.summary Sample.plan)) =
        some ([⟨Sample.batchId, true, .processing, true, true⟩],
          [⟨Sample.batchId, .processing, true⟩] ++
          [⟨Sample.batchId, .ready, true⟩]) := by decide
    obtain ⟨w, batch, file, h, hStatus, -⟩ := Sample.late_of_run hRun
    have hLate :=
      late_upload_admitted_iff h.reached h.batch h.file h.batchId h.ready h.owner
        Sample.plan_mapped h.room
    refine ⟨w, batch, file, h, hLate.2 ?_⟩
    rw [hStatus]
    rintro ⟨hUploading | hQueued, -⟩
    · cases hUploading
    · cases hQueued

/-- Once a sibling has been started, or the batch has expired with the results of its siblings, the
late upload is refused; and a plan whose retention has no class admits nothing. -/
theorem late_upload_refused :
    (∃ w batch file, Sample.Late Sample.plan w batch file ∧ batch.status = .processing ∧
      w.shared.now < batch.expiresAt ∧
      ¬ AdmitsFile Sample.services w.shared.db w.shared.now batch Sample.alice Sample.plan file) ∧
    (∃ w batch file, Sample.Late Sample.shortPlan w batch file ∧ batch.status = .queued ∧
      ¬ w.shared.now < batch.expiresAt ∧
      ¬ AdmitsFile Sample.services w.shared.db w.shared.now batch Sample.alice
        Sample.shortPlan file) ∧
    ∃ w batch file, Sample.Late Sample.oddPlan w batch file ∧ batch.status = .queued ∧
      w.shared.now < batch.expiresAt ∧
      ¬ AdmitsFile Sample.services w.shared.db w.shared.now batch Sample.alice
        Sample.oddPlan file := by
  refine ⟨?_, ?_, ?_⟩
  · have hRun : ((World.run (system Sample.services) (start 0) Sample.startedRun).map
      (Sample.summary Sample.plan)) =
        some ([⟨Sample.batchId, true, .processing, true, true⟩],
          [⟨Sample.batchId, .processing, true⟩] ++
          [⟨Sample.batchId, .ready, true⟩]) := by decide
    obtain ⟨w, batch, file, h, hStatus, hOpen⟩ := Sample.late_of_run hRun
    refine ⟨w, batch, file, h, hStatus, hOpen.2 rfl, ?_⟩
    rw [admitsFile_iff (Sound.consistent (system_sound h.reached))
      (Table.get_of_mem h.batch) h.file h.batchId h.ready h.owner
      Sample.plan_mapped h.room, hStatus]
    rintro ⟨hUploading | hQueued, _⟩
    · cases hUploading
    · cases hQueued
  · have hRun : ((World.run (system Sample.services) (start 0) Sample.outlivedRun).map
      (Sample.summary Sample.shortPlan)) =
        some ([⟨Sample.batchId, true, .queued, false, true⟩], [⟨Sample.batchId, .queued, false⟩] ++
          [⟨Sample.batchId, .ready, true⟩]) := by decide
    obtain ⟨w, batch, file, h, hStatus, hOpen⟩ := Sample.late_of_run hRun
    have hExpired : ¬ w.shared.now < batch.expiresAt :=
      fun hFuture => absurd (hOpen.1 hFuture) Bool.false_ne_true
    refine ⟨w, batch, file, h, hStatus, hExpired, ?_⟩
    rw [admitsFile_iff (Sound.consistent (system_sound h.reached))
      (Table.get_of_mem h.batch) h.file h.batchId h.ready h.owner
      Sample.shortPlan_mapped h.room]
    rintro ⟨_, hFuture⟩
    exact hExpired hFuture
  · have hRun : ((World.run (system Sample.services) (start 0)
      (Sample.firstRun Sample.plan ++ Sample.secondRun Sample.plan)).map
        (Sample.summary Sample.oddPlan)) = some ([⟨Sample.batchId, true, .queued, true, true⟩],
          [⟨Sample.batchId, .queued, true⟩] ++ [⟨Sample.batchId, .ready, true⟩]) := by decide
    obtain ⟨w, batch, file, h, hStatus, hOpen⟩ := Sample.late_of_run hRun
    exact ⟨w, batch, file, h, hStatus, hOpen.2 rfl, not_admitsFile_of_unmapped rfl⟩

end Pixaeron.Conversion
