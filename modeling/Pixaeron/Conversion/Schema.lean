import Mathlib.Data.List.Sort
import Pixaeron.Transactions.Table
import Pixaeron.Conversion.Contract

/-! # The conversion database

The tables of the conversion API with the columns its services read and write. Times are
milliseconds since the epoch.
-/

namespace Pixaeron.Conversion

open Transactions

inductive ConversionPlanCode where
  | anonymous
  | free
  | light
  | pro
deriving DecidableEq

inductive ConversionBatchStatus where
  | uploading
  | queued
  | processing
  | completed
  | partialBatch
  | failed
  | cancelled
  | expired
deriving DecidableEq

inductive ConversionFileStatus where
  | uploading
  | ready
  | queued
  | processing
  | completed
  | failed
  | cancelled
  | expired
deriving DecidableEq

structure ConversionBatch where
  id : Uuid
  subject : String
  batchTokenHash : Option String
  idempotencyKey : String
  planCode : ConversionPlanCode
  planRevision : Nat
  mode : ConversionMode
  strength : ConversionStrength
  status : ConversionBatchStatus
  fileCount : Nat
  createdAt : Nat
  expiresAt : Nat
deriving DecidableEq

structure ConversionFile where
  id : Uuid
  batchId : Uuid
  status : ConversionFileStatus
  inputObjectKey : String
  inputEtag : Option String
  outputObjectKey : Option String
  previewObjectKey : Option String
  inputFormat : Option String
  outputFormat : Option String
  inputBytes : Option Nat
  outputBytes : Option Nat
  outputChecksum : Option String
  resultKind : Option ConversionResultKind
  width : Option Nat
  height : Option Nat
  frameCount : Option Nat
  attempt : Nat
  failureCode : Option String
  startedAt : Option Nat
  completedAt : Option Nat
  expiresAt : Nat
deriving DecidableEq

structure DailyUsage where
  subject : String
  usageDate : Nat
  admittedFiles : Nat
deriving DecidableEq

def DailyUsage.key (row : DailyUsage) : String × Nat := (row.subject, row.usageDate)

inductive OutboxEventStatus where
  | pending
  | delivered
deriving DecidableEq

structure OutboxEvent where
  id : Nat
  queue : String
  payload : ConversionRequestMessage
  status : OutboxEventStatus
  attempts : Nat
  nextAttemptAt : Nat
deriving DecidableEq

/-- The rows of the four tables. Identifiers are drawn at random; `issued` remembers which ones
have ever been used for a batch or a file, so that none is drawn twice, and outbox rows are
numbered by `outboxSeq`. -/
structure Database where
  batches : Table ConversionBatch.id
  files : Table ConversionFile.id
  usage : Table DailyUsage.key
  outbox : Table OutboxEvent.id
  issued : List Uuid
  outboxSeq : Nat

namespace Database

def initial : Database := ⟨.empty, .empty, .empty, .empty, [], 0⟩

def filesOf (db : Database) (batchId : Uuid) : List ConversionFile :=
  db.files.select fun f => f.batchId = batchId

def batchesOf (db : Database) (subject : String) : List ConversionBatch :=
  db.batches.select fun b => b.subject = subject

/-- The owner of a file: the subject of its batch. -/
def subjectOf (db : Database) (f : ConversionFile) : Option String :=
  (db.batches.get f.batchId).map ConversionBatch.subject

def changeFiles (db : Database) (ids : List Uuid) (f : ConversionFile → ConversionFile)
    (hKey : ∀ row, (f row).id = row.id := by exact fun _ => rfl) : Database :=
  { db with files := db.files.modify ids f hKey }

def changeBatches (db : Database) (ids : List Uuid) (f : ConversionBatch → ConversionBatch)
    (hKey : ∀ row, (f row).id = row.id := by exact fun _ => rfl) : Database :=
  { db with batches := db.batches.modify ids f hKey }

@[simp] theorem mem_filesOf {db : Database} {batchId : Uuid} {f : ConversionFile} :
    f ∈ db.filesOf batchId ↔ f ∈ db.files.rows ∧ f.batchId = batchId := by
  simp [filesOf]

@[simp] theorem mem_batchesOf {db : Database} {subject : String} {b : ConversionBatch} :
    b ∈ db.batchesOf subject ↔ b ∈ db.batches.rows ∧ b.subject = subject := by
  simp [batchesOf]

section

variable {db : Database} {ids : List Uuid}

@[simp] theorem changeFiles_files {f : ConversionFile → ConversionFile}
    {hKey : ∀ row, (f row).id = row.id} :
    (db.changeFiles ids f hKey).files = db.files.modify ids f hKey := rfl

@[simp] theorem changeFiles_batches {f : ConversionFile → ConversionFile}
    {hKey : ∀ row, (f row).id = row.id} :
    (db.changeFiles ids f hKey).batches = db.batches := rfl

@[simp] theorem changeFiles_usage {f : ConversionFile → ConversionFile}
    {hKey : ∀ row, (f row).id = row.id} :
    (db.changeFiles ids f hKey).usage = db.usage := rfl

@[simp] theorem changeFiles_outbox {f : ConversionFile → ConversionFile}
    {hKey : ∀ row, (f row).id = row.id} :
    (db.changeFiles ids f hKey).outbox = db.outbox := rfl

@[simp] theorem changeFiles_issued {f : ConversionFile → ConversionFile}
    {hKey : ∀ row, (f row).id = row.id} :
    (db.changeFiles ids f hKey).issued = db.issued := rfl

@[simp] theorem changeFiles_outboxSeq {f : ConversionFile → ConversionFile}
    {hKey : ∀ row, (f row).id = row.id} :
    (db.changeFiles ids f hKey).outboxSeq = db.outboxSeq := rfl

@[simp] theorem changeBatches_files {f : ConversionBatch → ConversionBatch}
    {hKey : ∀ row, (f row).id = row.id} :
    (db.changeBatches ids f hKey).files = db.files := rfl

@[simp] theorem changeBatches_batches {f : ConversionBatch → ConversionBatch}
    {hKey : ∀ row, (f row).id = row.id} :
    (db.changeBatches ids f hKey).batches = db.batches.modify ids f hKey := rfl

@[simp] theorem changeBatches_usage {f : ConversionBatch → ConversionBatch}
    {hKey : ∀ row, (f row).id = row.id} :
    (db.changeBatches ids f hKey).usage = db.usage := rfl

@[simp] theorem changeBatches_outbox {f : ConversionBatch → ConversionBatch}
    {hKey : ∀ row, (f row).id = row.id} :
    (db.changeBatches ids f hKey).outbox = db.outbox := rfl

@[simp] theorem changeBatches_issued {f : ConversionBatch → ConversionBatch}
    {hKey : ∀ row, (f row).id = row.id} :
    (db.changeBatches ids f hKey).issued = db.issued := rfl

@[simp] theorem changeBatches_outboxSeq {f : ConversionBatch → ConversionBatch}
    {hKey : ∀ row, (f row).id = row.id} :
    (db.changeBatches ids f hKey).outboxSeq = db.outboxSeq := rfl

end

end Database

def dayOf (time : Nat) : Nat := time / 86400000

/-- `ORDER BY`: the rows, each before those it comes before. -/
def orderBy {α : Type} (before : α → α → Prop) [DecidableRel before] (rows : List α) : List α :=
  rows.insertionSort before

@[simp] theorem mem_orderBy {α : Type} {before : α → α → Prop} [DecidableRel before]
    {rows : List α} {row : α} :
    row ∈ orderBy before rows ↔ row ∈ rows :=
  List.mem_insertionSort _

theorem orderBy_perm {α : Type} {before : α → α → Prop} [DecidableRel before] {rows : List α} :
    (orderBy before rows).Perm rows :=
  List.perm_insertionSort _ _

end Pixaeron.Conversion
