import Pixaeron.Conversion.BatchRollup

/-! # Retention

Overdue files expire, and rows long past their time are purged.
-/

namespace Pixaeron.Conversion

open Transactions Transactions.Script

def sweepFileLimit : Nat := 2000

def sweepBatchLimit : Nat := 200

def purgeGraceMs : Nat := 7 * 24 * 60 * 60 * 1000

def ConversionFile.overdue (f : ConversionFile) (now : Nat) : Bool :=
  f.status ∈ liveFileStatuses && f.expiresAt ≤ now

/-- One batch of the sweep. -/
def expireBatch (now : Nat) (batchId : Uuid) : Script conversion Unit :=
  transaction transactionTimeoutMs (do
    lockBatches .lockBatch fun b => b.id = batchId
    let _ ← updateFiles .expireFiles (fun _ f => f.batchId = batchId && f.overdue now)
      fun _ f => { f with status := .expired }
    let _ ← rollUpBatch batchId)
    fun _ => .done ()

def expireOverdueFiles : Script conversion Unit := do
  let (now, overdueFiles) ← query .findOverdueFiles fun v => (v.clock,
    ((orderBy (fun f g => f.expiresAt ≤ g.expiresAt)
      (v.db.files.select fun f => f.overdue v.clock)).take
      sweepFileLimit).map ConversionFile.batchId)
  let abandonedBatches ← query .findAbandonedBatches fun v =>
    ((orderBy (fun b c => b.expiresAt ≤ c.expiresAt) (v.db.batches.select fun b =>
      b.status ∈ openBatchStatuses && b.expiresAt ≤ now)).take sweepBatchLimit).map
        ConversionBatch.id
  forEach (expireBatch now) (overdueFiles ++ abandonedBatches).eraseDups

/-- Batches past the cutoff none of whose files is live. -/
def Database.deadBatches (db : Database) (cutoff : Nat) : List ConversionBatch :=
  db.batches.select fun b =>
    b.expiresAt ≤ cutoff && (db.filesOf b.id).all (·.status ∉ liveFileStatuses)

/-- `ON DELETE CASCADE`: the files of a deleted batch go with it. -/
def Database.deleteBatches (db : Database) (ids : List Uuid) : Database :=
  { db with
    batches := db.batches.delete fun b => b.id ∈ ids
    files := db.files.delete fun f => f.batchId ∈ ids }

def Database.staleUsage (db : Database) (cutoff : Nat) : List DailyUsage :=
  db.usage.select fun row => row.usageDate < dayOf cutoff

def Database.deleteUsage (db : Database) (keys : List (String × Nat)) : Database :=
  { db with usage := db.usage.delete fun row => row.key ∈ keys }

@[simp] theorem Database.deleteUsage_files {db : Database} {keys : List (String × Nat)} :
    (db.deleteUsage keys).files = db.files := rfl

theorem Database.get_deleteUsage {db : Database} {keys : List (String × Nat)} {key : String × Nat}
    (hKept : key ∉ keys) :
    (db.deleteUsage keys).usage.get key = db.usage.get key := by
  unfold deleteUsage
  rw [Table.get_delete]
  cases hRow : db.usage.get key with
  | none => rfl
  | some row => simp [Option.filter, Table.key_of_get hRow, hKept]

@[simp] theorem Database.deleteUsage_batches {db : Database} {keys : List (String × Nat)} :
    (db.deleteUsage keys).batches = db.batches := rfl

def purgeDeadRows : Script conversion Unit := do
  let cutoff ← change .purgeBatches
    (fun v => let dead := v.db.deadBatches (v.clock - purgeGraceMs)
      dead.map (fun b => .batch b.id) ++ dead.flatMap fun b =>
        (v.db.filesOf b.id).map fun f => .file f.id)
    (fun v db =>
      db.deleteBatches ((v.db.deadBatches (v.clock - purgeGraceMs)).map ConversionBatch.id))
    fun v => v.clock - purgeGraceMs
  change .purgeUsage (fun v => (v.db.staleUsage cutoff).map fun row => .usage row.key)
    (fun v db => db.deleteUsage ((v.db.staleUsage cutoff).map DailyUsage.key))
    fun _ => ()

end Pixaeron.Conversion
