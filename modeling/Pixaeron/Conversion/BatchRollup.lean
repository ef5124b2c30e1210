import Pixaeron.Conversion.Surroundings

/-! # Rolling a batch up

A batch whose files are all terminal gets the terminal status that sums them up.
-/

namespace Pixaeron.Conversion

open Transactions Transactions.Script

def openBatchStatuses : List ConversionBatchStatus := [.uploading, .queued, .processing]

def liveFileStatuses : List ConversionFileStatus :=
  [.uploading, .ready, .queued, .processing, .completed]

def terminalFileStatuses : List ConversionFileStatus := [.completed, .failed, .cancelled, .expired]

/-- The status of a batch whose files, all terminal, have the given statuses. -/
def rolledStatus (statuses : List ConversionFileStatus) : ConversionBatchStatus :=
  if statuses.count .expired = statuses.length then .expired
  else if statuses.count .completed = statuses.length then .completed
  else if statuses.count .completed = 0 then .failed
  else .partialBatch

/-- The batch statuses that a roll-up to `status` replaces. -/
def rolledFrom (status : ConversionBatchStatus) : List ConversionBatchStatus :=
  if status = .expired then openBatchStatuses ++ [.completed, .partialBatch] else openBatchStatuses

def rollUpBatch (batchId : Uuid) : Script conversion (Option ConversionBatchStatus) := do
  let statuses ← query .rollUpRead fun v => (v.db.filesOf batchId).map ConversionFile.status
  if statuses.any (· ∉ terminalFileStatuses) then pure none
  else
    let status := rolledStatus statuses
    let count ← updateBatches .rollUpWrite (fun _ b =>
      b.id = batchId && b.status ∈ rolledFrom status)
      fun _ b => { b with status := status }
    pure (if count = 1 then some status else none)

end Pixaeron.Conversion
