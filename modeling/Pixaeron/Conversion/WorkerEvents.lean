import Pixaeron.Conversion.BatchRollup

/-! # Worker events

What the API does with the events that workers publish.
-/

namespace Pixaeron.Conversion

open Transactions Transactions.Script

def eventAcceptingFileStatuses : List ConversionFileStatus := [.queued, .processing]

/-- What an accepted result writes into its file. -/
inductive FileResult where
  | completed (result : CompletedOutcome) (completedAt : Nat)
  | failed (failureCode : String) (completedAt : Nat)

def FileResult.write : FileResult → ConversionFile → ConversionFile
  | .completed result completedAt, f => { f with
      status := .completed
      resultKind := some result.resultKind
      outputObjectKey := some result.outputObjectKey
      previewObjectKey := result.previewObjectKey
      outputBytes := some result.outputBytes
      outputChecksum := some result.outputChecksumSha256
      inputFormat := some result.inputFormat
      outputFormat := some result.outputFormat
      frameCount := some result.frameCount
      width := some result.width
      height := some result.height
      completedAt := some completedAt }
  | .failed failureCode completedAt, f => { f with
      status := .failed
      failureCode := some failureCode
      completedAt := some completedAt }

@[simp] theorem FileResult.write_id (data : FileResult) (f : ConversionFile) :
    (data.write f).id = f.id := by
  cases data <;> rfl

@[simp] theorem FileResult.write_batchId (data : FileResult) (f : ConversionFile) :
    (data.write f).batchId = f.batchId := by
  cases data <;> rfl

/-- A HEAD request for an output: the store answers with some metadata, or not found, or fails. -/
def answersOutputHead (reply : Reply) (outside : Outside) : Option Outside :=
  match reply with
  | .head _ => some outside
  | .threw _ => some outside
  | _ => none

def verifiedCompletion (event : WorkerEvent) (result : CompletedOutcome) :
    Script conversion FileResult := do
  require (result.outputObjectKey = outputObjectKey event.batchId event.fileId event.attempt)
    (.error s!"Output key {result.outputObjectKey} does not belong to file {event.fileId.text}")
  let previewKey := result.previewObjectKey.getD ""
  require (result.previewObjectKey.all fun key =>
    key = previewObjectKey event.batchId event.fileId event.attempt)
    (.error s!"Preview key {previewKey} does not belong to file {event.fileId.text}")
  let reply ← callOut answersOutputHead
  match reply with
  | .head (some stored) =>
    match stored.checksumSha256 with
    | none => .fail (.error s!"Output object {result.outputObjectKey} carries no stored checksum")
    | some checksumSha256 =>
      require (stored.bytes = result.outputBytes)
        (.error
          s!"Output object {result.outputObjectKey} size {stored.bytes} contradicts the event")
      require (checksumSha256 = result.outputChecksumSha256)
        (.error s!"Output object {result.outputObjectKey} checksum contradicts the event")
      let completedAt ← readClock
      pure (.completed result completedAt)
  | .head none => .fail (.error s!"Output object {result.outputObjectKey} is missing")
  | _ => .fail (.error "HEAD request failed")

def applyStarted (event : WorkerEvent) : Script conversion Unit := do
  let started ← updateFiles .startFile
    (fun _ f =>
      f.id = event.fileId && f.batchId = event.batchId && f.status ∈ eventAcceptingFileStatuses &&
      f.attempt < event.attempt)
    fun v f => { f with status := .processing, attempt := event.attempt, startedAt := some v.clock }
  if started = 0 then pure ()
  else
    let _ ← updateBatches .startBatch (fun _ b => b.id = event.batchId && b.status = .queued)
      fun _ b => { b with status := .processing }

def applyResult (event : WorkerEvent) (outcome : WorkerOutcome) : Script conversion Unit := do
  let data ← match outcome with
    | .completed result => verifiedCompletion event result
    | .failed failureCode => do pure (.failed failureCode (← readClock))
  transaction transactionTimeoutMs (do
    lockBatches .lockBatch fun b => b.id = event.batchId
    let claimed ← updateFiles .finishFile
      (fun _ f =>
        f.id = event.fileId && f.batchId = event.batchId && f.status ∈ eventAcceptingFileStatuses &&
        f.attempt ≤ event.attempt)
      (fun _ => data.write) fun _ => data.write_id
    if claimed = 0 then pure ()
    else
      let _ ← rollUpBatch event.batchId)
    .fail

def apply (event : WorkerEvent) : Script conversion Unit :=
  match event.report with
  | .started => applyStarted event
  | .result outcome => applyResult event outcome

/-- `DeleteMessage` for an event: it may fail for the caller and yet remove the message. -/
def deletesEvent (message : Nat) (reply : Reply) (outside : Outside) : Option Outside :=
  let gone :=
    { outside with events := outside.events.modify message fun m => { m with deleted := true } }
  match reply with
  | .deleted true => some gone
  | .deleted false => some outside
  | .threw true => some gone
  | .threw false => some outside
  | _ => none

/-- The events consumer's `handle`. -/
def handleEvent (message : Nat) (body : WorkerEvent) : Script conversion Unit := do
  match parseWorkerEvent body with
  | none => pure ()
  | some event =>
    apply event
    let reply ← callOut (deletesEvent message)
    match reply with
    | .threw _ => .fail (.error "DeleteMessage failed")
    | _ => pure ()

end Pixaeron.Conversion
