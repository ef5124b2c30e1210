import Pixaeron.Conversion.Surroundings

/-! # The worker

How a worker handles one delivery of a conversion request. It may crash at any point, and any
call may fail.
-/

namespace Pixaeron.Conversion

open Transactions Transactions.Script

def publishes (event : WorkerEvent) (reply : Reply) (outside : Outside) : Option Outside :=
  let published := { outside with events := outside.events ++ [⟨event, false⟩] }
  match reply with
  | .ok => some published
  | .threw true => some published
  | .threw false => some outside
  | _ => none

def publishEvent (event : WorkerEvent) : Script conversion Unit := do
  let reply ← callOut (publishes event)
  match reply with
  | .threw _ => .fail (.error "SendMessage failed")
  | _ => pure ()

def Outside.deleteRequest (outside : Outside) (delivery : Delivery) : Outside :=
  { outside with
    requests := outside.requests.modify delivery.message fun m => { m with deleted := true }
    staleDeletes :=
      if outside.requests[delivery.message]?.any fun m =>
        !m.deleted && delivery.attempt < m.receives then
        outside.staleDeletes ++ [delivery]
      else outside.staleDeletes }

/-- `DeleteMessage` with the receipt handle of the delivery, which may be an old one. -/
def deletesRequest (delivery : Delivery) (reply : Reply) (outside : Outside) : Option Outside :=
  match reply with
  | .deleted true => some (outside.deleteRequest delivery)
  | .deleted false => some outside
  | .threw true => some (outside.deleteRequest delivery)
  | .threw false => some outside
  | _ => none

def deleteMessage (delivery : Delivery) : Script conversion Unit := do
  let reply ← callOut (deletesRequest delivery)
  match reply with
  | .threw _ => .fail (.error "DeleteMessage failed")
  | _ => pure ()

def answersInput (reply : Reply) (outside : Outside) : Option Outside :=
  match reply with
  | .input _ => some outside
  | .inputRefused code =>
    if code = .inputChanged ∨ code = .inputMissing ∨
      code = .inputTooLarge then some outside else none
  | .threw _ => some outside
  | _ => none

def answersCompress (reply : Reply) (outside : Outside) : Option Outside :=
  match reply with
  | .compressed _ => some outside
  | _ => none

def answersPreview (reply : Reply) (outside : Outside) : Option Outside :=
  match reply with
  | .preview _ => some outside
  | .threw _ => some outside
  | _ => none

def puts (key : String) (delivery : Delivery) (reply : Reply)
    (outside : Outside) : Option Outside :=
  let stored := { outside with puts := outside.puts ++ [⟨key, delivery⟩] }
  match reply with
  | .ok => some stored
  | .threw true => some stored
  | .threw false => some outside
  | _ => none

def putOutput (key : String) (delivery : Delivery) : Script conversion Bool := do
  let reply ← callOut (puts key delivery)
  pure (reply = .ok)

variable (services : Services)

/-- The preview is best effort: whatever fails in it, the result goes without one. -/
def storePreview (delivery : Delivery) : Script conversion (Option String) := do
  let reply ← callOut answersPreview
  match reply with
  | .preview _ =>
    let previewKey := previewObjectKey delivery.batchId delivery.fileId delivery.attempt
    let stored ← putOutput previewKey delivery
    pure (if stored then some previewKey else none)
  | _ => pure none

/-- The consumer's `handle`; the attempt is the receive count of the delivery. -/
def handleRequest (delivery : Delivery)
    (body : ConversionRequestMessage) : Script conversion Unit := do
  match parseConversionRequest body with
  | none => pure ()
  | some request =>
    let event (report : WorkerReport) : WorkerEvent :=
      ⟨request.fileId, request.batchId, delivery.attempt, report⟩
    publishEvent (event .started)
    let input ← callOut answersInput
    match input with
    | .inputRefused failureCode =>
      publishEvent (event (.result (.failed failureCode.text)))
      deleteMessage delivery
    | .input _ =>
      let result ← callOut answersCompress
      match result with
      | .compressed (.failed failureCode) =>
        publishEvent (event (.result (.failed failureCode.text)))
        deleteMessage delivery
      | .compressed (.ok kind bytes format _ frames width height) =>
        let objectKey := outputObjectKey request.batchId request.fileId delivery.attempt
        let checksum := services.sha256 bytes
        let stored ← putOutput objectKey delivery
        require (stored = true) (.error "PutObject failed")
        let storedPreviewKey ← storePreview delivery
        publishEvent (event (.result (.completed {
          resultKind := kind
          inputFormat := format.text
          frameCount := frames
          outputObjectKey := objectKey
          outputBytes := bytes.length
          outputChecksumSha256 := checksum
          outputFormat := format.text
          width := width
          height := height
          previewObjectKey := storedPreviewKey })))
        deleteMessage delivery
      | _ => .fail (.error "compress failed")
    | _ => .fail (.error "GetObject failed")

end Pixaeron.Conversion
