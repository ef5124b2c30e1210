import Pixaeron.Conversion.UploadCompletion
import Pixaeron.Conversion.Retention
import Pixaeron.Conversion.WorkerEvents
import Pixaeron.Conversion.Outbox
import Pixaeron.Conversion.Worker

/-! # The conversion system

Every call that the API, its background jobs and the workers can make. A world runs any number
of them at the same time, statement by statement.

The code between two awaits runs together with the statement it awaits. Numbers are natural
numbers, times are milliseconds. Logs, and fields nothing here reads, are left out.
-/

namespace Pixaeron.Conversion

open Transactions Transactions.Script

/-- `deliver` is a worker receiving a request, `consume` the API receiving an event, `applyEvent`
an event, of any attempt, applied to a batch that exists or has existed. -/
inductive Call where
  | createBatch (input : CreateBatchInput) (snapshot : EntitlementSnapshot) (drawn : Drawn)
  | completeUploads (batchId : Uuid) (ownership : BatchOwnership) (snapshot : EntitlementSnapshot)
  | admitReadyFiles (batchId : Uuid) (ownership : BatchOwnership) (snapshot : EntitlementSnapshot)
  | remainingToday (subject : String) (dailyFiles : Nat)
  | applyEvent (event : WorkerEvent)
  | consume (message : Nat) (body : WorkerEvent)
  | deliver (message : Nat) (body : ConversionRequestMessage)
  | expireOverdueFiles
  | purgeDeadRows
  | drain (rounds : Nat)

inductive Outcome where
  | created (created : CreatedBatch)
  | completed (completion : UploadCompletion)
  | admitted (result : AdmissionResult)
  | remaining (files : Nat)
  | finished

def Outside.receive (outside : Outside) (delivery : Delivery) : Outside :=
  { outside with
    requests := outside.requests.modify delivery.message fun m =>
      { m with receives := m.receives + 1 }
    deliveries := outside.deliveries ++ [delivery] }

variable (services : Services)

/-- A message is received while it is in its queue, as often as the queue likes. -/
def system : World.Program conversion Call Outcome
  | .createBatch input snapshot drawn, s =>
    if drawn.fileIds.length = input.fileCount then
      some (s.ext, do pure (.created (← createBatch services input snapshot drawn)))
    else none
  | .completeUploads batchId ownership snapshot, s =>
    some (s.ext, do pure (.completed (← completeUploads services batchId ownership snapshot)))
  | .admitReadyFiles batchId ownership snapshot, s =>
    some (s.ext, do pure (.admitted (← admitReadyFiles services batchId ownership snapshot)))
  | .remainingToday subject dailyFiles, s =>
    some (s.ext, do pure (.remaining (← remainingToday subject dailyFiles)))
  | .applyEvent event, s =>
    if event.batchId ∈ s.db.issued then some (s.ext, do apply event; pure .finished) else none
  | .consume message body, s =>
    if s.ext.events[message]? = some ⟨body, false⟩ then
      some (s.ext, do handleEvent message body; pure .finished)
    else none
  | .deliver message body, s =>
    match s.ext.requests[message]? with
    | none => none
    | some request =>
      if request.body = body ∧ request.deleted = false then
        let delivery : Delivery := ⟨message, body.fileId, body.batchId, request.receives + 1⟩
        some (s.ext.receive delivery, do handleRequest services delivery body; pure .finished)
      else none
  | .expireOverdueFiles, s => some (s.ext, do expireOverdueFiles; pure .finished)
  | .purgeDeadRows, s => some (s.ext, do purgeDeadRows; pure .finished)
  | .drain rounds, s => some (s.ext, do drain rounds; pure .finished)

/-- The system whose worker events all come from its own workers. -/
def pipeline : World.Program conversion Call Outcome
  | .applyEvent _, _ => none
  | other, s => system services other s

/-- Nothing has happened yet. -/
def start (now : Nat) : World conversion Call Outcome := World.idle now .initial .initial

end Pixaeron.Conversion
