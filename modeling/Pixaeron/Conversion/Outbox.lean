import Pixaeron.Conversion.Surroundings

/-! # The outbox publisher -/

namespace Pixaeron.Conversion

open Transactions Transactions.Script

def claimBatchSize : Nat := 10

def claimTransactionTimeoutMs : Nat := 20000

def sendDeadlineMs : Nat := 12000

/-- `SendMessage`: the queue takes the message, or the send fails, in which case the queue may
have taken it all the same. -/
def sends (queue : String) (body : ConversionRequestMessage) (reply : Reply)
    (outside : Outside) : Option Outside :=
  let accepted := { outside with requests := outside.requests ++ [⟨queue, body, 0, false⟩] }
  match reply with
  | .ok => some accepted
  | .threw true => some { accepted with phantomSends := outside.phantomSends + 1 }
  | .threw false => some outside
  | _ => none

/-- The rows a drain may claim, in the order of their next attempt, less those others hold. -/
def Database.dueEvents (db : Database) (now : Nat) (busy : Resource → Bool) : List OutboxEvent :=
  (orderBy (fun a b => a.nextAttemptAt ≤ b.nextAttemptAt) (db.outbox.select fun event =>
    event.status = .pending && event.nextAttemptAt ≤ now && !busy (.outbox event.id))).take
      claimBatchSize

/-- The loop over the claimed events: the ids that were delivered and those that failed. -/
def publish (deadline : Nat) :
    List OutboxEvent → List Nat → List Nat → Script conversion (List Nat × List Nat)
  | [], deliveredIds, failedIds => .done (deliveredIds, failedIds)
  | event :: rest, deliveredIds, failedIds => do
    let now ← readClock
    if deadline < now then pure (deliveredIds, failedIds)
    else
      let reply ← callOut (sends event.queue event.payload)
      match reply with
      | .ok => publish deadline rest (deliveredIds ++ [event.id]) failedIds
      | _ => publish deadline rest deliveredIds (failedIds ++ [event.id])

def backOffMs (attempts : Nat) : Nat := min (2 ^ min attempts 10 * 5000) 900000

def OutboxEvent.backOff (event : OutboxEvent) (now : Nat) : OutboxEvent :=
  { event with attempts := event.attempts + 1, nextAttemptAt := now + backOffMs event.attempts }

@[simp] theorem OutboxEvent.backOff_id (event : OutboxEvent) (now : Nat) :
    (event.backOff now).id = event.id := rfl

@[simp] theorem OutboxEvent.backOff_payload (event : OutboxEvent) (now : Nat) :
    (event.backOff now).payload = event.payload := rfl

def Database.deleteDelivered (db : Database) (deliveredIds : List Nat) : Database :=
  { db with outbox := db.outbox.delete fun event => event.id ∈ deliveredIds }

def Database.backOffFailed (db : Database) (failedIds : List Nat) (now : Nat) : Database :=
  { db with outbox := db.outbox.modify failedIds (fun event => event.backOff now) fun event =>
    event.backOff_id now }

@[simp] theorem Database.settled_files {db : Database} {deliveredIds failedIds : List Nat}
    {now : Nat} :
    ((db.deleteDelivered deliveredIds).backOffFailed failedIds now).files = db.files := rfl

@[simp] theorem Database.settled_batches {db : Database} {deliveredIds failedIds : List Nat}
    {now : Nat} :
    ((db.deleteDelivered deliveredIds).backOffFailed failedIds now).batches = db.batches := rfl

theorem Database.get_deleteDelivered {db : Database} {deliveredIds : List Nat} {id : Nat} :
    (db.deleteDelivered deliveredIds).outbox.get id = (db.outbox.get id).filter fun _ =>
      id ∉ deliveredIds := by
  unfold deleteDelivered
  rw [Table.get_delete]
  cases hFound : db.outbox.get id with
  | none => rfl
  | some event => simp [Option.filter, Table.key_of_get hFound]

theorem Database.get_backOffFailed {db : Database} {failedIds : List Nat} {now id : Nat} :
    (db.backOffFailed failedIds now).outbox.get id =
      (db.outbox.get id).map fun event => if id ∈ failedIds then event.backOff now else event := by
  unfold backOffFailed
  rw [Table.get_modify]

def publishClaimed : Script conversion Nat := do
  let events ← lockRows .claimEvents (fun v => (v.db.dueEvents v.now v.busy).map fun event =>
    .outbox event.id)
    fun v => v.db.dueEvents v.now v.busy
  let now ← readClock
  let (deliveredIds, failedIds) ← publish (now + sendDeadlineMs) events [] []
  if !deliveredIds.isEmpty then
    change .deleteDelivered (fun _ => deliveredIds.map .outbox)
      (fun _ db => db.deleteDelivered deliveredIds) fun _ => ()
  if !failedIds.isEmpty then
    change .backOffFailed (fun _ => failedIds.map .outbox)
      (fun v db => db.backOffFailed failedIds v.now) fun _ => ()
  pure events.length

/-- `rounds` bounds the `do … while` loop. An error is logged and ends the drain. -/
def drain : Nat → Script conversion Unit
  | 0 => .done ()
  | rounds + 1 => do
    let claimed ← transaction claimTransactionTimeoutMs (do pure (some (← publishClaimed))) fun _ =>
      .done none
    if claimed = some claimBatchSize then drain rounds else pure ()

end Pixaeron.Conversion
