import Pixaeron.Notifications.FeedbackProcessor

/-! # Security e-mails

One command sends one e-mail: the delivery is claimed under its request id, submitted to the
provider by whoever created it, and its outcome stored. Everyone else waits for the stored result.
-/

namespace Pixaeron.Notifications

open Transactions Transactions.Script

inductive SecurityEmailPurpose where
  | unspecified
  | emailVerification
  | passwordReset
  | unrecognized
deriving DecidableEq

structure SendSecurityEmailRequest where
  requestId : String
  publicSubject : String
  recipient : String
  purpose : SecurityEmailPurpose
  token : String
  contentVersion : Nat
deriving DecidableEq

/-- The results of a command are named like the stored ones. -/
structure SendSecurityEmailResponse where
  result : EmailCommandResult
  code : Option String
deriving DecidableEq

/-- The commands also need the digest of a token, and recovery commands the form of an identifier.
-/
structure EmailServices extends Services where
  createTokenFingerprint : String → String
  isUUIDv4 : String → Bool

structure DeliveryClaim where
  delivery : EmailDelivery
  isNew : Bool

/-! ## Rules -/

def toEmailPurpose (purpose : SecurityEmailPurpose) : EmailPurpose :=
  if purpose = .emailVerification then .emailVerification else .passwordReset

/-- `renderSecurityEmail` has a text for the purpose and the version. -/
def rendersSecurityEmail (purpose : SecurityEmailPurpose) (contentVersion : Nat) : Bool :=
  contentVersion = 1 && (purpose = .emailVerification || purpose = .passwordReset)

def isSameCommand (services : EmailServices) (delivery : EmailDelivery)
    (request : SendSecurityEmailRequest) (recipientHashes : List RecipientHash) : Bool :=
  delivery.publicSubject = request.publicSubject &&
    matchesRecipientHash delivery.recipientHash recipientHashes &&
  delivery.purpose = toEmailPurpose request.purpose && delivery.contentVersion =
    request.contentVersion &&
  delivery.tokenFingerprint = services.createTokenFingerprint request.token

def toCommandResponse (result : EmailCommandResult) (code : Option String) :
    SendSecurityEmailResponse :=
  ⟨result, code.filter (· ≠ "")⟩

def unknownResponse (code : String) : SendSecurityEmailResponse := ⟨.submissionUnknown, some code⟩

/-- The stored result, or that it is not known. -/
def recordedResponse (delivery : EmailDelivery) (otherwise : String) : SendSecurityEmailResponse :=
  match delivery.callerResult with
  | some result => toCommandResponse result delivery.callerResultCode
  | none => unknownResponse otherwise

namespace SesSubmissionResult

def status : SesSubmissionResult → EmailDeliveryStatus
  | .accepted _ => .accepted
  | .rejected _ => .rejected
  | .failed _ => .failed
  | .submissionUnknown _ => .submissionUnknown

def callerResult : SesSubmissionResult → EmailCommandResult
  | .accepted _ => .accepted
  | .rejected _ => .rejected
  | .failed _ => .failed
  | .submissionUnknown _ => .submissionUnknown

def code : SesSubmissionResult → Option String
  | .accepted _ => none
  | .rejected code => some code
  | .failed code => some code
  | .submissionUnknown code => some code

def replaceableStatuses : SesSubmissionResult → List EmailDeliveryStatus
  | .submissionUnknown _ => [.pending]
  | _ => [.pending, .submissionUnknown]

end SesSubmissionResult

/-! ## Rows -/

def newDelivery (services : EmailServices) (request : SendSecurityEmailRequest)
    (recipientHash : RecipientHash) (blocked : Bool) (id : String)
    (now createdAt : Nat) : EmailDelivery where
  id := id
  requestId := request.requestId
  publicSubject := request.publicSubject
  recipientHash := recipientHash
  purpose := toEmailPurpose request.purpose
  contentVersion := request.contentVersion
  tokenFingerprint := services.createTokenFingerprint request.token
  status := if blocked then .suppressed else .pending
  callerResult := if blocked then some .suppressed else none
  callerResultCode := if blocked then some "DESTINATION_SUPPRESSED" else none
  providerMessageId := none
  attemptCount := 0
  leaseExpiresAt := if blocked then none else some (now + services.deliveryLeaseMs)
  failureCode := if blocked then some "DESTINATION_SUPPRESSED" else none
  submittedAt := none
  finalizedAt := if blocked then some now else none
  lastEvent := none
  createdAt := createdAt

namespace EmailDelivery

def expiredLease (expiredAt : Nat) (d : EmailDelivery) : Bool :=
  d.status = .pending && d.callerResult = none && d.leaseExpiresAt.any (· ≤ expiredAt)

def expireLease (expiredAt : Nat) : DeliveryChange where
  apply d := { d with
    status := .submissionUnknown
    callerResult := some .submissionUnknown
    callerResultCode := some "SUBMISSION_LEASE_EXPIRED"
    failureCode := some "SUBMISSION_LEASE_EXPIRED"
    leaseExpiresAt := none
    finalizedAt := some expiredAt }
  key_apply _ := rfl

def setAttempted : DeliveryChange where
  apply d := { d with attemptCount := 1 }
  key_apply _ := rfl

def setOutcome (submission : SesSubmissionResult) : DeliveryChange where
  apply d :=
    { d with status := submission.status, failureCode := submission.code, leaseExpiresAt := none }
  key_apply _ := rfl

def setCallerResult (submission : SesSubmissionResult) (now : Nat) : DeliveryChange where
  apply d := { d with
    callerResult := some submission.callerResult
    callerResultCode := submission.code
    leaseExpiresAt := none
    finalizedAt := some now }
  key_apply _ := rfl

end EmailDelivery

/-- `emailDelivery.findUnique` by the identifier of a row that has been read. -/
def findById (delivery : EmailDelivery) : Script notifications (Option EmailDelivery) :=
  query .findDelivery fun v => (v.db.deliveries.get delivery.requestId).filter delivery.is

/-- A request and an identifier are stored once. -/
def Database.refusesDelivery (db : Database) (requestId id : String) : Prop :=
  id ∈ db.issuedDeliveries ∨ (db.deliveries.get requestId).isSome = true

instance {db : Database} {requestId id : String} : Decidable (db.refusesDelivery requestId id) :=
  inferInstanceAs (Decidable (_ ∨ _))

/-- `emailDelivery.create`. The row is created at the transaction's `now()`. -/
def createDelivery (services : EmailServices) (request : SendSecurityEmailRequest)
    (recipientHash : RecipientHash) (blocked : Bool) (id : String) (now : Nat) :
    Script notifications EmailDelivery := do
  let (refused, row) ← Script.change .createDelivery (fun _ => [.delivery request.requestId])
    (fun v db => if v.db.refusesDelivery request.requestId id then db else
      db.insertDelivery (newDelivery services request recipientHash blocked id now v.now))
    fun v => (decide (v.db.refusesDelivery request.requestId id),
      newDelivery services request recipientHash blocked id now v.now)
  require (refused = false) .uniqueConstraint
  pure row

/-! ## The claim -/

def assertSameCommand (services : EmailServices) (delivery : EmailDelivery)
    (request : SendSecurityEmailRequest) (recipientHashes : List RecipientHash) :
    Script notifications Unit :=
  require (isSameCommand services delivery request recipientHashes = true) .emailCommandConflict

/-- The transaction of `claimDelivery`. -/
def claimInTransaction (services : EmailServices) (request : SendSecurityEmailRequest)
    (recipientHash : RecipientHash) (lookupHashes : List RecipientHash) (drawn : String) :
    Script notifications DeliveryClaim := do
  let existing ← query .findByRequestId fun v => v.db.deliveries.get request.requestId
  match existing with
  | some delivery =>
    assertSameCommand services delivery request lookupHashes
    pure ⟨delivery, false⟩
  | none =>
    lockRecipientAliases lookupHashes
    let blocked ← query .findBlocked fun v =>
      (v.db.aliases lookupHashes).any EmailDestination.blocked
    let now ← readClock
    let delivery ← createDelivery services request recipientHash blocked drawn now
    pure ⟨delivery, !blocked⟩

def claimDelivery (services : EmailServices) (request : SendSecurityEmailRequest)
    (recipientHash : RecipientHash) (lookupHashes : List RecipientHash) (drawn : String) :
    Script notifications (Except Failure DeliveryClaim) :=
  transaction transactionTimeoutMs (do
    let claim ← claimInTransaction services request recipientHash lookupHashes drawn
    pure (.ok claim)) fun error => do
      if error ≠ .uniqueConstraint then refuse error else
        let existing ← query .findByRequestId fun v => v.db.deliveries.get request.requestId
        match existing with
        | none => refuse error
        | some delivery =>
          if isSameCommand services delivery request lookupHashes = true then
            pure (.ok ⟨delivery, false⟩)
          else refuse .emailCommandConflict

/-! ## Waiting for the result of another caller -/

def findByIdOrThrow (delivery : EmailDelivery) :
    Script notifications (Except Failure EmailDelivery) := do
  let found ← findById delivery
  match found with
  | none => refuse .recordNotFound
  | some row => pure (.ok row)

def expireClaim (delivery : EmailDelivery) :
    Script notifications (Except Failure EmailDelivery) := do
  let now ← readClock
  let _ ← updateDeliveries .expireClaim (fun d => delivery.is d && d.expiredLease now)
    (EmailDelivery.expireLease now)
  findByIdOrThrow delivery

/-- The time is before the deadline, which may be never. -/
def isBefore (time : Nat) (deadlineAt : Option Nat) : Bool := deadlineAt.all (time < ·)

/-- The loop looks at the row at most `polls` times and then never answers; every run of the loop
is one with enough of them. -/
def waitForCallerResult (deadlineAt : Option Nat) : Nat → EmailDelivery →
    Script notifications (Except Failure SendSecurityEmailResponse)
  | 0, _ => fail .rolledBack
  | polls + 1, delivery => do
    let time ← readClock
    if isBefore time deadlineAt = false then pure (.ok (unknownResponse "COMMAND_IN_PROGRESS")) else
      match delivery.callerResult with
      | some result => pure (.ok (toCommandResponse result delivery.callerResultCode))
      | none =>
        let leaseTime ← readClock
        if delivery.leaseExpiresAt.any (· ≤ leaseTime) = true then
          let expired ← expireClaim delivery
          match expired with
          | .error error => refuse error
          | .ok row => waitForCallerResult deadlineAt polls row
        else
          let remaining ← readClock
          if isBefore remaining deadlineAt = false then
            pure (.ok (unknownResponse "COMMAND_IN_PROGRESS")) else
            let found ← findByIdOrThrow delivery
            match found with
            | .error error => refuse error
            | .ok row => waitForCallerResult deadlineAt polls row

/-! ## The submission -/

def Outside.submit (submission : Submission) (reply : SesSubmissionResult)
    (ext : Outside) : Option Outside :=
  -- A message without an identifier counts as unknown.
  if reply = .accepted "" then none else some
    { ext with submissions := ext.submissions ++ [submission] }

def createSubmission (delivery : EmailDelivery) (request : SendSecurityEmailRequest)
    (recipient : String) :
    Script notifications SesSubmissionResult :=
  if rendersSecurityEmail request.purpose request.contentVersion = true then
    callOut (Outside.submit ⟨request.requestId, delivery.id, recipient⟩)
  else pure (.failed "EMAIL_RENDER_FAILED")

/-- The message identifier that is stored already must be this one. -/
def assertAttached (delivery : EmailDelivery) (messageId : String)
    (attached : Nat) : Script notifications Unit := do
  if attached ≠ 0 then pure () else
    let current ← findById delivery
    match current with
    | none => fail .recordNotFound
    | some row => require (row.providerMessageId = some messageId) .submissionConflict

def attachSubmission (delivery : EmailDelivery) (recordedAt : Nat) :
    SesSubmissionResult → Script notifications Unit
  | .accepted messageId => do
    let attached ← attachMessageId delivery (fun d => d.providerMessageId = none) messageId
    assertAttached delivery messageId attached
    let _ ← updateDeliveries .setSubmittedAt (fun d => delivery.is d && d.submittedAt = none)
      (EmailDelivery.setSubmittedAt recordedAt)
  | _ => pure ()

def persistProviderOutcome (delivery : EmailDelivery) (submission : SesSubmissionResult)
    (recordedAt : Nat) :
    Script notifications Unit := do
  attachSubmission delivery recordedAt submission
  let _ ← updateDeliveries .recordOutcome (fun d =>
    delivery.is d && d.status ∈ submission.replaceableStatuses)
    (EmailDelivery.setOutcome submission)

/-- The transaction of `finalizeSubmission`. -/
def finalizeInTransaction (delivery : EmailDelivery) (submission : SesSubmissionResult) :
    Script notifications EmailDelivery := do
  let now ← readClock
  persistProviderOutcome delivery submission now
  let _ ← updateDeliveries .setCallerResult (fun d => delivery.is d && d.callerResult = none)
    (EmailDelivery.setCallerResult submission now)
  let found ← findById delivery
  match found with
  | none => fail .recordNotFound
  | some row => pure row

def readRecordedResult (delivery : EmailDelivery) :
    Script notifications SendSecurityEmailResponse := do
  let found ← findById delivery
  match found with
  | none => pure (unknownResponse "DELIVERY_STATE_UNAVAILABLE")
  | some row => pure (recordedResponse row "DELIVERY_STATE_UNAVAILABLE")

def finalizeResult (delivery : EmailDelivery) (submission : SesSubmissionResult) :
    Script notifications SendSecurityEmailResponse :=
  transaction transactionTimeoutMs (do
    let persisted ← finalizeInTransaction delivery submission
    pure (recordedResponse persisted "DELIVERY_STATE_UNAVAILABLE")) fun _ =>
      readRecordedResult delivery

def submit (delivery : EmailDelivery) (request : SendSecurityEmailRequest) (recipient : String) :
    Script notifications (Except Failure SendSecurityEmailResponse) := do
  let attempted ← updateDeliveries .attempt (fun d =>
    delivery.is d && d.status = .pending && d.attemptCount = 0)
    EmailDelivery.setAttempted
  if attempted ≠ 1 then
    let found ← findByIdOrThrow delivery
    match found with
    | .error error => refuse error
    | .ok row => pure (.ok (recordedResponse row "COMMAND_IN_PROGRESS"))
  else
    let submission ← createSubmission delivery request recipient
    let response ← finalizeResult delivery submission
    pure (.ok response)

/-! ## The command -/

def sendSecurityEmail (services : EmailServices) (ring : KeyRing)
    (request : SendSecurityEmailRequest) (deadlineAt : Option Nat) (drawn : String) (polls : Nat) :
    Script notifications (Except Failure SendSecurityEmailResponse) := do
  let recipient := services.normalizeEmail request.recipient
  let recipientHash := services.create ring recipient
  let lookupHashes := services.createLookupHashes ring recipient
  let claim ← claimDelivery services request recipientHash lookupHashes drawn
  match claim with
  | .error error => refuse error
  | .ok claim =>
    match claim.delivery.callerResult with
    | some result => pure (.ok (toCommandResponse result claim.delivery.callerResultCode))
    | none =>
      if claim.isNew = false then waitForCallerResult deadlineAt polls claim.delivery
      else submit claim.delivery request recipient

end Pixaeron.Notifications
