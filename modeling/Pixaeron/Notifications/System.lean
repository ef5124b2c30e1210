import Pixaeron.Notifications.Operations

/-! # The notifications system

Commands, feedback, operations and deployments of other keys. A world runs any number of them at
the same time, statement by statement.

Message queues, the bodies of messages, log lines and the texts of the e-mails are left out: no
statement here reads them.
-/

namespace Pixaeron.Notifications

open Transactions Transactions.Script

inductive Call where
  | send (request : SendSecurityEmailRequest) (deadlineAt : Option Nat) (drawn : String)
      (polls : Nat)
  | processFeedback (feedback : SesFeedback) (drawn : DrawnFeedback)
  | expireStaleClaims
  | requestRecovery (recipient : String) (evidence : RecoveryEvidence)
  | completeRecovery (recipient : String) (evidence : RecoveryEvidence)
  | failRecovery (recipient : String) (evidence : RecoveryEvidence)
  | cleanupExpiredHistory
  | deploy (ring : KeyRing)

inductive Outcome where
  | responded (result : Except Failure SendSecurityEmailResponse)
  | processed (result : Except Failure ProcessingResult)
  | finished (result : Except Failure Unit)

variable (services : EmailServices)

def scriptOf (ring : KeyRing) : Call → Script notifications Outcome
  | .send request deadlineAt drawn polls => do
    pure (.responded (← sendSecurityEmail services ring request deadlineAt drawn polls))
  | .processFeedback feedback drawn => do
    pure (.processed (← processFeedback services.toServices ring feedback drawn))
  | .expireStaleClaims => do pure (.finished (← expireStaleClaims))
  | .requestRecovery recipient evidence =>
    do pure (.finished (← requestRecovery services ring recipient evidence))
  | .completeRecovery recipient evidence =>
    do pure (.finished (← completeRecovery services ring recipient evidence))
  | .failRecovery recipient evidence =>
    do pure (.finished (← failRecovery services ring recipient evidence))
  | .cleanupExpiredHistory => do pure (.finished (← cleanupExpiredHistory services ring))
  | .deploy _ => pure (.finished (.ok ()))

/-- `onApplicationBootstrap`: every key under which a row is hashed is configured. -/
def configuresRetained (ring : KeyRing) (db : Database) : Prop :=
  (∀ d ∈ db.destinations.rows,
    d.recipientHash.keyVersion ∈ ring.keys.map RecipientHashKey.version) ∧
  ∀ d ∈ db.deliveries.rows, d.recipientHash.keyVersion ∈ ring.keys.map RecipientHashKey.version

instance {ring : KeyRing} {db : Database} : Decidable (configuresRetained ring db) :=
  inferInstanceAs (Decidable (_ ∧ _))

/-- A call works with the keys that are deployed when it starts. -/
def system : World.Program notifications Call Outcome := fun call s =>
  match call with
  | .deploy ring =>
    if configuresRetained ring s.db then some ({ s.ext with keyRing := ring },
      scriptOf services ring call)
    else none
  | _ => some (s.ext, scriptOf services s.ext.keyRing call)

def emptyDatabase : Database where
  deliveries := .empty
  events := .empty
  destinations := .empty
  audits := .empty
  issuedDeliveries := []
  issuedEvents := []

def start (now : Nat) (ring : KeyRing) : World notifications Call Outcome :=
  World.idle now emptyDatabase ⟨[], ring⟩

end Pixaeron.Notifications
