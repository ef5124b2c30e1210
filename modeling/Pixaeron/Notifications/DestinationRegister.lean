import Pixaeron.Transactions.Walks
import Pixaeron.Notifications.DeliveryRegister
import Pixaeron.Notifications.RecoveryLedger

/-! # The row of one alias

What the statements of the service may do to the row of an alias while the keys stay the same:
events create it and may block it, recovery commands move it on, the clean-up deletes it if its key
is old. -/

namespace Pixaeron.Notifications.Destinations

open Transactions

/-- The service while the keys stay the same. -/
def keyed (services : EmailServices) (ring : KeyRing) : World.Program notifications Call Outcome :=
  fun call s => match call with
  | .deploy _ => none
  | _ => some (s.ext, scriptOf services ring call)

/-- What the processing of an event does to an alias row. -/
structure Fed (d d' : EmailDestination) : Prop where
  alias_ : d'.recipientHash = d.recipientHash
  id : d'.id = d.id
  blocked : d.blocked = true → d'.blocked = true
  pending : d'.status = .recoveryPending → d.status = .recoveryPending

theorem Fed.trans {d d' d'' : EmailDestination} (h : Fed d d') (h' : Fed d' d'') : Fed d d'' where
  alias_ := h'.alias_.trans h.alias_
  id := h'.id.trans h.id
  blocked hBlocked := h'.blocked (h.blocked hBlocked)
  pending hPending := h.pending (h'.pending hPending)

/-- The command is about the alias, and the row is in the state that it expects. -/
structure Applies (services : EmailServices) (ring : KeyRing) (alias_ : RecipientHash)
    (c : RecoveryCommand) (d : EmailDestination) : Prop where
  alias_ : alias_ ∈ services.createLookupHashes ring c.recipient
  valid : validateRecoveryEvidence services c.evidence c.change.action = .ok ()
  status : d.status = c.change.expectedStatus
  revision : (d.suppressionRevision : Int) ≤ c.evidence.expectedSuppressionRevision

inductive DestinationStep (services : EmailServices) (ring : KeyRing) (alias_ : RecipientHash)
    (call : Call) :
    Option EmailDestination → Option EmailDestination → Prop
  | created {d : EmailDestination} : call.IsFeedback → d.recipientHash = alias_ →
      d.status ≠ .recoveryPending →
    DestinationStep services ring alias_ call none (some d)
  | fed {d d' : EmailDestination} : call.IsFeedback → Fed d d' →
      DestinationStep services ring alias_ call (some d) (some d')
  | recovered {d : EmailDestination} {c : RecoveryCommand} : call.command = some c →
      Applies services ring alias_ c d →
    DestinationStep services ring alias_ call (some d)
      (some ((EmailDestination.recover c.change.nextStatus).apply d))
  | retired {d : EmailDestination} : call = .cleanupExpiredHistory →
      alias_.keyVersion ≠ ring.activeKey.version →
    DestinationStep services ring alias_ call (some d) none

def destinationRegister (services : EmailServices) (ring : KeyRing) (alias_ : RecipientHash) :
    Register notifications Call (Option EmailDestination) where
  read db := db.destinations.get alias_
  lock := .destination alias_
  Step := DestinationStep services ring alias_
  Fit _ := True
  Keeps _ _ := True

variable {services : EmailServices} {ring : KeyRing} {alias_ : RecipientHash} {call : Call}

theorem command_of_isFeedback (h : call.IsFeedback) : call.command = none := by
  obtain ⟨_, _, rfl⟩ := h
  rfl

theorem expectedStatus_ne {c : RecoveryCommand} (h : call.command = some c) :
    c.change.nextStatus ≠ c.change.expectedStatus := by
  cases call <;> cases h <;> simp

@[simp] theorem status_recover {next : EmailDestinationStatus} {d : EmailDestination} :
    ((EmailDestination.recover next).apply d).status = next := by
  simp only [EmailDestination.recover]
  split <;> rfl

theorem DestinationStep.trans {r r' r'' : Option EmailDestination}
    (h : DestinationStep services ring alias_ call r r')
    (h' : DestinationStep services ring alias_ call r' r'') :
    DestinationStep services ring alias_ call r r'' := by
  cases h with
  | created hFeedback hAlias hStatus =>
    cases h' with
    | fed _ hFed =>
      exact .created hFeedback (hFed.alias_.trans hAlias) fun hPending =>
        hStatus (hFed.pending hPending)
    | recovered hCommand _ => cases (command_of_isFeedback hFeedback).symm.trans hCommand
    | retired hCleanup _ =>
      obtain ⟨_, _, rfl⟩ := hFeedback
      cases hCleanup
  | fed hFeedback hFed =>
    cases h' with
    | fed _ hFed' => exact .fed hFeedback (hFed.trans hFed')
    | recovered hCommand _ => cases (command_of_isFeedback hFeedback).symm.trans hCommand
    | retired hCleanup _ =>
      obtain ⟨_, _, rfl⟩ := hFeedback
      cases hCleanup
  | recovered hCommand _ =>
    cases h' with
    | fed hFeedback _ => cases (command_of_isFeedback hFeedback).symm.trans hCommand
    | recovered hAgain hApplies =>
      cases hCommand.symm.trans hAgain
      exact absurd (status_recover.symm.trans hApplies.status) (expectedStatus_ne hCommand)
    | retired hCleanup _ =>
      subst hCleanup
      cases hCommand
  | retired hCleanup _ =>
    cases h' with
    | created hFeedback _ _ =>
      obtain ⟨_, _, rfl⟩ := hFeedback
      cases hCleanup

theorem moves_iff {r r' : Option EmailDestination} :
    (destinationRegister services ring alias_).Moves call r r' ↔
      r' = r ∨ DestinationStep services ring alias_ call r r' := by
  constructor
  · intro h
    induction h with
    | refl => exact .inl rfl
    | tail _ hStep ih =>
      rcases ih with rfl | hSoFar
      · exact .inr hStep
      · exact .inr (DestinationStep.trans hSoFar hStep)
  · rintro (rfl | hStep)
    · exact .refl
    · exact .single hStep

/-! ## Steps from and to a status -/

variable {d : EmailDestination} {r r' : Option EmailDestination}

/-- How a row stops being blocked. -/
inductive Unblocks (services : EmailServices) (ring : KeyRing) (alias_ : RecipientHash)
    (call : Call) (d : EmailDestination) :
    Option EmailDestination → Prop
  | completed {recipient : String} {evidence : RecoveryEvidence} : call =
      .completeRecovery recipient evidence →
    alias_ ∈ services.createLookupHashes ring recipient → d.status = .recoveryPending →
    (d.suppressionRevision : Int) ≤ evidence.expectedSuppressionRevision →
    Unblocks services ring alias_ call d (some ((EmailDestination.recover .active).apply d))
  | retired : call = .cleanupExpiredHistory → alias_.keyVersion ≠ ring.activeKey.version →
      Unblocks services ring alias_ call d none

theorem blocked_of_status {d : EmailDestination}
    (h : d.status = .suppressed ∨ d.status = .recoveryPending) : d.blocked = true := by
  rcases h with hStatus | hStatus <;> simp [EmailDestination.blocked,
    blockedDestinationStatuses, hStatus]

theorem step_blocked (h : DestinationStep services ring alias_ call (some d) r')
    (hBlocked : d.blocked = true) :
    (∃ d', r' = some d' ∧ d'.id = d.id ∧ d'.blocked = true) ∨
      Unblocks services ring alias_ call d r' := by
  cases h with
  | fed _ hFed => exact .inl ⟨_, rfl, hFed.id, hFed.blocked hBlocked⟩
  | retired hCleanup hOld => exact .inr (.retired hCleanup hOld)
  | @recovered _ c hCommand hApplies =>
    have hId : ((EmailDestination.recover c.change.nextStatus).apply d).id = d.id := by
      simp only [EmailDestination.recover]
      split <;> rfl
    cases call with
    | requestRecovery recipient evidence =>
      cases hCommand
      exact .inl ⟨_, rfl, hId, blocked_of_status (.inr status_recover)⟩
    | failRecovery recipient evidence =>
      cases hCommand
      exact .inl ⟨_, rfl, hId, blocked_of_status (.inl status_recover)⟩
    | completeRecovery recipient evidence =>
      cases hCommand
      exact .inr (.completed rfl hApplies.alias_ hApplies.status hApplies.revision)
    | send _ _ _ _ => cases hCommand
    | processFeedback _ _ => cases hCommand
    | expireStaleClaims => cases hCommand
    | cleanupExpiredHistory => cases hCommand
    | deploy _ => cases hCommand

/-- The row of a recovery that has been asked for and is neither done nor given up. -/
def Pending (r : Option EmailDestination) : Prop := ∃ d, r = some d ∧ d.status = .recoveryPending

/-- A request for recovery that is about the alias and the suppression of the row. -/
def Requests (services : EmailServices) (ring : KeyRing) (alias_ : RecipientHash) (call : Call)
    (r : Option EmailDestination) :
    Prop :=
  ∃ recipient evidence d, call = .requestRecovery recipient evidence ∧
    alias_ ∈ services.createLookupHashes ring recipient ∧
    r = some d ∧ d.status = .suppressed ∧
      (d.suppressionRevision : Int) ≤ evidence.expectedSuppressionRevision

theorem step_pending (h : DestinationStep services ring alias_ call r r') (hAfter : Pending r') :
    Pending r ∨ Requests services ring alias_ call r := by
  obtain ⟨d', rfl, hStatus⟩ := hAfter
  cases h with
  | created _ _ hNot => exact absurd hStatus hNot
  | fed _ hFed => exact .inl ⟨_, rfl, hFed.pending hStatus⟩
  | recovered hCommand hApplies =>
    rw [status_recover] at hStatus
    cases call with
    | requestRecovery recipient evidence =>
      cases hCommand
      exact .inr ⟨recipient, evidence, _, rfl, hApplies.alias_, rfl, hApplies.status,
        hApplies.revision⟩
    | completeRecovery recipient evidence =>
      cases hCommand
      cases hStatus
    | failRecovery recipient evidence =>
      cases hCommand
      cases hStatus
    | send _ _ _ _ => cases hCommand
    | processFeedback _ _ => cases hCommand
    | expireStaleClaims => cases hCommand
    | cleanupExpiredHistory => cases hCommand
    | deploy _ => cases hCommand

theorem step_unblocked (h : DestinationStep services ring alias_ call r r')
    (hFeedback : ¬ call.IsFeedback) (hBefore : ∀ d, r = some d → d.blocked = false) :
    ∀ d, r' = some d → d.blocked = false := by
  cases h with
  | created hFed _ _ => exact absurd hFed hFeedback
  | fed hFed _ => exact absurd hFed hFeedback
  | retired _ _ => exact fun _ hSome => by cases hSome
  | @recovered d c hCommand hApplies =>
    have hStatus := hApplies.status
    have hNot := hBefore d rfl
    have hBlocked : d.blocked = true := by
      cases call <;> cases hCommand <;> simp [EmailDestination.blocked,
        blockedDestinationStatuses, hStatus]
    cases hBlocked.symm.trans hNot

end Pixaeron.Notifications.Destinations
