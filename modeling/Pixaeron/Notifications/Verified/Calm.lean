import Pixaeron.Notifications.RecoveryLedger

/-! # Verified: sends and feedback

Sends, feedback and the reconciliation of claims leave the audits alone and keep every alias row
under its alias.
-/

namespace Pixaeron.Notifications

open Transactions Transactions.Script

variable {services : EmailServices} {ring : KeyRing} {α : Type}

/-- The change leaves the audits alone and keeps the alias rows. -/
def Calm (change : Database → Database) : Prop :=
  ∀ db, (change db).audits = db.audits ∧ ∀ alias_, SameAlias db (change db) alias_

def Mild (effect : SesSubmissionResult → Outside → Option Outside) : Prop :=
  ∀ reply x y, effect reply x = some y → y.keyRing = x.keyRing

abbrev Quiet (p : Script notifications α) : Prop := p.Writes Calm Mild

theorem calm_of_eq {change : Database → Database}
    (h : ∀ db, (change db).audits = db.audits ∧ (change db).destinations = db.destinations) :
    Calm change :=
  fun db => ⟨(h db).1, fun _ d hGet => ⟨d, by rw [(h db).2, hGet], rfl⟩⟩

theorem calm_id : Calm id := calm_of_eq fun _ => ⟨rfl, rfl⟩

theorem Calm.comp {f g : Database → Database} (hf : Calm f) (hg : Calm g) : Calm (f ∘ g) := by
  intro db
  refine ⟨((hf (g db)).1).trans (hg db).1, fun alias_ d hGet => ?_⟩
  obtain ⟨d₁, hGet₁, hId₁⟩ := (hg db).2 alias_ d hGet
  obtain ⟨d₂, hGet₂, hId₂⟩ := (hf (g db)).2 alias_ d₁ hGet₁
  exact ⟨d₂, hGet₂, hId₂.trans hId₁⟩

theorem calm_changeDestinations {aliases : List RecipientHash} {change : DestinationChange}
    (hId : ∀ d, (change.apply d).id = d.id) : Calm fun db =>
      db.changeDestinations aliases change := by
  refine fun db => ⟨rfl, fun alias_ d hGet => ?_⟩
  simp only [Database.changeDestinations, Table.get_modify, hGet, Option.map_some]
  refine ⟨_, rfl, ?_⟩
  split
  · exact hId d
  · rfl

theorem calm_insertDestination {row : EmailDestination} : Calm fun db => db.insertDestination row :=
  fun db =>
    ⟨rfl, fun alias_ d hGet =>
      ⟨d, by simp [Database.insertDestination, Table.get_insert, hGet], rfl⟩⟩

/-! ## Statements -/

theorem quiet_query {name : Statement}
    {answer : View notifications → α} : Quiet (query name answer) := Writes.query calm_id

theorem quiet_updateDeliveries {name : Statement} {where_ : EmailDelivery → Bool}
    {change : DeliveryChange} :
    Quiet (updateDeliveries name where_ change) :=
  Writes.change fun _ => calm_of_eq fun _ => ⟨rfl, rfl⟩

theorem quiet_updateDestinations {name : Statement} {where_ : EmailDestination → Bool}
    {change : DestinationChange} (hId : ∀ d, (change.apply d).id = d.id) :
    Quiet (updateDestinations name where_ change) :=
  Writes.change fun _ => calm_changeDestinations hId

theorem quiet_lockRecipientAliases {recipientHashes : List RecipientHash} :
    Quiet (lockRecipientAliases recipientHashes) :=
  Writes.forEach (fun _ => Writes.change fun _ => calm_id) _

theorem quiet_findById {delivery : EmailDelivery} : Quiet (findById delivery) := quiet_query

theorem quiet_findByIdOrThrow {delivery : EmailDelivery} : Quiet (findByIdOrThrow delivery) :=
  quiet_findById.bind fun found => by cases found <;> trivial

theorem quiet_attachMessageId {delivery : EmailDelivery} {where_ : EmailDelivery → Bool}
    {messageId : String} :
    Quiet (attachMessageId delivery where_ messageId) := by
  refine Writes.bind (Writes.change fun v => ?_) fun _ => Writes.check.bind fun _ => trivial
  refine calm_of_eq fun db => ?_
  split <;> exact ⟨rfl, rfl⟩

/-! ## Feedback -/

section Feedback

variable {applied : AppliedFeedback} {recipientHashes : List RecipientHash}

theorem quiet_upsertDestination {row : EmailDestination} {update : Option DestinationChange}
    (hId : ∀ change, update = some change → ∀ d, (change.apply d).id = d.id) :
    Quiet (AppliedFeedback.upsertDestination row update) := by
  refine Writes.change fun v => ?_
  split
  · exact calm_insertDestination
  · exact calm_changeDestinations (hId _ rfl)
  · exact calm_id

theorem quiet_findAuthoritativeDestination {where_ : EmailDestination → Bool} :
    Quiet (AppliedFeedback.findAuthoritativeDestination where_) :=
  quiet_query.bind fun found => by cases found <;> trivial

theorem quiet_suppressDestination {revision : Nat} {alias_ : RecipientHash} :
    Quiet (applied.suppressDestination revision alias_) := by
  refine Writes.bind (quiet_upsertDestination fun change hChange d => ?_) fun _ => ?_
  · cases hChange
    rfl
  · exact (quiet_updateDestinations fun _ => rfl).bind fun _ =>
      (quiet_updateDestinations fun _ => rfl).bind fun _ => trivial

theorem quiet_suppressDestinationAliases :
    Quiet (applied.suppressDestinationAliases recipientHashes) :=
  quiet_query.bind fun _ => (Writes.forEach (fun _ => quiet_suppressDestination) _).bind fun _ =>
    quiet_findAuthoritativeDestination.bind fun _ =>
      (quiet_updateDestinations fun _ => rfl).bind fun _ => trivial

theorem quiet_updateNonterminalDestination {status : EmailDestinationStatus}
    {alias_ : RecipientHash} :
    Quiet (applied.updateNonterminalDestination status alias_) :=
  Writes.bind (quiet_upsertDestination fun _ hChange => by cases hChange) fun _ =>
    (quiet_updateDestinations fun _ => rfl).bind fun _ => trivial

theorem quiet_convergeNonterminalAliases :
    Quiet (AppliedFeedback.convergeNonterminalAliases recipientHashes) := by
  unfold AppliedFeedback.convergeNonterminalAliases
  split
  · trivial
  · exact quiet_findAuthoritativeDestination.bind fun _ =>
      (quiet_updateDestinations fun _ => rfl).bind fun _ => trivial

theorem quiet_applyDestinationTransition :
    Quiet (applied.applyDestinationTransition recipientHashes) := by
  unfold AppliedFeedback.applyDestinationTransition
  split
  · exact quiet_lockRecipientAliases.bind fun _ => quiet_suppressDestinationAliases
  · split
    · trivial
    · refine quiet_lockRecipientAliases.bind fun _ => quiet_query.bind fun blocked => ?_
      split
      · trivial
      · exact (Writes.forEach (fun _ => quiet_updateNonterminalDestination) _).bind fun _ =>
          quiet_convergeNonterminalAliases

theorem quiet_transitions : Quiet (applied.transitions recipientHashes) := by
  refine Writes.bind ?_ fun _ => Writes.bind ?_ fun _ => quiet_applyDestinationTransition
  · exact quiet_updateDeliveries.bind fun _ => Writes.readClock.bind fun _ =>
      quiet_updateDeliveries.bind fun _ => trivial
  · unfold AppliedFeedback.applyDeliveryTransition
    dsimp only
    split
    · exact quiet_updateDeliveries.bind fun _ => trivial
    · exact quiet_updateDeliveries.bind fun _ => trivial

theorem quiet_findDelivery {base : Services} {feedback : SesFeedback} :
    Quiet (findDelivery base feedback recipientHashes) := by
  refine quiet_query.bind fun byMessageId => ?_
  dsimp only
  split
  · refine quiet_query.bind fun byRequestId => Writes.check.bind fun _ =>
      Writes.check.bind fun _ => ?_
    split
    · trivial
    · exact Writes.check.bind fun _ => trivial
  · refine Writes.check.bind fun _ => Writes.check.bind fun _ => ?_
    split
    · trivial
    · exact Writes.check.bind fun _ => trivial

theorem quiet_persist {base : Services} {feedback : SesFeedback} {drawn : DrawnFeedback} :
    Quiet (persist base feedback recipientHashes drawn) := by
  refine quiet_findDelivery.bind fun delivery => Writes.bind ?_ fun _ => Writes.check.bind fun _ =>
    quiet_query.bind fun duplicate => ?_
  · unfold attachProviderMessageId
    split
    · trivial
    · exact quiet_attachMessageId.bind fun _ => Writes.check
  · split
    · exact Writes.check.bind fun _ => trivial
    · refine Writes.bind (Writes.bind (Writes.change fun v => calm_of_eq fun db => ?_)
        fun _ => Writes.check) fun _ =>
        quiet_transitions.bind fun _ => trivial
      split <;> exact ⟨rfl, rfl⟩

theorem quiet_processFeedback {base : Services} {feedback : SesFeedback} {drawn : DrawnFeedback} :
    Quiet (processFeedback base ring feedback drawn) := by
  refine Writes.transaction (quiet_persist.bind fun _ => trivial) fun error => ?_
  split
  · refine Writes.transaction (Writes.bind ?_ fun _ => Writes.check.bind fun _ => trivial) fun _ =>
      trivial
    refine quiet_findDelivery.bind fun delivery => Writes.check.bind fun _ =>
      quiet_query.bind fun duplicate => ?_
    split
    · trivial
    · exact Writes.check.bind fun _ => trivial
  · trivial

end Feedback

/-! ## Sends -/

section Sends

variable {request : SendSecurityEmailRequest} {delivery : EmailDelivery} {deadlineAt : Option Nat}
  {drawn : String}

theorem quiet_claimDelivery {recipientHash : RecipientHash} {lookupHashes : List RecipientHash} :
    Quiet (claimDelivery services request recipientHash lookupHashes drawn) := by
  refine Writes.transaction (Writes.bind (quiet_query.bind fun existing => ?_) fun _ => trivial)
    fun error => ?_
  · cases existing with
    | some delivery => exact Writes.check.bind fun _ => trivial
    | none =>
      refine quiet_lockRecipientAliases.bind fun _ => quiet_query.bind fun blocked =>
        Writes.readClock.bind fun now =>
        Writes.bind (Writes.bind (Writes.change fun v => calm_of_eq fun db => ?_) fun _ =>
          Writes.check.bind fun _ => trivial)
          fun _ => trivial
      split <;> exact ⟨rfl, rfl⟩
  · dsimp only
    split
    · trivial
    · refine quiet_query.bind fun existing => ?_
      cases existing with
      | none => trivial
      | some delivery =>
        dsimp only
        split <;> trivial

theorem quiet_expireClaim : Quiet (expireClaim delivery) :=
  Writes.readClock.bind fun _ => quiet_updateDeliveries.bind fun _ => quiet_findByIdOrThrow

theorem quiet_waitForCallerResult {polls : Nat} :
    Quiet (waitForCallerResult deadlineAt polls delivery) := by
  induction polls generalizing delivery with
  | zero => trivial
  | succ polls ih =>
    refine Writes.readClock.bind fun time => ?_
    split
    · trivial
    · split
      · trivial
      · refine Writes.readClock.bind fun leaseTime => ?_
        split
        · refine quiet_expireClaim.bind fun expired => ?_
          cases expired with
          | error error => trivial
          | ok row => exact ih
        · refine Writes.readClock.bind fun remaining => ?_
          split
          · trivial
          · refine quiet_findByIdOrThrow.bind fun found => ?_
            cases found with
            | error error => trivial
            | ok row => exact ih

theorem mild_submit {submission : Submission} : Mild (Outside.submit submission) := by
  intro reply x y h
  unfold Outside.submit at h
  split at h <;> cases h
  rfl

theorem quiet_finalizeResult {submission : SesSubmissionResult} :
    Quiet (finalizeResult delivery submission) := by
  refine Writes.transaction (Writes.bind ?_ fun _ => trivial) fun _ =>
    quiet_findById.bind fun found => ?_
  · refine Writes.readClock.bind fun now =>
      Writes.bind (Writes.bind ?_ fun _ => quiet_updateDeliveries.bind fun _ => trivial)
      fun _ => quiet_updateDeliveries.bind fun _ => quiet_findById.bind fun found => ?_
    · cases submission with
      | accepted messageId =>
        refine quiet_attachMessageId.bind fun attached => Writes.bind ?_ fun _ =>
          quiet_updateDeliveries.bind fun _ => trivial
        unfold assertAttached
        split
        · trivial
        · refine quiet_findById.bind fun current => ?_
          cases current with
          | none => trivial
          | some row => exact Writes.check
      | _ => trivial
    · cases found <;> trivial
  · cases found <;> trivial

theorem quiet_submit {recipient : String} : Quiet (submit delivery request recipient) := by
  refine quiet_updateDeliveries.bind fun attempted => ?_
  split
  · refine quiet_findByIdOrThrow.bind fun found => ?_
    cases found <;> trivial
  · refine Writes.bind ?_ fun submission => quiet_finalizeResult.bind fun _ => trivial
    unfold createSubmission
    split
    · exact ⟨mild_submit, fun _ => trivial⟩
    · trivial

theorem quiet_sendSecurityEmail {polls : Nat} :
    Quiet (sendSecurityEmail services ring request deadlineAt drawn polls) := by
  refine quiet_claimDelivery.bind fun claim => ?_
  cases claim with
  | error error => trivial
  | ok claim =>
    dsimp only
    split
    · trivial
    · split
      · exact quiet_waitForCallerResult
      · exact quiet_submit

end Sends

theorem quiet_expireStaleClaims : Quiet expireStaleClaims :=
  Writes.readClock.bind fun _ => quiet_updateDeliveries.bind fun _ => trivial

theorem harmless {call : Call} (hCommand : call.command = none) :
    Harmless (discipline services ring) call Calm Mild where
  same := calm_id
  comp _ _ hf hg := hf.comp hg
  free _ _ := trivial
  record held s e change hSound hKeyed hCall hBefore hEnded hCalm hAfter hKept := by
    rw [← hBefore] at hAfter hKept
    obtain ⟨hAudits, hAliases⟩ := hCalm e.before
    rw [← hAfter] at hAudits hAliases
    have hLegal : Legal services ring e := {
      keyed := hKeyed
      kept := hKept
      audits := .inl fun a ha => hAudits ▸ ha
      aliases := fun d hd => by
        obtain ⟨d', hGet', hId'⟩ := hAliases d.recipientHash d (Table.get_of_mem hd)
        exact .inl ⟨d', Table.mem_of_get hGet', hId', Table.key_of_get hGet'⟩ }
    refine Ledger.guarantee_record hSound hBefore hEnded hLegal ?_ (fun r _ => ?_)
      (fun _ _ => trivial) fun _ _ _ => trivial
    · refine orderly_record hSound.2 fun c hc => ?_
      rw [hCall, hCommand] at hc
      cases hc
    · cases r with
      | recoveryOperation operationId => exact fun a ha _ => hAudits ▸ ha
      | destination alias_ => exact ⟨hAliases alias_, fun _ _ a ha _ => hAudits ▸ ha⟩
      | _ => trivial
  ask held s effect reply ext hSound hMild hEffect := by
    refine Ledger.guarantee_setExt hSound ⟨(hMild reply s.ext ext hEffect).trans hSound.2.keys,
      hSound.2.judged⟩ trivial
      (fun _ _ => trivial) fun _ _ _ => trivial

end Pixaeron.Notifications
