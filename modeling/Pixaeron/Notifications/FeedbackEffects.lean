import Pixaeron.Transactions.Straight
import Pixaeron.Notifications.FeedbackProcessor

/-! # Feedback applied by itself

What the transitions of one event leave when nothing else happens meanwhile: the effect on the
row of the delivery, and on the alias rows of the recipient.
-/

namespace Pixaeron.Notifications

open Transactions Transactions.Script

variable {now : Nat} {db db' : Database}

/-! ## Statements -/

namespace Database

def updateDeliveries (db : Database) (where_ : EmailDelivery → Bool)
    (change : DeliveryChange) : Database :=
  db.changeDeliveries ((db.deliveries.select where_).map EmailDelivery.requestId) change

def updateDestinations (db : Database) (where_ : EmailDestination → Bool)
    (change : DestinationChange) : Database :=
  db.changeDestinations ((db.destinations.select where_).map EmailDestination.recipientHash) change

def upsertDestination (db : Database) (row : EmailDestination)
    (update : Option DestinationChange) : Database :=
  match db.destinations.get row.recipientHash, update with
  | none, _ => db.insertDestination row
  | some _, some change => db.changeDestinations [row.recipientHash] change
  | some _, none => db

theorem deliveries_updateDeliveries {where_ : EmailDelivery → Bool} {change : DeliveryChange}
    {requestId : String} :
    (db.updateDeliveries where_ change).deliveries.get requestId =
      (db.deliveries.get requestId).map fun d => if where_ d then change.apply d else d :=
  Table.get_modify_select change.key_apply

theorem destinations_updateDestinations {where_ : EmailDestination → Bool}
    {change : DestinationChange} {alias_ : RecipientHash} :
    (db.updateDestinations where_ change).destinations.get alias_ =
      (db.destinations.get alias_).map fun d => if where_ d then change.apply d else d :=
  Table.get_modify_select change.key_apply

/-- Only the alias rows may differ. -/
structure OnlyDestinations (db db' : Database) : Prop where
  deliveries : db'.deliveries = db.deliveries
  events : db'.events = db.events
  audits : db'.audits = db.audits
  issuedDeliveries : db'.issuedDeliveries = db.issuedDeliveries
  issuedEvents : db'.issuedEvents = db.issuedEvents

namespace OnlyDestinations

theorem refl : OnlyDestinations db db := ⟨rfl, rfl, rfl, rfl, rfl⟩

theorem trans {db'' : Database} (h : OnlyDestinations db db') (h' : OnlyDestinations db' db'') :
    OnlyDestinations db db'' where
  deliveries := h'.deliveries.trans h.deliveries
  events := h'.events.trans h.events
  audits := h'.audits.trans h.audits
  issuedDeliveries := h'.issuedDeliveries.trans h.issuedDeliveries
  issuedEvents := h'.issuedEvents.trans h.issuedEvents

theorem update {where_ : EmailDestination → Bool} {change : DestinationChange} :
    OnlyDestinations db (db.updateDestinations where_ change) := ⟨rfl, rfl, rfl, rfl, rfl⟩

theorem upsert {row : EmailDestination} {update : Option DestinationChange} :
    OnlyDestinations db (db.upsertDestination row update) := by
  unfold upsertDestination
  split
  · exact ⟨rfl, rfl, rfl, rfl, rfl⟩
  · exact ⟨rfl, rfl, rfl, rfl, rfl⟩
  · exact refl

theorem foldl {α : Type} {f : Database → α → Database} (h : ∀ db a, OnlyDestinations db (f db a))
    (l : List α) :
    OnlyDestinations db (l.foldl f db) := by
  induction l generalizing db with
  | nil => exact refl
  | cons a rest ih => exact (h db a).trans ih

end OnlyDestinations

end Database

theorem runs_updateDeliveries {name : Statement} {where_ : EmailDelivery → Bool}
    {change : DeliveryChange} :
    Runs now (updateDeliveries name where_ change) db (db.deliveries.select where_).length
      (db.updateDeliveries where_ change) := Runs.change

theorem runs_updateDestinations {name : Statement} {where_ : EmailDestination → Bool}
    {change : DestinationChange} :
    Runs now (updateDestinations name where_ change) db (db.destinations.select where_).length
      (db.updateDestinations where_ change) := Runs.change

theorem runs_require {condition : Prop} [Decidable condition] {error : Failure} (h : condition) :
    Runs now (require condition error) db () db := by
  unfold require
  rw [if_pos h]
  exact Runs.done

theorem runs_lockRecipientAliases {hashes : List RecipientHash} :
    Runs now (lockRecipientAliases hashes) db () db := by
  have hEach : ∀ a (db : Database), Runs now (lockAlias a) db () db := fun _ _ => Runs.change
  have hFold : ∀ (l : List RecipientHash) (db : Database), l.foldl (fun db _ => db) db = db := by
    intro l
    induction l with
    | nil => exact fun _ => rfl
    | cons a rest ih => exact ih
  have hAll : Runs now (lockRecipientAliases hashes) db () _ :=
    Runs.forEach (V := notifications) (f := fun db _ => db) hEach (hashes.insertionSort aliasBefore)
  rw [hFold] at hAll
  exact hAll

namespace AppliedFeedback

variable (applied : AppliedFeedback)

/-! ## The delivery -/

def submittedRow (d : EmailDelivery) : EmailDelivery :=
  if d.submittedAt = none then (EmailDelivery.setSubmittedAt applied.feedback.mailTimestamp).apply d
    else d

def acceptedRow (now : Nat) (d : EmailDelivery) : EmailDelivery :=
  if d.callerResult = none then (EmailDelivery.setAccepted now).apply d else d

/-- When the event changes the status of a delivery. -/
def changesStatus (d : EmailDelivery) : Bool :=
  if applied.feedback.event.isTerminalMailboxEvent then
    d.status ∉ terminalDeliveryStatuses || newerEventFilters applied.revision d.lastEvent
  else d.status ∉ terminalDeliveryStatuses && newerEventFilters applied.revision d.lastEvent

def setFeedback : DeliveryChange :=
  EmailDelivery.setFeedback applied.feedback.event.deliveryStatus
    applied.feedback.event.deliveryFailureCode applied.revision

def statusRow (d : EmailDelivery) : EmailDelivery :=
  if applied.changesStatus d then applied.setFeedback.apply d else d

/-- What the transitions of a delivery make of its row. -/
def deliveryRow (now : Nat) (d : EmailDelivery) : EmailDelivery :=
  applied.statusRow (acceptedRow now (applied.submittedRow d))

/-- The rows after `recordProviderAcceptance` and `applyDeliveryTransition`. -/
def afterDelivery (now : Nat) (db : Database) : Database :=
  ((db.updateDeliveries (fun d => applied.delivery.is d && d.submittedAt = none)
      (EmailDelivery.setSubmittedAt applied.feedback.mailTimestamp)).updateDeliveries
      (fun d => applied.delivery.is d && d.callerResult = none)
        (EmailDelivery.setAccepted now)).updateDeliveries
    (fun d => applied.delivery.is d && applied.changesStatus d) applied.setFeedback

theorem runs_delivery :
    Runs now (applied.recordProviderAcceptance.bind fun _ => applied.applyDeliveryTransition) db ()
      (applied.afterDelivery now db) := by
  have hAccept : Runs now applied.recordProviderAcceptance db ()
      ((db.updateDeliveries (fun d => applied.delivery.is d && d.submittedAt = none)
        (EmailDelivery.setSubmittedAt applied.feedback.mailTimestamp)).updateDeliveries
        (fun d => applied.delivery.is d && d.callerResult = none)
          (EmailDelivery.setAccepted now)) :=
    Runs.bind runs_updateDeliveries (Runs.bind Runs.readClock
      (Runs.bind runs_updateDeliveries Runs.done))
  refine hAccept.bind ?_
  unfold applyDeliveryTransition afterDelivery changesStatus
  cases applied.feedback.event.isTerminalMailboxEvent with
  | false =>
    simp only [Bool.false_eq_true, if_false, ← Bool.and_assoc]
    exact Runs.bind runs_updateDeliveries Runs.done
  | true =>
    simp only [if_true]
    exact Runs.bind runs_updateDeliveries Runs.done

variable {applied}

theorem is_submittedRow {d : EmailDelivery} :
    applied.delivery.is (applied.submittedRow d) = applied.delivery.is d := by
  unfold submittedRow
  split <;> rfl

theorem is_acceptedRow {d : EmailDelivery} :
    applied.delivery.is (acceptedRow now d) = applied.delivery.is d := by
  unfold acceptedRow
  split <;> rfl

/-- `WHERE id = … AND q` changes the row that was read, as `f` says. -/
theorem get_updateDelivery {delivery : EmailDelivery} {q : EmailDelivery → Bool}
    {change : DeliveryChange} {f : EmailDelivery → EmailDelivery}
    (hRow : ∀ d, f d = if q d then change.apply d else d) {requestId : String} :
    (db.updateDeliveries (fun d => delivery.is d && q d) change).deliveries.get requestId =
      (db.deliveries.get requestId).map fun d => if delivery.is d then f d else d := by
  rw [Database.deliveries_updateDeliveries]
  refine Option.map_congr fun d _ => ?_
  rw [hRow]
  cases delivery.is d <;> simp

theorem ite_after {p : EmailDelivery → Bool} {f g : EmailDelivery → EmailDelivery}
    (h : ∀ d, p (f d) = p d) :
    ((fun d => if p d then g d else d) ∘ fun d => if p d then f d else d) = fun d =>
      if p d then g (f d) else d := by
  funext d
  simp only [Function.comp]
  by_cases hp : p d = true
  · rw [if_pos hp, if_pos hp, if_pos ((h d).trans hp)]
  · rw [if_neg hp, if_neg hp, if_neg hp]

theorem deliveries_afterDelivery {requestId : String} :
    (applied.afterDelivery now db).deliveries.get requestId =
      (db.deliveries.get requestId).map fun d =>
        if applied.delivery.is d then applied.deliveryRow now d else d := by
  have hAccepted : ∀ d, acceptedRow now d = if decide (d.callerResult = none) then
      (EmailDelivery.setAccepted now).apply d else d := fun d => by simp [acceptedRow]
  have hSubmitted : ∀ d, applied.submittedRow d = if decide (d.submittedAt = none) then
      (EmailDelivery.setSubmittedAt applied.feedback.mailTimestamp).apply d else d := fun d => by
        simp [submittedRow]
  unfold afterDelivery
  rw [get_updateDelivery (f := applied.statusRow) fun _ => rfl, get_updateDelivery hAccepted,
    get_updateDelivery hSubmitted, Option.map_map, Option.map_map,
    ite_after fun _ => is_acceptedRow, ite_after fun _ => is_submittedRow]
  rfl

/-! ## The alias rows -/

theorem runs_upsertDestination {row : EmailDestination} (update : Option DestinationChange) :
    Runs now (upsertDestination row update) db
      (match db.destinations.get row.recipientHash, update with
      | none, _ => row
      | some found, some change => change.apply found
      | some found, none => found) (db.upsertDestination row update) := Runs.change

theorem get_upsertDestination {row : EmailDestination} {update : Option DestinationChange}
    {alias_ : RecipientHash} :
    (db.upsertDestination row update).destinations.get alias_ =
      if alias_ = row.recipientHash then
        some (match db.destinations.get row.recipientHash, update with
        | none, _ => row
        | some found, some change => change.apply found
        | some found, none => found)
      else db.destinations.get alias_ := by
  unfold Database.upsertDestination
  split
  · next hNone =>
    show (db.destinations.insert row).get alias_ = _
    rw [Table.get_insert]
    split
    · next hEq =>
      subst hEq
      simp [hNone]
    · next hNe => simp [Ne.symm hNe]
  · next found change hSome =>
    show (db.destinations.modify _ _ change.key_apply).get alias_ = _
    split
    · next hEq =>
      subst hEq
      rw [Table.get_modify_of_mem (List.mem_singleton_self _), hSome]
      rfl
    · next hNe => exact Table.get_modify_of_not_mem (by simpa using hNe)
  · next hSome =>
    split
    · next hEq => rw [hEq, hSome]
    · rfl

variable (applied)

/-- The row of an alias once `upsert` has found or created it. -/
def suppressUpserted (revision : Nat) (alias_ : RecipientHash) :
    Option EmailDestination → EmailDestination
  | none =>
    applied.destination alias_ .suppressed applied.reasonCode
      (some applied.feedback.providerTimestamp) revision
  | some found => (EmailDestination.setSuppressionRevision revision).apply found

def followsEvent (d : EmailDestination) : Bool :=
  d.status ≠ .suppressed || newerEventFilters applied.revision d.lastEvent

def suppressedRow (d : EmailDestination) : EmailDestination :=
  if applied.followsEvent d then
    (EmailDestination.follow .suppressed (applied.data applied.reasonCode)).apply d else d

def isEarlier (d : EmailDestination) : Bool :=
  d.suppressedAt = none || d.suppressedAt.any fun t => applied.feedback.providerTimestamp < t

def sinceRow (d : EmailDestination) : EmailDestination :=
  if applied.isEarlier d then
    (EmailDestination.setSuppressedAt applied.feedback.providerTimestamp).apply d else d

/-- The rows after `suppressDestination`. -/
def afterSuppress (revision : Nat) (db : Database) (alias_ : RecipientHash) : Database :=
  ((db.upsertDestination (applied.destination alias_ .suppressed applied.reasonCode
      (some applied.feedback.providerTimestamp) revision)
      (some (EmailDestination.setSuppressionRevision revision))).updateDestinations
    (fun d =>
      (applied.suppressUpserted revision alias_ (db.destinations.get alias_)).is d &&
      applied.followsEvent d)
    (EmailDestination.follow .suppressed (applied.data applied.reasonCode))).updateDestinations
    (fun d =>
      (applied.suppressUpserted revision alias_ (db.destinations.get alias_)).is d &&
      applied.isEarlier d)
    (EmailDestination.setSuppressedAt applied.feedback.providerTimestamp)

theorem runs_suppressDestination (revision : Nat) (alias_ : RecipientHash) (db : Database) :
    Runs now (applied.suppressDestination revision alias_) db ()
      (applied.afterSuppress revision db alias_) := by
  refine Runs.bind (runs_upsertDestination
    (some (EmailDestination.setSuppressionRevision revision))) ?_
  have hUpserted : (match db.destinations.get
    (applied.destination alias_ .suppressed applied.reasonCode
      (some applied.feedback.providerTimestamp) revision).recipientHash,
      some (EmailDestination.setSuppressionRevision revision) with
      | none, _ =>
        applied.destination alias_ .suppressed applied.reasonCode
          (some applied.feedback.providerTimestamp) revision
      | some found, some change => change.apply found
      | some found, none => found) = applied.suppressUpserted revision alias_
          (db.destinations.get alias_) := by
    rw [show (applied.destination alias_ .suppressed applied.reasonCode
      (some applied.feedback.providerTimestamp)
      revision).recipientHash = alias_ from rfl]
    cases db.destinations.get alias_ <;> rfl
  rw [hUpserted]
  exact Runs.bind runs_updateDestinations (Runs.bind runs_updateDestinations Runs.done)

variable {applied}

theorem suppressUpserted_recipientHash {revision : Nat} {alias_ : RecipientHash} :
    (applied.suppressUpserted revision alias_ (db.destinations.get alias_)).recipientHash =
      alias_ := by
  cases hGet : db.destinations.get alias_ with
  | none => rfl
  | some found =>
    have hKey : found.recipientHash = alias_ := Table.key_of_get hGet
    exact hKey

theorem get_afterSuppress {revision : Nat} {alias_ k : RecipientHash} :
    (applied.afterSuppress revision db alias_).destinations.get k =
      if k =
        alias_ then some (applied.sinceRow
        (applied.suppressedRow (applied.suppressUpserted revision alias_
        (db.destinations.get alias_))))
      else db.destinations.get k := by
  unfold afterSuppress
  rw [Database.destinations_updateDestinations, Database.destinations_updateDestinations,
    get_upsertDestination]
  rw [show (applied.destination alias_ .suppressed applied.reasonCode
    (some applied.feedback.providerTimestamp)
    revision).recipientHash = alias_ from rfl]
  split
  · have hUpserted : (match db.destinations.get alias_,
      some (EmailDestination.setSuppressionRevision revision) with
        | none, _ => applied.destination alias_ .suppressed applied.reasonCode
          (some applied.feedback.providerTimestamp) revision
        | some found, some change => change.apply found
        | some found, none => found) = applied.suppressUpserted revision alias_
            (db.destinations.get alias_) := by
      cases db.destinations.get alias_ <;> rfl
    rw [hUpserted, Option.map_some, Option.map_some]
    have hIs : (applied.suppressUpserted revision alias_ (db.destinations.get alias_)).is
      (applied.suppressUpserted revision alias_ (db.destinations.get alias_)) = true := by
      simp [EmailDestination.is]
    have hIs' : (applied.suppressUpserted revision alias_ (db.destinations.get alias_)).is
        (applied.suppressedRow (applied.suppressUpserted revision alias_
          (db.destinations.get alias_))) = true := by
      unfold suppressedRow
      split
      · simp [EmailDestination.is, EmailDestination.follow]
      · exact hIs
    rw [hIs, Bool.true_and]
    rw [show (if applied.followsEvent (applied.suppressUpserted revision alias_
      (db.destinations.get alias_)) = true then _ else _) =
      applied.suppressedRow (applied.suppressUpserted revision alias_ (db.destinations.get alias_))
        from rfl, hIs', Bool.true_and]
    rfl
  · next hNe =>
    cases hGet : db.destinations.get k with
    | none => rfl
    | some d =>
      have hOther : (applied.suppressUpserted revision alias_ (db.destinations.get alias_)).is d =
        false := by
        simp [EmailDestination.is, suppressUpserted_recipientHash, Table.key_of_get hGet, hNe]
      simp [hOther]

/-- The row of an alias once the event's status has been offered to it. -/
def nonterminalUpserted (applied : AppliedFeedback) (status : EmailDestinationStatus)
    (reasonCode : Option String) (alias_ : RecipientHash)
    (found : Option EmailDestination) : EmailDestination :=
  found.getD (applied.destination alias_ status reasonCode none 0)

def updatesAlias (applied : AppliedFeedback) (d : EmailDestination) : Bool :=
  !d.blocked && newerEventFilters applied.revision d.lastEvent

def nonterminalRow (applied : AppliedFeedback) (status : EmailDestinationStatus)
    (reasonCode : Option String) (d : EmailDestination) : EmailDestination :=
  if applied.updatesAlias d then (EmailDestination.follow status (applied.data reasonCode)).apply d
    else d

def nonterminalReason (applied : AppliedFeedback)
    (status : EmailDestinationStatus) : Option String :=
  if status = .temporaryFailure then applied.reasonCode else none

/-- The rows after `updateNonterminalDestination`. -/
def afterNonterminal (applied : AppliedFeedback) (status : EmailDestinationStatus) (db : Database)
    (alias_ : RecipientHash) : Database :=
  (db.upsertDestination (applied.destination alias_ status
      (applied.nonterminalReason status) none 0) none).updateDestinations
    (fun d =>
      d.recipientHash = alias_ && !d.blocked && newerEventFilters applied.revision d.lastEvent)
    (EmailDestination.follow status (applied.data (applied.nonterminalReason status)))

theorem runs_updateNonterminalDestination (status : EmailDestinationStatus) (alias_ : RecipientHash)
    (db : Database) :
    Runs now (applied.updateNonterminalDestination status alias_) db ()
      (applied.afterNonterminal status db alias_) :=
  Runs.bind (runs_upsertDestination none) (Runs.bind runs_updateDestinations Runs.done)

theorem get_afterNonterminal {status : EmailDestinationStatus} {alias_ k : RecipientHash} :
    (applied.afterNonterminal status db alias_).destinations.get k =
      if k = alias_ then some (applied.nonterminalRow status (applied.nonterminalReason status)
        (applied.nonterminalUpserted status (applied.nonterminalReason status) alias_
          (db.destinations.get alias_)))
      else db.destinations.get k := by
  unfold afterNonterminal
  rw [Database.destinations_updateDestinations, get_upsertDestination]
  rw [show (applied.destination alias_ status
    (applied.nonterminalReason status) none 0).recipientHash = alias_ from rfl]
  split
  · have hUpserted : (match db.destinations.get alias_, (none : Option DestinationChange) with
        | none, _ => applied.destination alias_ status (applied.nonterminalReason status) none 0
        | some found, some change => change.apply found
        | some found, none => found) =
        applied.nonterminalUpserted status (applied.nonterminalReason status) alias_
          (db.destinations.get alias_) := by
      unfold nonterminalUpserted
      cases db.destinations.get alias_ <;> rfl
    have hHash : (applied.nonterminalUpserted status (applied.nonterminalReason status) alias_
      (db.destinations.get alias_)).recipientHash = alias_ := by
      unfold nonterminalUpserted
      cases hGet : db.destinations.get alias_ with
      | none => rfl
      | some found => exact Table.key_of_get hGet
    rw [hUpserted, Option.map_some]
    simp only [hHash, decide_true, Bool.true_and]
    rfl
  · next hNe =>
    cases hGet : db.destinations.get k with
    | none => rfl
    | some d => simp [Table.key_of_get hGet, hNe]

end AppliedFeedback

end Pixaeron.Notifications
