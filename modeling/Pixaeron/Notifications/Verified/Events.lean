import Pixaeron.Transactions.Watches
import Pixaeron.Notifications.Verified.Writes

/-! # Verified: an event is stored with what it does

A transaction lets a delivery follow an event only after it has stored the event, and it stores the
event only after it has seen, under the lock of its fingerprint, that nobody else has.
-/

namespace Pixaeron.Notifications.Events

open Transactions Transactions.Script

/-- The delivery of the request follows the event with the fingerprint. -/
def FollowsEvent (k requestId : String) (db : Database) : Prop :=
  ∃ d revision, db.deliveries.get requestId = some d ∧ d.lastEvent = some revision ∧
    revision.fingerprint = k

def eventWatch (k requestId : String) : Watch notifications Call (Option EmailDeliveryEvent) where
  read db := db.events.get k
  lock := .event k
  Open e := e = none
  Legal _ db db' := FollowsEvent k requestId db' →
    FollowsEvent k requestId db ∨ (db.events.get k = none ∧ db'.events.get k ≠ none)
  Trusted _ := False

variable {services : EmailServices} {ring : KeyRing} {k requestId : String} {call : Call}
  {α β : Type}
  {phase : Phase notifications} {locked : Bool} {change : Database → Database} {seen : Prop}

abbrev Careful (k requestId : String) (call : Call) (Q : Phase notifications → α → Prop)
    (p : Script notifications α) (phase : Phase notifications) : Prop :=
  (eventWatch k requestId).Careful call Q p phase

/-- The change lets nothing follow the event. -/
def Calm (k requestId : String) (write : Database → Database) : Prop :=
  ∀ db, FollowsEvent k requestId (write db) → FollowsEvent k requestId db

/-- The change does not store the event either. -/
def Quiet (k requestId : String) (write : Database → Database) : Prop :=
  (∀ db, db.events.get k = none → (write db).events.get k = none) ∧ Calm k requestId write

/-- The change leaves the event as it is. -/
def Plain (k requestId : String) (write : Database → Database) : Prop :=
  (eventWatch k requestId).Neutral write ∧ Calm k requestId write

theorem rests : (eventWatch k requestId).Rests := fun _ _ hFollows => .inl hFollows

theorem Calm.comp {f g : Database → Database} (hf : Calm k requestId f)
    (hg : Calm k requestId g) : Calm k requestId (f ∘ g) :=
  fun db hFollows => hg db (hf (g db) hFollows)

theorem calm_id : Calm k requestId id := fun _ hFollows => hFollows

theorem plain_id : Plain k requestId id := ⟨fun _ => rfl, calm_id⟩

theorem admits_quiet : (eventWatch k requestId).Admits call (Quiet k requestId) where
  same := ⟨fun _ hNone => hNone, calm_id⟩
  comp _ g hf hg := ⟨fun db hNone => hf.1 (g db) (hg.1 db hNone), hf.2.comp hg.2⟩
  legal _ hQuiet db hFollows := .inl (hQuiet.2 db hFollows)
  spares _ hQuiet _ db hNone := hQuiet.1 db hNone

theorem admits_plain : (eventWatch k requestId).Admits call (Plain k requestId) where
  same := plain_id
  comp _ g hf hg := ⟨fun db => (hf.1 (g db)).trans (hg.1 db), hf.2.comp hg.2⟩
  legal _ hPlain db hFollows := .inl (hPlain.2 db hFollows)
  spares _ hPlain _ db hNone := (hPlain.1 db).trans hNone

theorem calm_of_row {write : Database → Database}
    (h : ∀ db, (write db).deliveries.get requestId = db.deliveries.get requestId) :
    Calm k requestId write := by
  rintro db ⟨d, revision, hRow, hFollows⟩
  exact ⟨d, revision, (h db).symm.trans hRow, hFollows⟩

theorem plain_changeDeliveries {requestIds : List String} {change : DeliveryChange}
    (h : ∀ d revision, (change.apply d).lastEvent = some revision → revision.fingerprint = k →
      d.lastEvent = some revision) :
    Plain k requestId fun db => db.changeDeliveries requestIds change := by
  refine ⟨fun _ => rfl, ?_⟩
  rintro db ⟨d', revision, hRow, hLast, hKey⟩
  have hGet : (db.changeDeliveries requestIds change).deliveries.get requestId =
      (db.deliveries.get requestId).map fun d =>
        if requestId ∈ requestIds then change.apply d else d := by
    rw [Database.changeDeliveries, Table.get_modify]
  obtain ⟨d, hBefore, hAfter⟩ := Option.map_eq_some_iff.mp (hGet.symm.trans hRow)
  refine ⟨d, revision, hBefore, ?_, hKey⟩
  split at hAfter
  · subst hAfter
    exact h d revision hLast hKey
  · subst hAfter
    exact hLast

theorem allows_plain : AllowsDeliveries (Plain k requestId) where
  other _ h := ⟨fun db => congrArg (fun events => Table.get events k) (h db).2.2,
    calm_of_row fun db => congrArg (fun deliveries => Table.get deliveries requestId) (h db).1⟩
  modest _ _ hModest := plain_changeDeliveries fun d _ hLast _ =>
    (hModest.lastEvent d).symm.trans hLast

theorem plain_of_within {recipientHashes : List RecipientHash} {write : Database → Database}
    (h : Within recipientHashes write) :
    Plain k requestId write :=
  ⟨fun db => congrArg (fun events => Table.get events k) (h.events db),
    calm_of_row fun db =>
      congrArg (fun deliveries => Table.get deliveries requestId) (h.deliveries db)⟩

theorem plain_insertDelivery {row : EmailDelivery} (h : row.lastEvent = none) :
    Plain k requestId fun db => db.insertDelivery row := by
  refine ⟨fun _ => rfl, ?_⟩
  rintro db ⟨d, revision, hRow, hLast, hKey⟩
  have hGet : (db.deliveries.get requestId).or
    (if row.requestId = requestId then some row else none) = some d :=
    Table.get_insert.symm.trans hRow
  rcases Option.or_eq_some_iff.mp hGet with hBefore | ⟨_, hNew⟩
  · exact ⟨d, revision, hBefore, hLast, hKey⟩
  · split at hNew <;> cases hNew
    cases h.symm.trans hLast

/-! ## Feedback -/

section Feedback

variable {applied : AppliedFeedback} {recipientHashes : List RecipientHash} {feedback : SesFeedback}
  {delivery : EmailDelivery}

theorem only_transitions (hOther : applied.revision.fingerprint ≠ k) :
    (applied.transitions recipientHashes).Only (Plain k requestId) := by
  refine (only_recordProviderAcceptance allows_plain).bind fun _ =>
    Only.bind (only_applyDeliveryTransition fun _ _ =>
      plain_changeDeliveries fun d revision hLast hKey => ?_) fun _ =>
      only_applyDestinationTransition allows_plain fun _ => plain_of_within
  cases hLast
  exact absurd hKey hOther

/-- Once the event is stored by a transaction that has found it missing, its delivery may follow it.
-/
theorem careful_transitions (hLocked : locked = true) (hSeen : seen)
    (hStored : ∀ db, (change db).events.get k ≠ none) :
    Careful k requestId call (fun phase _ => (eventWatch k requestId).MayCommit call phase)
      (applied.transitions recipientHashes)
      (.inside locked change seen) := by
  have hAllows : AllowsDeliveries fun write : Database → Database =>
    ∀ db, (write db).events = db.events :=
    ⟨fun _ h db => (h db).2.2, fun _ _ _ _ => rfl⟩
  refine Watch.Careful.of_only (P := fun write : Database → Database => ∀ db,
    (write db).events = db.events) (fun _ => rfl)
    (fun _ g hf hg db => (hf (g db)).trans (hg db)) ?_ fun _ added seen' _ hAdded hKept =>
      ⟨fun db hOpen _ => .inr ⟨?_, ?_⟩, fun hFree => ?_⟩
  · exact (only_recordProviderAcceptance hAllows).bind fun _ =>
      Only.bind (only_applyDeliveryTransition fun _ _ _ => rfl) fun _ =>
      only_applyDestinationTransition hAllows fun _ hWithin => hWithin.events
  · exact hOpen (hKept hLocked hSeen)
  · show (added (change db)).events.get k ≠ none
    rw [hAdded]
    exact hStored db
  · simp [hLocked] at hFree

/-- The event is not there yet when its row is written, under the lock of the fingerprint. -/
theorem careful_createEvent {eventId : String} {Q : Phase notifications → Unit → Prop}
    (hInside : Watch.Inside (Plain k requestId) phase)
    (hQ : ∀ change seen, seen → (∀ db : Database, (change db).events.get k ≠ none) →
      Q (.inside true change seen) ()) :
    Careful k requestId call Q (createEvent feedback delivery k eventId) phase := by
  cases phase with
  | outside => exact hInside.elim
  | inside locked change seen =>
    refine Watch.Careful.bind fun v => Watch.Careful.check fun hAnswer => ?_
    have hNew : ¬ v.db.refusesEvent eventId feedback.snsMessageId k := of_decide_eq_false hAnswer
    have hMissing : v.db.events.get k = none := by
      refine Table.get_eq_none_iff.mpr fun e he hKey => hNew (.inr ?_)
      exact List.find?_isSome.mpr ⟨e, he, decide_eq_true (.inr hKey)⟩
    have hLocked : (locked || decide ((eventWatch k requestId).lock ∈
      [Resource.event k, .snsMessage feedback.snsMessageId])) = true := by
      simp [eventWatch]
    rw [hLocked]
    refine hQ _ _ ⟨rfl, .inr ⟨hInside.1, hMissing⟩⟩ fun db => ?_
    simp only [Function.comp_apply, hNew, if_false, Database.insertEvent, Table.get_insert]
    simp [newEvent]

theorem careful_persist {base : Services} {drawn : DrawnFeedback} :
    Careful k requestId call (fun phase _ => (eventWatch k requestId).MayCommit call phase)
      (persist base feedback recipientHashes drawn) (.inside false id False) := by
  refine Watch.Careful.bind
    ((Watch.Careful.stays admits_plain (only_findDelivery allows_plain)
    (Watch.inside_id plain_id)).mono
    fun _ delivery hFound =>
      Watch.Careful.bind
      ((Watch.Careful.stays admits_plain (only_attachProviderMessageId allows_plain) hFound).mono
      fun _ _ hAttached => Watch.Careful.bind (Watch.Careful.check fun _ => Watch.Careful.bind
        ((Watch.Careful.stays admits_plain (only_query allows_plain) hAttached).mono
          fun phase duplicate hRead => ?_))))
  cases duplicate with
  | some event =>
    exact Watch.Careful.bind (Watch.Careful.check fun _ => admits_plain.mayCommit hRead)
  | none =>
    by_cases hKey : createSesFeedbackFingerprint base feedback delivery.recipientHash.value = k
    · subst hKey
      exact Watch.Careful.bind (careful_createEvent hRead fun change seen hSeen hStored =>
        Watch.Careful.bind
        ((careful_transitions rfl hSeen hStored).mono fun _ _ hEnd => hEnd))
    · refine Watch.Careful.bind
        ((Watch.Careful.stays admits_plain (only_createEvent allows_plain fun now => ⟨fun db => ?_,
        calm_of_row fun _ => rfl⟩)
        hRead).mono fun _ _ hStored =>
          Watch.Careful.bind
          ((Watch.Careful.stays admits_plain (only_transitions hKey) hStored).mono
          fun _ _ hEnd => admits_plain.mayCommit hEnd))
      show (db.events.insert _).get k = db.events.get k
      rw [Table.get_insert, if_neg (by exact hKey), Option.or_none]

theorem careful_processFeedback {base : Services} {drawn : DrawnFeedback} :
    Careful k requestId call (fun _ _ => True)
      (processFeedback base ring feedback drawn) .outside := by
  refine Watch.Careful.transaction (fun error => ?_)
    (Watch.Careful.bind (careful_persist.mono fun _ _ hEnd => ⟨hEnd, trivial⟩))
  split
  · refine Watch.Careful.transaction (fun _ => trivial)
      (Watch.Careful.bind ((Watch.Careful.stays admits_plain
      (only_isCommittedDuplicate allows_plain) (Watch.inside_id plain_id)).mono fun _ _ hRead =>
        Watch.Careful.bind
        (Watch.Careful.check fun _ => ⟨admits_plain.mayCommit hRead, trivial⟩)))
  · trivial

end Feedback

/-! ## The other calls -/

theorem quiet_aside (write : Database → Database)
    (h : ∀ db, (write db).deliveries = db.deliveries ∧ (write db).events = db.events) :
    Quiet k requestId write :=
  ⟨fun db hNone => (congrArg (fun events => Table.get events k) (h db).2).trans hNone,
    calm_of_row fun db => congrArg (fun deliveries => Table.get deliveries requestId) (h db).1⟩

theorem quiet_deleteEvents {p : EmailDeliveryEvent → Bool} :
    Quiet k requestId fun db => db.deleteEvents p := by
  refine ⟨fun db hNone => ?_, calm_of_row fun _ => rfl⟩
  show (db.events.delete p).get k = none
  rw [Table.get_delete, hNone]
  rfl

theorem quiet_deleteDeliveries {p : EmailDelivery → Bool} :
    Quiet k requestId fun db => db.deleteDeliveries p := by
  refine ⟨fun _ hNone => hNone, ?_⟩
  rintro db ⟨d, revision, hRow, hFollows⟩
  have hGet : (db.deliveries.get requestId).filter (fun r => !p r) = some d :=
    Table.get_delete.symm.trans hRow
  exact ⟨d, revision, (Option.filter_eq_some_iff.mp hGet).1, hFollows⟩

theorem writes_sendSecurityEmail {request : SendSecurityEmailRequest} {deadlineAt : Option Nat}
    {drawn : String} {polls : Nat} :
    (sendSecurityEmail services ring request deadlineAt drawn polls).Writes
      (Plain k requestId) fun _ => True :=
  Notifications.writes_sendSecurityEmail allows_plain (fun _ hNone => plain_insertDelivery hNone)
    (fun _ => plain_changeDeliveries fun _ _ hLast _ => hLast) fun _ => trivial

/-! ## The service -/

theorem events_kept : (eventWatch k requestId).KeptBy (system services) := by
  intro call s ext script hProgram
  have hOutcome {β : Type} {p : Script notifications β} {outcome : β → Outcome}
      (h : Careful k requestId call (fun _ _ => True) p .outside) :
      Careful k requestId call (fun _ _ => True) (p.bind fun b => .done (outcome b)) .outside :=
    Watch.Careful.bind (h.mono fun _ _ _ => trivial)
  have hQuiet {β : Type} {p : Script notifications β} {outcome : β → Outcome}
    (h : p.Writes (Quiet k requestId) fun _ => True) :
      Careful k requestId call (fun _ _ => True) (p.bind fun b => .done (outcome b)) .outside :=
    hOutcome (Watch.Careful.of_writes admits_quiet h (.inl rfl))
  cases call with
  | deploy ring =>
    unfold system at hProgram
    dsimp only at hProgram
    split at hProgram <;> cases hProgram
    trivial
  | send request deadlineAt drawn polls =>
    cases hProgram
    exact hOutcome (Watch.Careful.of_writes admits_plain writes_sendSecurityEmail (.inl rfl))
  | processFeedback feedback drawn =>
    cases hProgram
    exact hOutcome careful_processFeedback
  | expireStaleClaims =>
    cases hProgram
    exact hOutcome (Watch.Careful.of_writes (M := fun _ => True) admits_plain
      (only_expireStaleClaims allows_plain).writes (.inl rfl))
  | requestRecovery recipient evidence =>
    cases hProgram
    exact hQuiet (writes_transition quiet_aside)
  | completeRecovery recipient evidence =>
    cases hProgram
    exact hQuiet (writes_transition quiet_aside)
  | failRecovery recipient evidence =>
    cases hProgram
    exact hQuiet (writes_transition quiet_aside)
  | cleanupExpiredHistory =>
    cases hProgram
    exact hQuiet (writes_cleanupExpiredHistory quiet_aside (fun _ => quiet_deleteEvents) fun _ =>
      quiet_deleteDeliveries)

end Pixaeron.Notifications.Events
