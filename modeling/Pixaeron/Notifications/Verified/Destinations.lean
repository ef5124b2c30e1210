import Pixaeron.Notifications.DestinationRegister
import Pixaeron.Notifications.Mailboxes
import Pixaeron.Notifications.RecoveryReplay
import Pixaeron.Notifications.Verified.Writes

/-! # Verified: the row of one alias

Every statement of the service leaves the row of an alias alone or locks it and takes one of its
steps. -/

namespace Pixaeron.Notifications.Destinations

open Transactions Transactions.Script

variable {services : EmailServices} {ring : KeyRing} {alias_ : RecipientHash} {call : Call}
  {α β : Type}

abbrev Walks (services : EmailServices) (ring : KeyRing) (alias_ : RecipientHash) (call : Call)
    (p : Script notifications α) : Prop :=
  (destinationRegister services ring alias_).Walks call p

theorem free (r : Option EmailDestination) :
    (destinationRegister services ring alias_).Fit r := trivial

theorem walks_done {a : α} : Walks services ring alias_ call (.done a) := fun _ _ => trivial

/-! ## Statements -/

theorem allows_neutral : AllowsDeliveries fun write : Database → Database =>
    ∀ db, (destinationRegister services ring alias_).read (write db) =
      (destinationRegister services ring alias_).read db where
  other _ h db := congrArg (fun destinations => Table.get destinations alias_) (h db).2.1
  modest _ _ _ _ := rfl

/-- A script that changes nothing but deliveries and events. -/
theorem walks_of_writes {p : Script notifications α}
    (h : p.Writes (fun write => ∀ db, (destinationRegister services ring alias_).read (write db) =
      (destinationRegister services ring alias_).read db) fun _ => True) :
      Walks services ring alias_ call p :=
  Register.Walks.of_writes free h

theorem walks_aside {name : Statement} {locks : View notifications → List Resource}
    {write : View notifications → Database → Database} {answer : View notifications → α}
    (h : ∀ v db, (write v db).destinations = db.destinations) :
    Walks services ring alias_ call (Script.change name locks write answer) :=
  Register.Walks.change free fun v => .inl fun db =>
    congrArg (fun destinations => Table.get destinations alias_) (h v db)

theorem read_changeDestinations {db db' : Database} {where_ : EmailDestination → Bool}
    {change : DestinationChange}
    (hSame : db'.destinations.get alias_ = db.destinations.get alias_) :
    (db'.changeDestinations ((db.destinations.select where_).map EmailDestination.recipientHash)
      change).destinations.get alias_ =
      (db.destinations.get alias_).map fun d => if where_ d then change.apply d else d := by
  rw [Database.changeDestinations, Table.get_modify, hSame]
  refine Option.map_congr fun d hGet => ?_
  have hIff : alias_ ∈ (db.destinations.select where_).map EmailDestination.recipientHash ↔
    where_ d = true := by
    rw [Table.mem_map_select, hGet]
    simp
  simp only [hIff]

theorem lock_mem_select {db : Database} {where_ : EmailDestination → Bool} :
    Resource.destination alias_ ∈ (db.destinations.select where_).map
      (fun d => Resource.destination d.recipientHash) ↔
      ∃ d, db.destinations.get alias_ = some d ∧ where_ d = true := by
  rw [← Table.mem_map_select, List.mem_map, List.mem_map]
  simp

theorem walks_updateDestinations {name : Statement} {where_ : EmailDestination → Bool}
    {change : DestinationChange} (h : ∀ d, d.recipientHash = alias_ → where_ d = true →
      DestinationStep services ring alias_ call (some d) (some (change.apply d))) :
    Walks services ring alias_ call (updateDestinations name where_ change) := by
  refine Register.Walks.change free fun v => ?_
  by_cases hChosen : ∃ d, v.db.destinations.get alias_ = some d ∧ where_ d = true
  · obtain ⟨d, hGet, hWhere⟩ := hChosen
    have hAfter {db : Database} (hSame : db.destinations.get alias_ =
      v.db.destinations.get alias_) :
        (db.changeDestinations ((v.db.destinations.select where_).map
          EmailDestination.recipientHash) change).destinations.get alias_ =
          some (change.apply d) := by
      rw [read_changeDestinations hSame, hGet, Option.map_some, if_pos hWhere]
    refine .inr ⟨lock_mem_select.mpr ⟨d, hGet, hWhere⟩, ?_, fun db hSame => ?_⟩
    · show DestinationStep services ring alias_ call (Table.get _ alias_) (Table.get _ alias_)
      rw [hAfter rfl, hGet]
      exact h d (Table.key_of_get hGet) hWhere
    · show Table.get _ alias_ = Table.get _ alias_
      rw [hAfter rfl, hAfter hSame]
  · have hNot : alias_ ∉ (v.db.destinations.select where_).map EmailDestination.recipientHash := by
      intro hMem
      exact hChosen (Table.mem_map_select.mp hMem)
    refine .inl fun db => ?_
    show Table.get _ alias_ = Table.get _ alias_
    rw [Database.changeDestinations, Table.get_modify_of_not_mem hNot]

theorem walks_lockRecipientAliases {recipientHashes : List RecipientHash} :
    Walks services ring alias_ call (lockRecipientAliases recipientHashes) :=
  Register.Walks.forEach (fun _ => walks_aside fun _ _ => rfl) _

/-! ## Feedback -/

section Feedback

variable (hFeedback : call.IsFeedback) {applied : AppliedFeedback}
  {recipientHashes : List RecipientHash}
include hFeedback

theorem walks_upsertDestination {row : EmailDestination} {update : Option DestinationChange}
    (hRow : row.status ≠ .recoveryPending)
    (hUpdate : ∀ change, update = some change → ∀ d, Fed d (change.apply d)) :
    Walks services ring alias_ call (AppliedFeedback.upsertDestination row update) := by
  refine Register.Walks.change free fun v => ?_
  by_cases hAlias : row.recipientHash = alias_
  · subst hAlias
    cases hGet : v.db.destinations.get row.recipientHash with
    | none =>
      have hAfter {db : Database} (hSame : db.destinations.get row.recipientHash =
        v.db.destinations.get row.recipientHash) :
          (db.insertDestination row).destinations.get row.recipientHash = some row := by
        rw [hGet] at hSame
        simp [Database.insertDestination, Table.get_insert, hSame]
      refine .inr ⟨List.mem_singleton_self _, ?_, fun db hSame => ?_⟩
      · show DestinationStep services ring row.recipientHash call (Table.get _ _) (Table.get _ _)
        rw [hAfter rfl, hGet]
        exact .created hFeedback rfl hRow
      · exact (hAfter hSame).trans (hAfter rfl).symm
    | some d =>
      cases update with
      | none => exact .inl fun _ => rfl
      | some change =>
        have hAfter {db : Database} (hSame : db.destinations.get row.recipientHash =
          v.db.destinations.get row.recipientHash) :
            (db.changeDestinations [row.recipientHash] change).destinations.get row.recipientHash =
              some (change.apply d) := by
          simp [Database.changeDestinations, Table.get_modify, hSame, hGet]
        refine .inr ⟨List.mem_singleton_self _, ?_, fun db hSame => ?_⟩
        · show DestinationStep services ring row.recipientHash call (Table.get _ _) (Table.get _ _)
          rw [hAfter rfl, hGet]
          exact .fed hFeedback (hUpdate change rfl d)
        · exact (hAfter hSame).trans (hAfter rfl).symm
  · refine .inl fun db => ?_
    show Table.get _ alias_ = Table.get _ alias_
    split
    · cases hOther : db.destinations.get alias_ <;> simp [Database.insertDestination,
        Table.get_insert, hOther, hAlias]
    · rw [Database.changeDestinations, Table.get_modify_of_not_mem fun hMem =>
        hAlias (List.mem_singleton.mp hMem).symm]
    · rfl

theorem walks_follow {name : Statement} {where_ : EmailDestination → Bool}
    {change : DestinationChange} (h : ∀ d, where_ d = true → Fed d (change.apply d)) :
    Walks services ring alias_ call (updateDestinations name where_ change) :=
  walks_updateDestinations fun d _ hWhere => .fed hFeedback (h d hWhere)

omit hFeedback in
theorem walks_findAuthoritative {where_ : EmailDestination → Bool}
    {k : EmailDestination → Script notifications β}
    (hk : ∀ found, where_ found = true → Walks services ring alias_ call (k found)) :
    Walks services ring alias_ call
      ((AppliedFeedback.findAuthoritativeDestination where_).bind k) := by
  intro stage seen
  refine Register.Follows.bind (Register.Follows.bind (Register.Follows.query fun v _ _ => ?_))
  cases hFound : authoritative (v.db.destinations.select where_) with
  | none => trivial
  | some found => exact hk found (Table.mem_select.mp (authoritative_mem hFound)).2 _ _

omit hFeedback in
theorem fed_suppressed {d : EmailDestination} {change : DestinationChange}
    (hStatus : (change.apply d).status = .suppressed) (hId : (change.apply d).id = d.id) :
    Fed d (change.apply d) where
  alias_ := change.key_apply d
  id := hId
  blocked _ := blocked_of_status (.inl hStatus)
  pending hPending := by cases hStatus.symm.trans hPending

theorem walks_suppressDestination {revision : Nat} {a : RecipientHash} :
    Walks services ring alias_ call (applied.suppressDestination revision a) := by
  refine Register.Walks.bind (walks_upsertDestination hFeedback
    (by simp [AppliedFeedback.destination]) fun change hChange d => ?_)
    fun destination => (walks_follow hFeedback fun d _ => fed_suppressed rfl rfl).bind fun _ =>
      (walks_follow hFeedback fun d _ => ⟨rfl, rfl, fun hBlocked => hBlocked,
        fun hPending => hPending⟩).bind fun _ => walks_done
  cases hChange
  exact ⟨rfl, rfl, fun hBlocked => hBlocked, fun hPending => hPending⟩

theorem walks_suppressDestinationAliases :
    Walks services ring alias_ call (applied.suppressDestinationAliases recipientHashes) :=
  Register.Walks.query fun _ =>
    (Register.Walks.forEach (fun _ => walks_suppressDestination hFeedback) _).bind fun _ =>
    walks_findAuthoritative fun _ _ =>
      (walks_follow hFeedback fun _ _ => fed_suppressed rfl rfl).bind fun _ => walks_done

omit hFeedback in
theorem fed_follow {d : EmailDestination} {status : EmailDestinationStatus}
    {data : AuthoritativeData} (hFree : d.blocked = false) (hStatus : status ≠ .recoveryPending) :
    Fed d ((EmailDestination.follow status data).apply d) where
  alias_ := rfl
  id := rfl
  blocked hBlocked := by cases hFree.symm.trans hBlocked
  pending hPending := absurd hPending hStatus

theorem walks_updateNonterminalDestination {status : EmailDestinationStatus} {a : RecipientHash}
    (hStatus : status ≠ .recoveryPending) :
    Walks services ring alias_ call (applied.updateNonterminalDestination status a) := by
  refine Register.Walks.bind (walks_upsertDestination hFeedback hStatus
    fun _ hChange => by cases hChange) fun _ =>
    (walks_follow hFeedback fun d hWhere => fed_follow ?_ hStatus).bind fun _ => walks_done
  simp only [Bool.and_eq_true, Bool.not_eq_true'] at hWhere
  exact hWhere.1.2

theorem walks_convergeNonterminalAliases :
    Walks services ring alias_ call
      (AppliedFeedback.convergeNonterminalAliases recipientHashes) := by
  unfold AppliedFeedback.convergeNonterminalAliases
  split
  · exact walks_done
  · refine walks_findAuthoritative fun found hFound =>
      (walks_follow hFeedback fun d hWhere => fed_follow ?_ fun hStatus => ?_).bind fun _ =>
        walks_done
    · simp only [Bool.and_eq_true, Bool.not_eq_true'] at hWhere
      exact hWhere.1
    · simp [blocked_of_status (.inr hStatus)] at hFound

theorem walks_applyDestinationTransition :
    Walks services ring alias_ call (applied.applyDestinationTransition recipientHashes) := by
  unfold AppliedFeedback.applyDestinationTransition
  split
  · exact walks_lockRecipientAliases.bind fun _ => walks_suppressDestinationAliases hFeedback
  · cases hNext : applied.feedback.event.destinationStatus with
    | none => exact walks_done
    | some nextStatus =>
      have hStatus : nextStatus ≠ .recoveryPending := by
        rintro rfl
        cases hEvent : applied.feedback.event <;> rw [hEvent] at hNext
          <;> simp [SesEvent.destinationStatus] at hNext
      refine walks_lockRecipientAliases.bind fun _ => Register.Walks.query fun v => ?_
      split
      · exact walks_done
      · exact (Register.Walks.forEach
          (fun _ => walks_updateNonterminalDestination hFeedback hStatus) _).bind fun _ =>
          walks_convergeNonterminalAliases hFeedback

theorem walks_transitions : Walks services ring alias_ call (applied.transitions recipientHashes) :=
  (walks_of_writes (only_recordProviderAcceptance allows_neutral).writes).bind fun _ =>
    (walks_of_writes (only_applyDeliveryTransition fun _ _ _ => rfl).writes).bind fun _ =>
      walks_applyDestinationTransition hFeedback

theorem walks_persist {base : Services} {feedback : SesFeedback} {drawn : DrawnFeedback} :
    Walks services ring alias_ call (persist base feedback recipientHashes drawn) := by
  refine (walks_of_writes (only_findDelivery allows_neutral).writes).bind fun delivery =>
    (walks_of_writes (only_attachProviderMessageId allows_neutral).writes).bind fun _ =>
      Register.Walks.bind Register.Walks.check fun _ => ?_
  refine Register.Walks.query fun v => ?_
  cases v.db.eventOf feedback.snsMessageId
    (createSesFeedbackFingerprint base feedback delivery.recipientHash.value) with
  | some event => exact Register.Walks.bind Register.Walks.check fun _ => walks_done
  | none =>
    exact (walks_of_writes (only_createEvent allows_neutral fun _ _ => rfl).writes).bind fun _ =>
      (walks_transitions hFeedback).bind fun _ => walks_done

theorem walks_processFeedback {base : Services} {feedback : SesFeedback} {drawn : DrawnFeedback} :
    Walks services ring alias_ call (processFeedback base ring feedback drawn) := by
  refine Register.Walks.transaction free ((walks_persist hFeedback).bind fun _ => walks_done)
    fun error => ?_
  split
  · exact Register.Walks.transaction free
      ((walks_of_writes (only_isCommittedDuplicate allows_neutral).writes).bind fun _ =>
      Register.Walks.bind Register.Walks.check fun _ => walks_done) fun _ => walks_done
  · exact walks_done

end Feedback

/-! ## Recovery -/

theorem le_maximumRevision {revisions : List Nat} {n : Nat} (h : n ∈ revisions) :
    n ≤ maximumRevision revisions :=
  (foldl_max_le.mp le_rfl).2 n h

theorem walks_applyRecovery {c : RecoveryCommand} {destinations : List EmailDestination}
    (hCommand : call.command = some c)
    (hValid : validateRecoveryEvidence services c.evidence c.change.action = .ok ())
    (hAliases : ∀ d ∈ destinations,
      d.recipientHash ∈ services.createLookupHashes ring c.recipient) :
    Walks services ring alias_ call (applyRecovery c.change c.evidence destinations) := by
  refine Register.Walks.checked fun hExpected =>
    (walks_updateDestinations fun d hAlias hUnchanged => ?_).bind fun _ =>
    Register.Walks.bind Register.Walks.check fun _ => walks_aside fun _ _ => rfl
  obtain ⟨found, hFound, hSame⟩ := List.any_eq_true.mp hUnchanged
  simp only [Bool.and_eq_true, decide_eq_true_eq, EmailDestination.is] at hSame
  obtain ⟨⟨⟨hKey, _⟩, hStatus⟩, hRevision⟩ := hSame
  simp only [isExpectedState, Bool.and_eq_true, decide_eq_true_eq] at hExpected
  refine .recovered hCommand ⟨?_, hValid, hStatus, ?_⟩
  · rw [← hAlias, hKey]
    exact hAliases found hFound
  · rw [← hExpected.2, hRevision]
    exact_mod_cast le_maximumRevision (List.mem_map_of_mem hFound)

theorem walks_transition {c : RecoveryCommand} (hCommand : call.command = some c) :
    Walks services ring alias_ call (transition services ring c.recipient c.change c.evidence) := by
  unfold transition
  cases hValid : validateRecoveryEvidence services c.evidence c.change.action with
  | error message => exact walks_done
  | ok _ =>
    refine Register.Walks.transaction free
      (Register.Walks.bind ((walks_aside fun _ _ => rfl).bind fun _ =>
      Register.Walks.query fun v => Register.Walks.bind Register.Walks.check
        fun _ => Register.Walks.query fun v' => ?_) fun _ => walks_done)
      fun _ => walks_done
    split
    · exact Register.Walks.check
    · refine walks_applyRecovery hCommand hValid fun d hd => ?_
      exact of_decide_eq_true (Table.mem_select.mp hd).2

/-! ## Retention -/

theorem walks_deleteDestinations {name : Statement} {where_ : Database → EmailDestination → Bool}
    (hCall : call = .cleanupExpiredHistory)
    (hOld : ∀ db d, where_ db d = true → d.recipientHash.keyVersion ≠ ring.activeKey.version) :
    Walks services ring alias_ call (deleteDestinations name where_) := by
  refine Register.Walks.change free fun v => ?_
  have hRead (db : Database) : (db.deleteDestinations fun d => d.recipientHash ∈
      (v.db.destinations.select (where_ v.db)).map EmailDestination.recipientHash).destinations.get
        alias_ =
        (db.destinations.get alias_).filter fun _ =>
          !decide (alias_ ∈ (v.db.destinations.select (where_ v.db)).map
            EmailDestination.recipientHash) := by
    rw [Database.deleteDestinations, Table.get_delete]
    cases hGet : db.destinations.get alias_ with
    | none => rfl
    | some d => simp [Option.filter, Table.key_of_get hGet]
  by_cases hChosen : ∃ d, v.db.destinations.get alias_ = some d ∧ where_ v.db d = true
  · obtain ⟨d, hGet, hWhere⟩ := hChosen
    have hNone (db : Database) : (db.deleteDestinations fun d => d.recipientHash ∈
        (v.db.destinations.select (where_ v.db)).map
          EmailDestination.recipientHash).destinations.get alias_ = none := by
      rw [hRead, decide_eq_true (Table.mem_map_select.mpr ⟨d, hGet, hWhere⟩)]
      cases db.destinations.get alias_ <;> simp
    refine .inr ⟨lock_mem_select.mpr ⟨d, hGet, hWhere⟩, ?_,
      fun db _ => (hNone db).trans (hNone v.db).symm⟩
    show DestinationStep services ring alias_ call (Table.get _ alias_) (Table.get _ alias_)
    rw [hNone, hGet]
    exact .retired hCall (Table.key_of_get hGet ▸ hOld v.db d hWhere)
  · refine .inl fun db => ?_
    show Table.get _ alias_ = Table.get _ alias_
    rw [hRead, decide_eq_false fun hMem => hChosen (Table.mem_map_select.mp hMem)]
    cases db.destinations.get alias_ <;> simp

theorem walks_deleteHistory {cutoff : Nat} :
    Walks services ring alias_ call (deleteHistory cutoff) := by
  refine Register.Walks.bind ?_ fun _ => Register.Walks.bind ?_ fun _ => ?_
  · exact walks_aside fun _ _ => rfl
  · exact walks_aside fun _ _ => rfl
  · exact walks_aside fun _ _ => rfl

theorem walks_cleanupExpiredHistory (hCall : call = .cleanupExpiredHistory) :
    Walks services ring alias_ call (cleanupExpiredHistory services ring) := by
  refine Register.Walks.bind Register.Walks.readClock fun time =>
    Register.Walks.transaction free ((walks_aside fun _ _ => rfl).bind fun acquired => ?_)
    fun _ => walks_done
  split
  · exact walks_done
  · refine Register.Walks.bind walks_deleteHistory fun _ =>
      (walks_deleteDestinations hCall fun db d hWhere => ?_).bind fun _ =>
      (walks_deleteDestinations hCall fun db d hWhere => ?_).bind fun _ => walks_done
    · simp only [Database.isRetired, Bool.and_eq_true, decide_eq_true_eq] at hWhere
      exact hWhere.1.1
    · simp only [Database.isRetiredBlocking, Bool.and_eq_true, decide_eq_true_eq] at hWhere
      exact hWhere.1.1.1.1

/-! ## The service -/

theorem walks_sendSecurityEmail {request : SendSecurityEmailRequest} {deadlineAt : Option Nat}
    {drawn : String} {polls : Nat} :
    Walks services ring alias_ call
      (sendSecurityEmail services ring request deadlineAt drawn polls) :=
  walks_of_writes (writes_sendSecurityEmail allows_neutral (fun _ _ _ => rfl)
    (fun _ _ => rfl) fun _ => trivial)

theorem destinations_followed :
    (destinationRegister services ring alias_).FollowedBy (keyed services ring) := by
  refine Register.FollowedBy.of_walks fun call s ext script hProgram => ?_
  cases call with
  | deploy ring => cases hProgram
  | send request deadlineAt drawn polls =>
    cases hProgram
    exact walks_sendSecurityEmail.bind fun _ => walks_done
  | processFeedback feedback drawn =>
    cases hProgram
    exact (walks_processFeedback ⟨feedback, drawn, rfl⟩).bind fun _ => walks_done
  | expireStaleClaims =>
    cases hProgram
    exact (walks_of_writes (only_expireStaleClaims allows_neutral).writes).bind fun _ => walks_done
  | requestRecovery recipient evidence =>
    cases hProgram
    exact (walks_transition (c := ⟨recipient, _, evidence⟩) rfl).bind fun _ => walks_done
  | completeRecovery recipient evidence =>
    cases hProgram
    exact (walks_transition (c := ⟨recipient, _, evidence⟩) rfl).bind fun _ => walks_done
  | failRecovery recipient evidence =>
    cases hProgram
    exact (walks_transition (c := ⟨recipient, _, evidence⟩) rfl).bind fun _ => walks_done
  | cleanupExpiredHistory =>
    cases hProgram
    exact (walks_cleanupExpiredHistory rfl).bind fun _ => walks_done

theorem destinations_start :
    (destinationRegister services ring alias_).Starts emptyDatabase := trivial

end Pixaeron.Notifications.Destinations
