import Pixaeron.Transactions.Watches
import Pixaeron.Notifications.Verified.Destinations

/-! # Verified: commands look at the alias under its lock

Feedback changes the row of an alias only while it holds the lock of the alias, and a command makes
a delivery pending only after it has seen under that lock that the alias is not blocked. -/

namespace Pixaeron.Notifications.Destinations

open Transactions Transactions.Script

/-- The delivery of the request is for the alias, and has been or may be attempted. -/
def Attemptable (k : String) (alias_ : RecipientHash) (db : Database) : Prop :=
  ∃ d, db.deliveries.get k = some d ∧ d.recipientHash = alias_ ∧
    (d.status = .pending ∨ d.attemptCount ≠ 0)

def blockWatch (k : String) (alias_ : RecipientHash) :
    Watch notifications Call (Option EmailDestination) where
  read db := db.destinations.get alias_
  lock := .recipientAlias alias_
  Open r := ∀ d, r = some d → d.blocked = false
  Legal _ db db' := Attemptable k alias_ db' → Attemptable k alias_ db ∨ ∀ d,
    db.destinations.get alias_ = some d → d.blocked = false
  Trusted call := ¬ call.IsFeedback

variable {services : EmailServices} {ring : KeyRing} {k : String} {alias_ : RecipientHash}
  {call : Call} {α β : Type}
  {phase : Phase notifications} {locked : Bool} {change : Database → Database} {seen : Prop}

abbrev Careful (k : String) (alias_ : RecipientHash) (call : Call)
    (Q : Phase notifications → α → Prop) (p : Script notifications α)
    (phase : Phase notifications) : Prop := (blockWatch k alias_).Careful call Q p phase

/-- The change makes nothing attemptable. -/
def Calm (k : String) (alias_ : RecipientHash) (write : Database → Database) : Prop :=
  ∀ db, Attemptable k alias_ (write db) → Attemptable k alias_ db

/-- The change leaves the alias alone, too. -/
def Safe (k : String) (alias_ : RecipientHash) (write : Database → Database) : Prop :=
  (blockWatch k alias_).Neutral write ∧ Calm k alias_ write

theorem rests : (blockWatch k alias_).Rests := fun _ _ hFlag => .inl hFlag

theorem Calm.comp {f g : Database → Database} (hf : Calm k alias_ f)
    (hg : Calm k alias_ g) : Calm k alias_ (f ∘ g) :=
  fun db hFlag => hg db (hf (g db) hFlag)

theorem calm_id : Calm k alias_ id := fun _ hFlag => hFlag

theorem admits_calm (h : ¬ call.IsFeedback) :
    (blockWatch k alias_).Admits call (Calm k alias_) where
  same := calm_id
  comp _ _ hf hg := hf.comp hg
  legal _ hCalm db hFlag := .inl (hCalm db hFlag)
  spares _ _ hNot := absurd h hNot

theorem safe_id : Safe k alias_ id := ⟨fun _ => rfl, calm_id⟩

theorem admits_safe : (blockWatch k alias_).Admits call (Safe k alias_) where
  same := safe_id
  comp _ g hf hg := ⟨fun db => (hf.1 (g db)).trans (hg.1 db), hf.2.comp hg.2⟩
  legal _ hSafe db hFlag := .inl (hSafe.2 db hFlag)
  spares _ hSafe _ db hOpen := (hSafe.1 db).symm ▸ hOpen

theorem calm_of_row {write : Database → Database}
    (h : ∀ db, (write db).deliveries.get k = db.deliveries.get k) :
    Calm k alias_ write := by
  rintro db ⟨d, hRow, hFlag⟩
  exact ⟨d, (h db).symm.trans hRow, hFlag⟩

theorem safe_changeDeliveries {requestIds : List String} {change : DeliveryChange}
    (hPending : ∀ d, (change.apply d).status = .pending → d.status = .pending)
    (hRecipient : ∀ d, (change.apply d).recipientHash = d.recipientHash)
    (hAttempts : ∀ d, (change.apply d).attemptCount = d.attemptCount) :
    Safe k alias_ fun db => db.changeDeliveries requestIds change := by
  refine ⟨fun _ => rfl, ?_⟩
  rintro db ⟨d', hRow, hAlias, hFlag⟩
  have hGet : (db.changeDeliveries requestIds change).deliveries.get k =
      (db.deliveries.get k).map fun d => if k ∈ requestIds then change.apply d else d := by
    rw [Database.changeDeliveries, Table.get_modify]
  obtain ⟨d, hBefore, hAfter⟩ := Option.map_eq_some_iff.mp (hGet.symm.trans hRow)
  refine ⟨d, hBefore, ?_⟩
  split at hAfter
  · subst hAfter
    exact ⟨(hRecipient d).symm.trans hAlias, hFlag.imp (hPending d) fun hCount =>
      (hAttempts d) ▸ hCount⟩
  · subst hAfter
    exact ⟨hAlias, hFlag⟩

theorem allows_safe : AllowsDeliveries (Safe k alias_) where
  other _ h := ⟨fun db => congrArg (fun destinations => Table.get destinations alias_) (h db).2.1,
    calm_of_row fun db => congrArg (fun deliveries => Table.get deliveries k) (h db).1⟩
  modest _ _ hModest := safe_changeDeliveries hModest.pending hModest.recipient hModest.attempts

/-! ## Locks -/

theorem careful_lockAliases {hashes : List RecipientHash} {Q : Phase notifications → Unit → Prop}
    (hQ : ∀ seen', Q (.inside (locked || decide (alias_ ∈ hashes)) change seen') ()) :
    Careful k alias_ call Q (forEach lockAlias hashes) (.inside locked change seen) := by
  induction hashes generalizing locked seen with
  | nil =>
    have hNone : (locked || decide (alias_ ∈ ([] : List RecipientHash))) = locked := by simp
    exact hNone ▸ hQ seen
  | cons a rest ih =>
    refine Watch.Careful.bind fun v => ih fun seen' => ?_
    have hBoth : (locked || decide ((blockWatch k alias_).lock ∈ [Resource.recipientAlias a]) ||
      decide (alias_ ∈ rest)) =
        (locked || decide (alias_ ∈ a :: rest)) := by
      rw [Bool.or_assoc, ← Bool.decide_or]
      simp [blockWatch]
    rw [hBoth]
    exact hQ seen'

theorem careful_lockRecipientAliases {hashes : List RecipientHash}
    {Q : Phase notifications → Unit → Prop}
    (hQ : ∀ seen', Q (.inside (locked || decide (alias_ ∈ hashes)) change seen') ()) :
    Careful k alias_ call Q (lockRecipientAliases hashes) (.inside locked change seen) := by
  refine careful_lockAliases fun seen' => ?_
  rw [show decide (alias_ ∈ hashes.insertionSort aliasBefore) = decide (alias_ ∈ hashes) by simp]
  exact hQ seen'

/-! ## Commands -/

section Sends

variable {request : SendSecurityEmailRequest} {delivery : EmailDelivery} {drawn : String}

/-- A row about another alias, or one that has been suppressed at once, is not attempted. -/
theorem calm_insertDelivery {row : EmailDelivery}
    (h : row.recipientHash = alias_ → row.status ≠ .pending ∧ row.attemptCount = 0) :
    Calm k alias_ fun db => db.insertDelivery row := by
  rintro db ⟨d, hRow, hAlias, hAttempt⟩
  have hGet : (db.deliveries.get k).or (if row.requestId = k then some row else none) = some d :=
    Table.get_insert.symm.trans hRow
  rcases Option.or_eq_some_iff.mp hGet with hBefore | ⟨_, hNew⟩
  · exact ⟨d, hBefore, hAlias, hAttempt⟩
  · split at hNew
    · cases hNew
      obtain ⟨hStatus, hCount⟩ := h hAlias
      exact absurd hAttempt (not_or.mpr ⟨hStatus, not_not.mpr hCount⟩)
    · cases hNew

/-- The creation of a delivery in a transaction that has changed nothing yet. -/
theorem careful_createDelivery (hSend : ¬ call.IsFeedback) {recipientHash : RecipientHash}
    {blocked : Bool} {now : Nat}
    (hKnown : recipientHash = alias_ → blocked = false → locked = true ∧ seen) :
    Careful k alias_ call (fun phase _ => (blockWatch k alias_).MayCommit call phase)
      (createDelivery services request recipientHash blocked drawn now)
        (.inside locked id seen) := by
  refine Watch.Careful.bind fun v =>
    Watch.Careful.bind (Watch.Careful.check fun hStored => ⟨fun db hOpen hFlag => ?_,
    fun _ hNot => absurd hSend hNot⟩)
  have hNew : ¬ v.db.refusesDelivery request.requestId drawn := of_decide_eq_false hStored
  by_cases hMine : recipientHash = alias_ ∧ blocked = false
  · obtain ⟨hLocked, hSeen⟩ := hKnown hMine.1 hMine.2
    exact .inr (hOpen ⟨by simp [hLocked], .inl hSeen⟩)
  · have hCalm : Calm k alias_ fun db =>
      db.insertDelivery (newDelivery services request recipientHash blocked drawn now v.now) := by
      refine calm_insertDelivery fun hAlias => ?_
      have hBlocked : blocked = true := Bool.eq_true_of_not_eq_false fun hNot =>
        hMine ⟨hAlias, hNot⟩
      subst hBlocked
      exact ⟨by simp [newDelivery], rfl⟩
    exact .inl (hCalm db (by simpa only [hNew, if_false, Function.comp_id] using hFlag))

theorem open_of_aliases {v : View notifications} {lookupHashes : List RecipientHash}
    (hMem : alias_ ∈ lookupHashes)
    (h : (v.db.aliases lookupHashes).any EmailDestination.blocked = false) :
    (blockWatch k alias_).Open ((blockWatch k alias_).read v.db) := by
  intro d hGet
  have hRow : d ∈ v.db.aliases lookupHashes := by
    rw [Database.aliases, Table.mem_select]
    exact ⟨Table.mem_of_get hGet, decide_eq_true (Table.key_of_get hGet ▸ hMem)⟩
  exact Bool.eq_false_of_not_eq_true (List.any_eq_false.mp h d hRow)

theorem careful_claimDelivery (hSend : ¬ call.IsFeedback) {recipientHash : RecipientHash}
    {lookupHashes : List RecipientHash} (hMem : recipientHash ∈ lookupHashes) :
    Careful k alias_ call (fun phase _ => phase = .outside)
      (claimDelivery services request recipientHash lookupHashes drawn)
      .outside := by
  refine Watch.Careful.transaction (fun error => ?_)
    (Watch.Careful.bind (Watch.Careful.bind (Watch.Careful.query fun v => ?_)))
  · split
    · rfl
    · refine Watch.Careful.bind (Watch.Careful.query_outside rests fun v => ?_)
      cases v.db.deliveries.get request.requestId with
      | none => rfl
      | some delivery =>
        dsimp only
        split <;> rfl
  · cases v.db.deliveries.get request.requestId with
    | some delivery =>
      exact Watch.Careful.bind (Watch.Careful.check fun _ =>
        ⟨(admits_calm hSend).commits calm_id, rfl⟩)
    | none =>
      refine Watch.Careful.bind (careful_lockRecipientAliases fun seen' =>
        Watch.Careful.bind (Watch.Careful.query fun v' =>
        Watch.Careful.bind (Watch.Careful.readClock fun now => Watch.Careful.bind
          ((careful_createDelivery hSend fun hAlias hOpen => ?_).mono fun _ _ hEnd =>
            ⟨hEnd, rfl⟩))))
      subst hAlias
      have hLocked : (false || decide (recipientHash ∈ lookupHashes)) = true := by simp [hMem]
      exact ⟨hLocked, hLocked, .inr ⟨fun _ => rfl, open_of_aliases hMem hOpen⟩⟩

theorem mem_createLookupHashes {base : Services} {recipient : String} :
    base.create ring recipient ∈ base.createLookupHashes ring recipient :=
  List.mem_map_of_mem List.mem_cons_self

theorem careful_attempt (hSend : ¬ call.IsFeedback) :
    Careful k alias_ call (fun phase _ => phase = .outside)
      (updateDeliveries .attempt (fun d => delivery.is d && d.status = .pending && d.attemptCount =
      0) EmailDelivery.setAttempted) .outside := by
  refine fun v => ⟨?_, fun hNot => absurd hSend hNot, rfl⟩
  rintro ⟨d', hRow, hAlias, hAttempt⟩
  have hGet : (v.db.deliveries.get k).map (fun d =>
    if (delivery.is d && d.status = .pending && d.attemptCount = 0) = true then
      EmailDelivery.setAttempted.apply d else d) = some d' :=
    (Table.get_modify_select EmailDelivery.setAttempted.key_apply).symm.trans hRow
  obtain ⟨d, hBefore, hAfter⟩ := Option.map_eq_some_iff.mp hGet
  refine .inl ⟨d, hBefore, ?_⟩
  split at hAfter
  next hChosen =>
    subst hAfter
    simp only [Bool.and_eq_true, decide_eq_true_eq] at hChosen
    exact ⟨hAlias, .inl hChosen.1.2⟩
  next =>
    subst hAfter
    exact ⟨hAlias, hAttempt⟩

theorem careful_submit (hSend : ¬ call.IsFeedback) {recipient : String} :
    Careful k alias_ call (fun _ _ => True) (submit delivery request recipient) .outside := by
  refine Watch.Careful.bind ((careful_attempt hSend).mono fun phase attempted hOutside => ?_)
  refine Watch.Careful.of_writes (M := fun _ => True) admits_safe ?_ (.inl hOutside)
  split
  · refine (only_findByIdOrThrow allows_safe).writes.bind fun found => ?_
    cases found <;> trivial
  · refine Writes.bind ?_ fun submission =>
      (writes_finalizeResult allows_safe).bind fun _ => trivial
    unfold createSubmission
    split
    · exact ⟨trivial, fun _ => trivial⟩
    · trivial

theorem careful_sendSecurityEmail (hSend : ¬ call.IsFeedback) {deadlineAt : Option Nat}
    {polls : Nat} :
    Careful k alias_ call (fun _ _ => True)
      (sendSecurityEmail services ring request deadlineAt drawn polls) .outside := by
  refine Watch.Careful.bind ((careful_claimDelivery hSend mem_createLookupHashes).mono ?_)
  rintro phase claim rfl
  cases claim with
  | error error => trivial
  | ok claim =>
    dsimp only
    split
    · trivial
    · split
      · exact Watch.Careful.of_writes (M := fun _ => True) admits_safe
          (only_waitForCallerResult allows_safe).writes (.inl rfl)
      · exact careful_submit hSend

end Sends

/-! ## Feedback -/

section Feedback

variable {applied : AppliedFeedback} {recipientHashes : List RecipientHash}

theorem calm_of_within {write : Database → Database}
    (h : Within recipientHashes write) : Calm k alias_ write :=
  calm_of_row fun db => congrArg (fun deliveries => Table.get deliveries k) (h.deliveries db)

theorem careful_within (hInside : Watch.Inside (Safe k alias_) phase)
    {p : Script notifications Unit} (h : p.Only (Within recipientHashes)) :
    Careful k alias_ call (fun phase _ => (blockWatch k alias_).MayCommit call phase)
      ((lockRecipientAliases recipientHashes).bind fun _ => p) phase := by
  cases phase with
  | outside => exact hInside.elim
  | inside locked change seen =>
    refine Watch.Careful.bind (careful_lockRecipientAliases fun seen' =>
      Watch.Careful.of_only within_id (fun _ _ hf hg => hf.comp hg) h
      fun taken added _ _ hAdded _ =>
        ⟨fun db _ hFlag => .inl (((calm_of_within hAdded).comp hInside.2) db hFlag),
        fun hFree _ db hOpen => ?_⟩)
    have hOther : alias_ ∉ recipientHashes := fun hMem => by simp [hMem] at hFree
    have hRead : (blockWatch k alias_).read (added (change db)) = (blockWatch k alias_).read db :=
      (hAdded.aliases (change db) alias_ hOther).trans (hInside.1 db)
    exact hRead.symm ▸ hOpen

theorem careful_applyDestinationTransition (hInside : Watch.Inside (Safe k alias_) phase) :
    Careful k alias_ call (fun phase _ => (blockWatch k alias_).MayCommit call phase)
      (applied.applyDestinationTransition recipientHashes) phase := by
  unfold AppliedFeedback.applyDestinationTransition
  split
  · exact careful_within hInside within_suppressDestinationAliases
  · split
    · exact admits_safe.mayCommit hInside
    · refine careful_within hInside ((Only.query within_id).bind fun blocked => ?_)
      split
      · trivial
      · exact (Only.forEach fun _ hMem => within_updateNonterminalDestination hMem).bind fun _ =>
          within_convergeNonterminalAliases

theorem careful_transitions (hInside : Watch.Inside (Safe k alias_) phase) :
    Careful k alias_ call (fun phase _ => (blockWatch k alias_).MayCommit call phase)
      (applied.transitions recipientHashes) phase :=
  Watch.Careful.bind ((Watch.Careful.stays admits_safe
    (only_recordProviderAcceptance allows_safe) hInside).mono fun _ _ hAccepted =>
    Watch.Careful.bind ((Watch.Careful.stays admits_safe (only_applyDeliveryTransition fun _ _ =>
      safe_changeDeliveries
      (fun _ hPending => absurd hPending (Deliveries.deliveryStatus_touched _).1)
        (fun _ => rfl) fun _ => rfl) hAccepted).mono
      fun _ _ hApplied => careful_applyDestinationTransition hApplied))

theorem careful_persist {base : Services} {feedback : SesFeedback} {drawn : DrawnFeedback} :
    Careful k alias_ call (fun phase _ => (blockWatch k alias_).MayCommit call phase)
      (persist base feedback recipientHashes drawn) (.inside false id False) := by
  refine Watch.Careful.bind
    ((Watch.Careful.stays admits_safe (only_findDelivery allows_safe)
    (Watch.inside_id safe_id)).mono fun _ delivery hFound =>
    Watch.Careful.bind ((Watch.Careful.stays admits_safe
      (only_attachProviderMessageId allows_safe) hFound).mono fun _ _ hAttached =>
      Watch.Careful.bind (Watch.Careful.check fun _ => Watch.Careful.bind
        ((Watch.Careful.stays admits_safe (only_query allows_safe) hAttached).mono
          fun _ duplicate hRead => ?_))))
  cases duplicate with
  | some event =>
    exact Watch.Careful.bind (Watch.Careful.check fun _ => admits_safe.mayCommit hRead)
  | none =>
    exact Watch.Careful.bind
      ((Watch.Careful.stays admits_safe (only_createEvent allows_safe fun _ => ⟨fun _ => rfl,
      calm_of_row fun _ => rfl⟩)
      hRead).mono fun _ _ hStored =>
        Watch.Careful.bind ((careful_transitions hStored).mono fun _ _ hEnd => hEnd))

theorem careful_processFeedback {base : Services} {feedback : SesFeedback} {drawn : DrawnFeedback} :
    Careful k alias_ call (fun _ _ => True) (processFeedback base ring feedback drawn)
      .outside := by
  refine Watch.Careful.transaction (fun error => ?_)
    (Watch.Careful.bind (careful_persist.mono fun _ _ hEnd => ⟨hEnd, trivial⟩))
  split
  · refine Watch.Careful.transaction (fun _ => trivial)
      (Watch.Careful.bind ((Watch.Careful.stays admits_safe
      (only_isCommittedDuplicate allows_safe) (Watch.inside_id safe_id)).mono fun _ _ hRead =>
        Watch.Careful.bind (Watch.Careful.check fun _ =>
          ⟨admits_safe.mayCommit hRead, trivial⟩)))
  · trivial

end Feedback

/-! ## Recovery and retention -/

theorem calm_aside (write : Database → Database)
    (h : ∀ db, (write db).deliveries = db.deliveries ∧ (write db).events = db.events) :
    Calm k alias_ write :=
  calm_of_row fun db => congrArg (fun deliveries => Table.get deliveries k) (h db).1

theorem calm_deleteDeliveries {p : EmailDelivery → Bool} :
    Calm k alias_ fun db => db.deleteDeliveries p := by
  rintro db ⟨d, hRow, hFlag⟩
  have hGet : (db.deliveries.get k).filter (fun r => !p r) = some d :=
    Table.get_delete.symm.trans hRow
  exact ⟨d, (Option.filter_eq_some_iff.mp hGet).1, hFlag⟩

/-! ## The service -/

theorem blocking_kept : (blockWatch k alias_).KeptBy (keyed services ring) := by
  intro call s ext script hProgram
  have hOutcome {β : Type} {p : Script notifications β} {outcome : β → Outcome}
      (h : Careful k alias_ call (fun _ _ => True) p .outside) :
      Careful k alias_ call (fun _ _ => True) (p.bind fun b => .done (outcome b)) .outside :=
    Watch.Careful.bind (h.mono fun _ _ _ => trivial)
  have hCalm {β : Type} {p : Script notifications β} {outcome : β → Outcome}
    (hCall : ¬ call.IsFeedback)
      (h : p.Writes (Calm k alias_) fun _ => True) :
      Careful k alias_ call (fun _ _ => True) (p.bind fun b => .done (outcome b)) .outside :=
    hOutcome (Watch.Careful.of_writes (admits_calm hCall) h (.inl rfl))
  cases call with
  | deploy ring => cases hProgram
  | send request deadlineAt drawn polls =>
    cases hProgram
    exact hOutcome (careful_sendSecurityEmail (by simp [Call.IsFeedback]))
  | processFeedback feedback drawn =>
    cases hProgram
    exact hOutcome careful_processFeedback
  | expireStaleClaims =>
    cases hProgram
    exact hOutcome (Watch.Careful.of_writes (M := fun _ => True) admits_safe
      (only_expireStaleClaims allows_safe).writes (.inl rfl))
  | requestRecovery recipient evidence =>
    cases hProgram
    exact hCalm (by simp [Call.IsFeedback]) (writes_transition calm_aside)
  | completeRecovery recipient evidence =>
    cases hProgram
    exact hCalm (by simp [Call.IsFeedback]) (writes_transition calm_aside)
  | failRecovery recipient evidence =>
    cases hProgram
    exact hCalm (by simp [Call.IsFeedback]) (writes_transition calm_aside)
  | cleanupExpiredHistory =>
    cases hProgram
    exact hCalm (by simp [Call.IsFeedback])
      (writes_cleanupExpiredHistory calm_aside (fun _ => calm_of_row fun _ => rfl)
        fun _ => calm_deleteDeliveries)

end Pixaeron.Notifications.Destinations
