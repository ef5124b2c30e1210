import Pixaeron.Notifications.FeedbackEffects

/-! # Mailboxes

A recipient is known under one hash for every key. An event treats all of its alias rows alike, so
where they agreed before they agree afterwards, and together they are one mailbox.
-/

namespace Pixaeron.Notifications

open Transactions Transactions.Script

variable {now : Nat} {db db' : Database} {applied : AppliedFeedback} {hashes : List RecipientHash}
  {k : RecipientHash}

/-! ## The row to follow -/

theorem authoritative_mem {rows : List EmailDestination} {d : EmailDestination}
    (h : authoritative rows = some d) : d ∈ rows := by
  induction rows generalizing d with
  | nil => cases h
  | cons a rest ih =>
    unfold authoritative at h
    split at h
    · cases h
      exact List.mem_cons_self
    · next hRest =>
      split at h
      · cases h
        exact List.mem_cons_of_mem _ (ih hRest)
      · cases h
        exact List.mem_cons_self

theorem authoritative_isSome {rows : List EmailDestination} {d : EmailDestination} (h : d ∈ rows) :
    ∃ d', authoritative rows = some d' := by
  cases rows with
  | nil => cases h
  | cons a rest =>
    unfold authoritative
    split
    · exact ⟨_, rfl⟩
    · split
      · exact ⟨_, rfl⟩
      · exact ⟨_, rfl⟩

/-! ## Loops over the aliases -/

theorem get_foldl {f : Database → RecipientHash → Database}
    (row : RecipientHash → Option EmailDestination → EmailDestination)
    (h : ∀ db a k, (f db a).destinations.get k = if k = a then some (row a (db.destinations.get a))
      else db.destinations.get k) (hNodup : hashes.Nodup) :
    (hashes.foldl f db).destinations.get k =
      if k ∈ hashes then some (row k (db.destinations.get k)) else db.destinations.get k := by
  induction hashes generalizing db with
  | nil => simp
  | cons a rest ih =>
    obtain ⟨hNot, hRest⟩ := List.nodup_cons.mp hNodup
    rw [List.foldl_cons, ih hRest, h]
    by_cases hEq : k = a
    · subst hEq
      simp [hNot]
    · simp [hEq]

namespace AppliedFeedback

/-- The loop of `suppressDestinationAliases`. -/
def suppressEach (applied : AppliedFeedback) (hashes : List RecipientHash) (revision : Nat)
    (db : Database) : Database :=
  hashes.foldl (applied.afterSuppress revision) db

theorem get_suppressEach {revision : Nat} (hNodup : hashes.Nodup) :
    (applied.suppressEach hashes revision db).destinations.get k =
      if k ∈ hashes then
        some (applied.sinceRow (applied.suppressedRow
          (applied.suppressUpserted revision k (db.destinations.get k))))
      else db.destinations.get k :=
  get_foldl (fun a found =>
    applied.sinceRow (applied.suppressedRow (applied.suppressUpserted revision a found)))
    (fun _ _ _ => get_afterSuppress) hNodup

/-- The loop over `updateNonterminalDestination`. -/
def updateEach (applied : AppliedFeedback) (hashes : List RecipientHash)
    (status : EmailDestinationStatus) (db : Database) :
    Database :=
  hashes.foldl (applied.afterNonterminal status) db

theorem get_updateEach {status : EmailDestinationStatus} (hNodup : hashes.Nodup) :
    (applied.updateEach hashes status db).destinations.get k =
      if k ∈ hashes then some (applied.nonterminalRow status (applied.nonterminalReason status)
        (applied.nonterminalUpserted status (applied.nonterminalReason status) k
          (db.destinations.get k)))
      else db.destinations.get k :=
  get_foldl (fun a found => applied.nonterminalRow status (applied.nonterminalReason status)
    (applied.nonterminalUpserted status (applied.nonterminalReason status) a found))
    (fun _ _ _ => get_afterNonterminal) hNodup

/-! ## The rows after an event -/

/-- The rows after `suppressDestinationAliases`. -/
def afterSuppression (applied : AppliedFeedback) (hashes : List RecipientHash)
    (db : Database) : Database :=
  let (revision, previousSuppressedAt) := mailboxState (db.aliases hashes)
  let db₁ := applied.suppressEach hashes (revision + 1) db
  match authoritative (db₁.destinations.select fun d => d.recipientHash ∈ hashes) with
  | none => db₁
  | some found => db₁.updateDestinations (fun d => d.recipientHash ∈ hashes)
    (EmailDestination.suppressAs found.authoritativeData
      (earliestSuppressedAt applied.feedback.providerTimestamp previousSuppressedAt) (revision + 1))

/-- The rows after a nonterminal event for a mailbox that is not blocked. -/
def afterUpdate (applied : AppliedFeedback) (hashes : List RecipientHash)
    (status : EmailDestinationStatus) (db : Database) :
    Database :=
  let db₁ := applied.updateEach hashes status db
  if hashes.length < 2 then db₁ else
    match authoritative (db₁.destinations.select fun d =>
      !d.blocked && d.recipientHash ∈ hashes) with
    | none => db₁
    | some found => db₁.updateDestinations (fun d => !d.blocked && d.recipientHash ∈ hashes)
      (EmailDestination.follow found.status found.authoritativeData)

/-- The rows after `applyDestinationTransition`. -/
def afterDestination (applied : AppliedFeedback) (hashes : List RecipientHash)
    (db : Database) : Database :=
  if applied.feedback.event.isTerminalMailboxEvent then applied.afterSuppression hashes db
  else
    match applied.feedback.event.destinationStatus with
    | none => db
    | some status =>
      if (db.aliases hashes).any EmailDestination.blocked then db
        else applied.afterUpdate hashes status db

theorem runs_findAuthoritativeDestination {where_ : EmailDestination → Bool}
    {found : EmailDestination} (h : authoritative (db.destinations.select where_) = some found) :
    Runs now (findAuthoritativeDestination where_) db found db := by
  refine Runs.bind Runs.query ?_
  show Runs now (match authoritative (db.destinations.select where_) with
    | none => (fail Failure.recordNotFound : Script notifications EmailDestination)
    | some destination => pure destination) db found db
  rw [h]
  exact Runs.done

theorem blocked_of_status {d : EmailDestination} :
    d.blocked = true ↔ d.status = .suppressed ∨ d.status = .recoveryPending := by
  simp [EmailDestination.blocked, blockedDestinationStatuses]

theorem destinationStatus_unblocked {event : SesEvent} {status : EmailDestinationStatus}
    (h : event.destinationStatus = some status) : status ∉ blockedDestinationStatuses := by
  cases event <;> simp [SesEvent.destinationStatus] at h
  · subst h
    decide
  · subst h
    decide
  · rw [← h.2]
    decide

theorem nonterminalRow_unblocked {status : EmailDestinationStatus} {reasonCode : Option String}
    {d : EmailDestination} (hStatus : status ∉ blockedDestinationStatuses) (h : d.blocked = false) :
    (applied.nonterminalRow status reasonCode d).blocked = false := by
  unfold nonterminalRow
  split
  · exact decide_eq_false hStatus
  · exact h

theorem mem_aliases {d : EmailDestination} :
    d ∈ db.aliases hashes ↔ d ∈ db.destinations.rows ∧ d.recipientHash ∈ hashes := by
  simp [Database.aliases]

variable (applied) in
theorem updateEach_unblocked {status : EmailDestinationStatus} (hNodup : hashes.Nodup)
    (hStatus : status ∉ blockedDestinationStatuses)
    (hBefore : ∀ d ∈ db.aliases hashes, d.blocked = false) (hk : k ∈ hashes) :
    ∃ d, (applied.updateEach hashes status db).destinations.get k = some d ∧ d.blocked = false := by
  rw [get_updateEach hNodup, if_pos hk]
  refine ⟨_, rfl, nonterminalRow_unblocked hStatus ?_⟩
  unfold nonterminalUpserted
  cases hGet : db.destinations.get k with
  | none => exact decide_eq_false hStatus
  | some d =>
    obtain ⟨hMem, hKey⟩ := Table.get_eq_some_iff.mp hGet
    exact hBefore d (mem_aliases.mpr ⟨hMem, hKey ▸ hk⟩)

theorem runs_suppressDestinationAliases (hNodup : hashes.Nodup) (hk : k ∈ hashes) :
    Runs now (applied.suppressDestinationAliases hashes) db ()
      (applied.afterSuppression hashes db) := by
  unfold suppressDestinationAliases afterSuppression
  refine Runs.bind Runs.query ?_
  refine Runs.bind (Runs.forEach (f := applied.afterSuppress
    ((mailboxState (db.aliases hashes)).1 + 1))
    (applied.runs_suppressDestination _) hashes) ?_
  obtain ⟨d, hGet⟩ : ∃ d, (applied.suppressEach hashes
    ((mailboxState (db.aliases hashes)).1 + 1) db).destinations.get k = some d := by
    rw [get_suppressEach hNodup, if_pos hk]
    exact ⟨_, rfl⟩
  obtain ⟨hMem, hKey⟩ := Table.get_eq_some_iff.mp hGet
  obtain ⟨found, hFound⟩ :=
    authoritative_isSome (Table.mem_select (p := fun d => decide (d.recipientHash ∈ hashes)) |>.mpr
    ⟨hMem, decide_eq_true (hKey ▸ hk)⟩)
  refine Runs.bind (runs_findAuthoritativeDestination hFound) ?_
  dsimp only
  rw [hFound]
  exact Runs.bind runs_updateDestinations Runs.done

theorem runs_update {status : EmailDestinationStatus} (hNodup : hashes.Nodup) (hk : k ∈ hashes)
    (hStatus : status ∉ blockedDestinationStatuses)
    (hBefore : ∀ d ∈ db.aliases hashes, d.blocked = false) :
    Runs now ((forEach (applied.updateNonterminalDestination status) hashes).bind fun _ =>
      convergeNonterminalAliases hashes)
      db () (applied.afterUpdate hashes status db) := by
  refine Runs.bind (Runs.forEach (f := applied.afterNonterminal status)
    (runs_updateNonterminalDestination status) hashes) ?_
  unfold convergeNonterminalAliases afterUpdate
  obtain ⟨d, hGet, hUnblocked⟩ := updateEach_unblocked applied hNodup hStatus hBefore hk
  obtain ⟨hMem, hKey⟩ := Table.get_eq_some_iff.mp hGet
  split
  · exact Runs.done
  · obtain ⟨found, hFound⟩ :=
      authoritative_isSome (Table.mem_select (p := fun d => !d.blocked && d.recipientHash ∈ hashes)
      |>.mpr ⟨hMem, by simp [hUnblocked, hKey, hk]⟩)
    refine Runs.bind (runs_findAuthoritativeDestination hFound) ?_
    dsimp only
    rw [hFound]
    exact Runs.bind runs_updateDestinations Runs.done

theorem runs_destination (hNodup : hashes.Nodup) (hk : k ∈ hashes) :
    Runs now (applied.applyDestinationTransition hashes) db ()
      (applied.afterDestination hashes db) := by
  unfold applyDestinationTransition afterDestination
  split
  · exact Runs.bind runs_lockRecipientAliases (runs_suppressDestinationAliases hNodup hk)
  · cases hNext : applied.feedback.event.destinationStatus with
    | none => exact Runs.done
    | some status =>
      refine Runs.bind runs_lockRecipientAliases (Runs.bind Runs.query ?_)
      dsimp only [viewAlone]
      split
      · exact Runs.done
      · next hBlocked =>
        refine runs_update hNodup hk (destinationStatus_unblocked hNext) fun d hd => ?_
        cases hThis : d.blocked with
        | false => rfl
        | true => exact absurd (List.any_eq_true.mpr ⟨d, hd, hThis⟩) hBlocked

theorem only_afterDestination : db.OnlyDestinations (applied.afterDestination hashes db) := by
  have hSuppress : ∀ (revision : Nat) (db : Database) (a : RecipientHash),
      db.OnlyDestinations (applied.afterSuppress revision db a) := by
    intro revision db a
    exact (Database.OnlyDestinations.upsert.trans Database.OnlyDestinations.update).trans
      Database.OnlyDestinations.update
  have hUpdate : ∀ (status : EmailDestinationStatus) (db : Database) (a : RecipientHash),
      db.OnlyDestinations (applied.afterNonterminal status db a) :=
    fun _ _ _ => Database.OnlyDestinations.upsert.trans Database.OnlyDestinations.update
  unfold afterDestination
  split
  · unfold afterSuppression
    dsimp only
    split
    · exact Database.OnlyDestinations.foldl (hSuppress _) hashes
    · exact (Database.OnlyDestinations.foldl (hSuppress _) hashes).trans
        Database.OnlyDestinations.update
  · split
    · exact Database.OnlyDestinations.refl
    · split
      · exact Database.OnlyDestinations.refl
      · unfold afterUpdate
        dsimp only
        split
        · exact Database.OnlyDestinations.foldl (hUpdate _) hashes
        · split
          · exact Database.OnlyDestinations.foldl (hUpdate _) hashes
          · exact (Database.OnlyDestinations.foldl (hUpdate _) hashes).trans
              Database.OnlyDestinations.update

end AppliedFeedback

end Pixaeron.Notifications
