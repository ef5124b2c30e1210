import Mathlib.Data.List.Dedup
import Pixaeron.Notifications.Arrivals

/-! # Mailboxes converge

Whatever the order of feedback about a recipient, and however often it comes: all alias rows end in
one state, which only depends on which events there were.
-/

namespace Pixaeron.Notifications

open Transactions Transactions.Script

/-! ## One mailbox -/

/-- All columns of an alias row but its identifier and its hash. -/
structure MailboxState where
  status : EmailDestinationStatus
  data : AuthoritativeData
  suppressedAt : Option Int
  suppressionRevision : Nat
deriving DecidableEq

def EmailDestination.state (d : EmailDestination) : MailboxState :=
  ⟨d.status, d.authoritativeData, d.suppressedAt, d.suppressionRevision⟩

/-- All aliases have a row in this state, or none has a row. -/
def Uniform (db : Database) (hashes : List RecipientHash) (m : Option MailboxState) : Prop :=
  ∀ k ∈ hashes, (db.destinations.get k).map EmailDestination.state = m

namespace AppliedFeedback

variable (applied : AppliedFeedback)

/-- The effect of a nonterminal event that gives `status` to recipients. -/
def updatedMailbox (status : EmailDestinationStatus) : Option MailboxState → Option MailboxState
  | none => some ⟨status, applied.data (applied.nonterminalReason status), none, 0⟩
  | some s =>
    if s.status ∉ blockedDestinationStatuses ∧
      newerEventFilters applied.revision s.data.lastEvent = true then
      some { s with status := status, data := applied.data (applied.nonterminalReason status) }
    else some s

def mailboxAfter (m : Option MailboxState) : Option MailboxState :=
  if applied.feedback.event.isTerminalMailboxEvent then
    match m with
    | none =>
      some ⟨.suppressed, applied.data applied.reasonCode,
        some applied.feedback.providerTimestamp, 1⟩
    | some s => some ⟨.suppressed,
        if s.status ≠ .suppressed ∨ newerEventFilters applied.revision s.data.lastEvent = true then
          applied.data applied.reasonCode else s.data,
        some (earliestSuppressedAt applied.feedback.providerTimestamp s.suppressedAt),
          s.suppressionRevision + 1⟩
  else
    match applied.feedback.event.destinationStatus with
    | none => m
    | some status => applied.updatedMailbox status m

end AppliedFeedback

section Uniform

variable {applied : AppliedFeedback} {db : Database} {hashes : List RecipientHash}
  {m : Option MailboxState}
  {k : RecipientHash} {d : EmailDestination}

theorem foldl_const {α : Type} {f : α → α → α} {a : α} (hIdem : f a a = a) {l : List α}
    (h : ∀ b ∈ l, b = a) :
    l.foldl f a = a := by
  induction l with
  | nil => rfl
  | cons b rest ih =>
    rw [List.foldl_cons, h b List.mem_cons_self, hIdem]
    exact ih fun c hc => h c (List.mem_cons_of_mem _ hc)

theorem mailboxState_of_same {s : MailboxState} {l : List EmailDestination}
    (h : ∀ d ∈ l, d.state = s) (hNe : l ≠ []) :
    AppliedFeedback.mailboxState l = (s.suppressionRevision, s.suppressedAt) := by
  cases l with
  | nil => exact absurd rfl hNe
  | cons a rest =>
    have hRevision : ∀ d ∈ a :: rest, d.suppressionRevision = s.suppressionRevision := fun d hd =>
      congrArg MailboxState.suppressionRevision (h d hd)
    have hSuppressed : ∀ d ∈ a :: rest, d.suppressedAt = s.suppressedAt := fun d hd =>
      congrArg MailboxState.suppressedAt (h d hd)
    have hMax : ((a :: rest).map EmailDestination.suppressionRevision).foldl max 0 =
      s.suppressionRevision := by
      rw [List.map_cons, List.foldl_cons, hRevision a List.mem_cons_self, Nat.zero_max]
      refine foldl_const (Nat.max_self _) fun n hn => ?_
      obtain ⟨d, hd, rfl⟩ := List.mem_map.mp hn
      exact hRevision d (List.mem_cons_of_mem _ hd)
    have hMin : ((a :: rest).filterMap EmailDestination.suppressedAt).min? = s.suppressedAt := by
      cases hAt : s.suppressedAt with
      | none =>
        rw [List.filterMap_eq_nil_iff.mpr fun d hd => (hSuppressed d hd).trans hAt]
        rfl
      | some t =>
        rw [List.filterMap_cons_some ((hSuppressed a List.mem_cons_self).trans hAt),
          List.min?_cons']
        refine congrArg some (foldl_const (min_self t) fun t' ht' => ?_)
        obtain ⟨d, hd, hThis⟩ := List.mem_filterMap.mp ht'
        rw [hSuppressed d (List.mem_cons_of_mem _ hd), hAt] at hThis
        exact (Option.some.inj hThis).symm
    unfold AppliedFeedback.mailboxState
    rw [hMax, hMin]

theorem Uniform.of_mem (h : Uniform db hashes m)
    (hd : d ∈ db.aliases hashes) : m = some d.state := by
  obtain ⟨hMem, hHash⟩ := AppliedFeedback.mem_aliases.mp hd
  rw [← h _ hHash, Table.get_of_mem hMem, Option.map_some]

theorem Uniform.mailboxState (h : Uniform db hashes m) (hk : k ∈ hashes) :
    AppliedFeedback.mailboxState (db.aliases hashes) =
      ((m.map MailboxState.suppressionRevision).getD 0, m.bind MailboxState.suppressedAt) := by
  have hEach : ∀ d ∈ db.aliases hashes, m = some d.state := fun d hd => h.of_mem hd
  have hNone : m = none → db.aliases hashes = [] := by
    intro hm
    refine List.eq_nil_iff_forall_not_mem.mpr fun d hd => ?_
    rw [hEach d hd] at hm
    cases hm
  have hSome : ∀ s, m = some s → db.aliases hashes ≠ [] := by
    intro s hs
    have hGet := h k hk
    rw [hs] at hGet
    obtain ⟨d, hd, _⟩ := Option.map_eq_some_iff.mp hGet
    obtain ⟨hMem, hKey⟩ := Table.get_eq_some_iff.mp hd
    exact List.ne_nil_of_mem (AppliedFeedback.mem_aliases.mpr ⟨hMem, hKey ▸ hk⟩)
  cases m with
  | none =>
    rw [hNone rfl]
    rfl
  | some s =>
    exact mailboxState_of_same (fun d hd => (Option.some.inj (hEach d hd)).symm) (hSome s rfl)

/-- The columns of the last event that a terminal event leaves in an alias row. -/
def dataAfter (applied : AppliedFeedback) : Option MailboxState → AuthoritativeData
  | none => applied.data applied.reasonCode
  | some s =>
    if s.status ≠ .suppressed ∨ newerEventFilters applied.revision s.data.lastEvent = true then
      applied.data applied.reasonCode else s.data

theorem authoritativeData_sinceRow :
    (applied.sinceRow d).authoritativeData = d.authoritativeData := by
  unfold AppliedFeedback.sinceRow
  split <;> rfl

theorem data_suppressedRow {revision : Nat} {found : Option EmailDestination} :
    (applied.sinceRow (applied.suppressedRow
      (applied.suppressUpserted revision k found))).authoritativeData =
      dataAfter applied (found.map EmailDestination.state) := by
  rw [authoritativeData_sinceRow]
  cases found with
  | none =>
    have hSame : applied.followsEvent (applied.suppressUpserted revision k none) = false := by
      simp [AppliedFeedback.followsEvent, AppliedFeedback.suppressUpserted,
        AppliedFeedback.destination]
    unfold AppliedFeedback.suppressedRow
    rw [hSame]
    rfl
  | some d =>
    have hIff : applied.followsEvent (applied.suppressUpserted revision k (some d)) = true ↔
        d.status ≠ .suppressed ∨ newerEventFilters applied.revision d.lastEvent = true := by
      simp only [AppliedFeedback.followsEvent, AppliedFeedback.suppressUpserted,
        EmailDestination.setSuppressionRevision, Bool.or_eq_true]
      exact or_congr decide_eq_true_iff Iff.rfl
    simp only [AppliedFeedback.suppressedRow, hIff, dataAfter, Option.map_some]
    show EmailDestination.authoritativeData (if d.status ≠ .suppressed ∨
      newerEventFilters applied.revision d.lastEvent = true
      then _ else _) = if d.status ≠ .suppressed ∨
        newerEventFilters applied.revision d.lastEvent = true then _ else _
    split <;> rfl

variable (applied) in
theorem Uniform.suppression (h : Uniform db hashes m) (hNodup : hashes.Nodup) :
    Uniform (applied.afterSuppression hashes db) hashes (some ⟨.suppressed, dataAfter applied m,
      some (AppliedFeedback.earliestSuppressedAt applied.feedback.providerTimestamp
        (m.bind MailboxState.suppressedAt)),
      (m.map MailboxState.suppressionRevision).getD 0 + 1⟩) := by
  intro k hk
  unfold AppliedFeedback.afterSuppression
  rw [h.mailboxState hk]
  dsimp only
  generalize (m.map MailboxState.suppressionRevision).getD 0 + 1 = revision
  have hRow : ∀ {k'}, k' ∈ hashes →
    ∃ d, (applied.suppressEach hashes revision db).destinations.get k' = some d ∧
      d.authoritativeData = dataAfter applied m := by
    intro k' hk'
    rw [AppliedFeedback.get_suppressEach hNodup, if_pos hk']
    refine ⟨_, rfl, ?_⟩
    rw [data_suppressedRow, h k' hk']
  obtain ⟨d, hGet, _⟩ := hRow hk
  obtain ⟨hMem, hKey⟩ := Table.get_eq_some_iff.mp hGet
  obtain ⟨found, hFound⟩ :=
    authoritative_isSome (Table.mem_select (p := fun d => decide (d.recipientHash ∈ hashes)) |>.mpr
    ⟨hMem, decide_eq_true (hKey ▸ hk)⟩)
  obtain ⟨hFoundMem, hFoundHash⟩ := Table.mem_select.mp (authoritative_mem hFound)
  obtain ⟨d', hGet', hData⟩ := hRow (of_decide_eq_true hFoundHash)
  rw [Table.get_of_mem hFoundMem] at hGet'
  cases hGet'
  rw [hFound]
  dsimp only
  rw [Database.destinations_updateDestinations, hGet, Option.map_some, Option.map_some,
    if_pos (decide_eq_true (hKey ▸ hk)), hData]
  rfl

theorem state_nonterminalRow {status : EmailDestinationStatus} {reasonCode : Option String} :
    (applied.nonterminalRow status reasonCode d).state =
      if d.status ∉ blockedDestinationStatuses ∧
      newerEventFilters applied.revision d.lastEvent = true then
        { d.state with status := status, data := applied.data reasonCode } else d.state := by
  have hIff : applied.updatesAlias d = true ↔
      d.status ∉ blockedDestinationStatuses ∧
        newerEventFilters applied.revision d.lastEvent = true := by
    simp [AppliedFeedback.updatesAlias, EmailDestination.blocked]
  simp only [AppliedFeedback.nonterminalRow, hIff]
  split <;> rfl

theorem Uniform.update (h : Uniform db hashes m) (hNodup : hashes.Nodup)
    {status : EmailDestinationStatus} (hStatus : status ∉ blockedDestinationStatuses)
    (hBefore : ∀ d ∈ db.aliases hashes, d.blocked = false) :
    Uniform (applied.afterUpdate hashes status db) hashes (applied.updatedMailbox status m) := by
  generalize hAfter : applied.updatedMailbox status m = m'
  have hLoop : Uniform (applied.updateEach hashes status db) hashes m' := by
    intro k hk
    rw [AppliedFeedback.get_updateEach hNodup, if_pos hk, Option.map_some,
      state_nonterminalRow, ← hAfter]
    have hThis := h k hk
    cases hGet : db.destinations.get k with
    | none =>
      rw [hGet] at hThis
      subst hThis
      simp [AppliedFeedback.nonterminalUpserted, AppliedFeedback.destination]
      rfl
    | some d =>
      rw [hGet] at hThis
      subst hThis
      simp only [AppliedFeedback.nonterminalUpserted, Option.getD_some, Option.map_some]
      show some (if d.status ∉ blockedDestinationStatuses ∧
        newerEventFilters applied.revision d.lastEvent = true then _ else _) =
        if d.status ∉ blockedDestinationStatuses ∧
          newerEventFilters applied.revision d.lastEvent = true then _ else _
      split <;> rfl
  intro k hk
  unfold AppliedFeedback.afterUpdate
  dsimp only
  split
  · exact hLoop k hk
  · obtain ⟨d, hGet, hUnblocked⟩ :=
      AppliedFeedback.updateEach_unblocked applied hNodup hStatus hBefore hk
    obtain ⟨hMem, hKey⟩ := Table.get_eq_some_iff.mp hGet
    obtain ⟨found, hFound⟩ :=
      authoritative_isSome (Table.mem_select (p := fun d => !d.blocked && d.recipientHash ∈ hashes)
      |>.mpr ⟨hMem, by simp [hUnblocked, hKey, hk]⟩)
    obtain ⟨hFoundMem, hFoundWhere⟩ := Table.mem_select.mp (authoritative_mem hFound)
    rw [Bool.and_eq_true, decide_eq_true_eq] at hFoundWhere
    have hFoundState := hLoop _ hFoundWhere.2
    rw [Table.get_of_mem hFoundMem, Option.map_some] at hFoundState
    have hState := hLoop k hk
    rw [hGet, Option.map_some, ← hFoundState] at hState
    rw [hFound]
    dsimp only
    rw [Database.destinations_updateDestinations, hGet, Option.map_some, Option.map_some,
      if_pos (by simp [hUnblocked, hKey, hk]), ← hFoundState]
    injection hState with hState
    injection hState with _ _ hAt hRevision
    show some (MailboxState.mk found.status found.authoritativeData d.suppressedAt
      d.suppressionRevision) = some found.state
    rw [hAt, hRevision]
    rfl

theorem Uniform.destination (h : Uniform db hashes m) (hNodup : hashes.Nodup) :
    Uniform (applied.afterDestination hashes db) hashes (applied.mailboxAfter m) := by
  unfold AppliedFeedback.afterDestination AppliedFeedback.mailboxAfter
  split
  · have hAfter := h.suppression applied hNodup
    cases m with
    | none => exact hAfter
    | some s => exact hAfter
  · cases hNext : applied.feedback.event.destinationStatus with
    | none => exact h
    | some status =>
      dsimp only
      split
      · next hBlocked =>
        obtain ⟨d, hd, hThis⟩ := List.any_eq_true.mp hBlocked
        have hStatus : d.state.status ∈ blockedDestinationStatuses := of_decide_eq_true hThis
        have hSame : applied.updatedMailbox status m = m := by
          rw [h.of_mem hd]
          exact if_neg fun hBoth => hBoth.1 hStatus
        rw [hSame]
        exact h
      · next hBlocked =>
        refine h.update hNodup (AppliedFeedback.destinationStatus_unblocked hNext) fun d hd => ?_
        cases hThis : d.blocked with
        | false => rfl
        | true => exact absurd (List.any_eq_true.mpr ⟨d, hd, hThis⟩) hBlocked

end Uniform

/-! ## What a mailbox is left with -/

structure MailboxColumns where
  status : EmailDestinationStatus
  reasonCode : Option String
  lastEvent : Option EventRevision
  suppressedAt : Option Int
  suppressionRevision : Nat
deriving DecidableEq

def MailboxState.columns (s : MailboxState) : MailboxColumns :=
  ⟨s.status, s.data.reasonCode, s.data.lastEvent, s.suppressedAt, s.suppressionRevision⟩

def reasonOf (event : SesEvent) (status : EmailDestinationStatus) : Option String :=
  if status = .temporaryFailure then event.deliveryFailureCode else none

def isTerminal (e : SesEvent × EventRevision) : Bool := e.1.isTerminalMailboxEvent

/-- The columns of a mailbox that was unknown, once the events of `seen` have been applied. -/
inductive MailboxHolds (seen : List (SesEvent × EventRevision)) : Option MailboxColumns → Prop where
  | unknown (hNone : ∀ t ∈ seen, isTerminal t = false)
      (hSilent : ∀ e ∈ seen, e.1.destinationStatus = none) :
      MailboxHolds seen none
  | followed {e : SesEvent × EventRevision} {status : EmailDestinationStatus} (hMem : e ∈ seen)
      (hStatus : e.1.destinationStatus = some status) (hNone : ∀ t ∈ seen, isTerminal t = false)
      (hNewest : ∀ e' ∈ seen, e'.1.destinationStatus ≠ none → e'.2 ≤ e.2) :
      MailboxHolds seen (some ⟨status, reasonOf e.1 status, some e.2, none, 0⟩)
  | suppressed {e first : SesEvent × EventRevision} (hMem : e ∈ seen)
      (hTerminal : isTerminal e = true)
      (hNewest : ∀ t ∈ seen, isTerminal t = true → t.2 ≤ e.2) (hFirst : first ∈ seen)
        (hFirstTerminal : isTerminal first = true)
      (hEarliest : ∀ t ∈ seen, isTerminal t = true → first.2.occurredAt ≤ t.2.occurredAt) :
      MailboxHolds seen (some ⟨.suppressed, e.1.deliveryFailureCode, some e.2,
        some first.2.occurredAt, seen.countP isTerminal⟩)

section Holds

variable {applied : AppliedFeedback} {seen seen' : List (SesEvent × EventRevision)}
  {m : Option MailboxState}
  {c c' : Option MailboxColumns}

theorem forall_mem_snoc {p : SesEvent × EventRevision → Prop} {e : SesEvent × EventRevision}
    (h : ∀ t ∈ seen, p t) (he : p e) :
    ∀ t ∈ seen ++ [e], p t := by
  intro t ht
  rcases List.mem_append.mp ht with hOld | hNew
  · exact h t hOld
  · exact List.mem_singleton.mp hNew ▸ he

theorem countP_none (h : ∀ t ∈ seen, isTerminal t = false) : seen.countP isTerminal = 0 :=
  List.countP_eq_zero.mpr fun t ht => by simp [h t ht]

theorem MailboxHolds.begin {e : SesEvent × EventRevision} (h : ∀ t ∈ seen, isTerminal t = false)
    (hTerminal : isTerminal e = true) :
    MailboxHolds (seen ++ [e]) (some ⟨.suppressed, e.1.deliveryFailureCode, some e.2,
      some e.2.occurredAt, 1⟩) := by
  have hCount : (seen ++ [e]).countP isTerminal = 1 := by
    rw [List.countP_append, countP_none h, List.countP_singleton, if_pos hTerminal]
  have hOld : ∀ {q : SesEvent × EventRevision → Prop}, ∀ t ∈ seen, isTerminal t = true → q t := by
    intro q t ht hThis
    rw [h t ht] at hThis
    cases hThis
  rw [← hCount]
  exact .suppressed (by simp) hTerminal (forall_mem_snoc hOld fun _ => le_refl _)
    (by simp) hTerminal
    (forall_mem_snoc hOld fun _ => le_refl _)

theorem MailboxHolds.kept {e first n : SesEvent × EventRevision} (hNew : isTerminal n = false)
    (hMem : e ∈ seen) (hTerminal : isTerminal e = true)
    (hNewest : ∀ t ∈ seen, isTerminal t = true → t.2 ≤ e.2) (hFirst : first ∈ seen)
    (hFirstTerminal : isTerminal first = true)
    (hEarliest : ∀ t ∈ seen, isTerminal t = true → first.2.occurredAt ≤ t.2.occurredAt) :
    MailboxHolds (seen ++ [n])
      (some ⟨.suppressed, e.1.deliveryFailureCode, some e.2, some first.2.occurredAt,
        seen.countP isTerminal⟩) := by
  have hNot : ∀ {q : Prop}, isTerminal n = true → q := by
    intro q hThis
    rw [hNew] at hThis
    cases hThis
  have hCount : (seen ++ [n]).countP isTerminal = seen.countP isTerminal := by
    rw [List.countP_append, List.countP_singleton, if_neg (by simp [hNew]), Nat.add_zero]
  rw [← hCount]
  exact .suppressed (by simp [hMem]) hTerminal (forall_mem_snoc hNewest hNot)
    (by simp [hFirst]) hFirstTerminal
    (forall_mem_snoc hEarliest hNot)

/-- A further event about a dead mailbox is followed if it is newer, dates the suppression if it is
earlier, and counts. -/
theorem MailboxHolds.again {e first n : SesEvent × EventRevision} (hMem : e ∈ seen)
    (hTerminal : isTerminal e = true) (hNewest : ∀ t ∈ seen, isTerminal t = true → t.2 ≤ e.2)
    (hFirst : first ∈ seen) (hFirstTerminal : isTerminal first = true)
    (hEarliest : ∀ t ∈ seen, isTerminal t = true → first.2.occurredAt ≤ t.2.occurredAt)
    (hNew : isTerminal n = true) :
    MailboxHolds (seen ++ [n]) (some ⟨.suppressed,
      (if e.2 < n.2 then n else e).1.deliveryFailureCode,
      some (if e.2 < n.2 then n else e).2,
      some (if n.2.occurredAt < first.2.occurredAt then n.2.occurredAt else first.2.occurredAt),
      seen.countP isTerminal + 1⟩) := by
  have hCount : (seen ++ [n]).countP isTerminal = seen.countP isTerminal + 1 := by
    rw [List.countP_append, List.countP_singleton, if_pos hNew]
  have hAt : (if n.2.occurredAt < first.2.occurredAt then n.2.occurredAt else first.2.occurredAt) =
      (if n.2.occurredAt < first.2.occurredAt then n else first).2.occurredAt := by
    split <;> rfl
  rw [← hCount, hAt]
  refine .suppressed ?_ ?_ ?_ ?_ ?_ ?_
  · split <;> simp [hMem]
  · split
    · exact hNew
    · exact hTerminal
  · split
    · next hNewer =>
        exact forall_mem_snoc (fun t ht hThis => (hNewest t ht hThis).trans hNewer.le)
          fun _ => le_refl _
    · next hOlder => exact forall_mem_snoc hNewest fun _ => not_lt.mp hOlder
  · split <;> simp [hFirst]
  · split
    · exact hNew
    · exact hFirstTerminal
  · split
    · next hEarlier =>
        exact forall_mem_snoc (fun t ht hThis => hEarlier.le.trans (hEarliest t ht hThis))
          fun _ => le_refl _
    · next hLater => exact forall_mem_snoc hEarliest fun _ => not_lt.mp hLater

theorem MailboxHolds.skip {n : SesEvent × EventRevision} (h : MailboxHolds seen c)
    (hNew : isTerminal n = false) (hSilent : n.1.destinationStatus = none) :
    MailboxHolds (seen ++ [n]) c := by
  cases h with
  | unknown hNone hAll => exact .unknown (forall_mem_snoc hNone hNew) (forall_mem_snoc hAll hSilent)
  | followed hMem hStatus hNone hNewest =>
    exact .followed (by simp [hMem]) hStatus (forall_mem_snoc hNone hNew)
      (forall_mem_snoc hNewest fun hSome => absurd hSilent hSome)
  | suppressed hMem hTerminal hNewest hFirst hFirstTerminal hEarliest =>
    exact .kept hNew hMem hTerminal hNewest hFirst hFirstTerminal hEarliest

variable (applied) in
theorem MailboxHolds.step (h : MailboxHolds seen (m.map MailboxState.columns))
    (hTime : applied.revision.occurredAt = applied.feedback.providerTimestamp) :
    MailboxHolds (seen ++ [(applied.feedback.event, applied.revision)])
      ((applied.mailboxAfter m).map MailboxState.columns) := by
  unfold AppliedFeedback.mailboxAfter
  cases hTerminal : applied.feedback.event.isTerminalMailboxEvent with
  | true =>
    have hNew : isTerminal (applied.feedback.event, applied.revision) = true := hTerminal
    rw [if_pos rfl]
    generalize hc : m.map MailboxState.columns = c at h
    cases h with
    | unknown hNone hSilent =>
      rw [Option.map_eq_none_iff.mp hc]
      have hBegin := MailboxHolds.begin hNone hNew
      rw [hTime] at hBegin
      exact hBegin
    | @followed e status hMem hStatus hNone hNewest =>
      obtain ⟨s, rfl, hs⟩ := Option.map_eq_some_iff.mp hc
      obtain ⟨hEqStatus, _, hEqLast, hEqAt, hEqRevision⟩ := MailboxColumns.mk.injEq .. |>.mp hs
      have hUnblocked : s.status ≠ .suppressed := by
        rw [hEqStatus]
        intro hSame
        exact AppliedFeedback.destinationStatus_unblocked hStatus (by rw [hSame]; decide)
      have hBegin := MailboxHolds.begin hNone hNew
      rw [hTime] at hBegin
      dsimp only
      rw [if_pos (.inl hUnblocked), hEqAt, hEqRevision]
      exact hBegin
    | @suppressed e first hMem hThis hNewest hFirst hFirstTerminal hEarliest =>
      obtain ⟨s, rfl, hs⟩ := Option.map_eq_some_iff.mp hc
      obtain ⟨hEqStatus, hEqReason, hEqLast, hEqAt, hEqRevision⟩ :=
        MailboxColumns.mk.injEq .. |>.mp hs
      have hAgain := MailboxHolds.again hMem hThis hNewest hFirst hFirstTerminal hEarliest hNew
      have hData : (if s.status ≠ .suppressed ∨
        newerEventFilters applied.revision s.data.lastEvent = true then
          applied.data applied.reasonCode else s.data) = if e.2 < applied.revision then
            applied.data applied.reasonCode
          else s.data := by
        simp [hEqStatus, hEqLast]
      dsimp only
      rw [hEqAt, hEqRevision, hData]
      dsimp only [AppliedFeedback.earliestSuppressedAt] at hAgain ⊢
      rw [hTime] at hAgain
      by_cases hNewer : e.2 < applied.revision
      · rw [if_pos hNewer] at hAgain ⊢
        exact hAgain
      · rw [if_neg hNewer] at hAgain ⊢
        rw [← hEqReason, ← hEqLast] at hAgain
        exact hAgain
  | false =>
    have hNew : isTerminal (applied.feedback.event, applied.revision) = false := hTerminal
    rw [if_neg (by simp)]
    cases hNext : applied.feedback.event.destinationStatus with
    | none => exact h.skip hNew hNext
    | some status =>
      dsimp only
      generalize hc : m.map MailboxState.columns = c at h
      cases h with
      | unknown hNone hSilent =>
        rw [Option.map_eq_none_iff.mp hc]
        exact .followed (e := (applied.feedback.event, applied.revision)) (by simp) hNext
          (forall_mem_snoc hNone hNew)
          (forall_mem_snoc (fun e he hSome => absurd (hSilent e he) hSome) fun _ => le_refl _)
      | @followed e old hMem hStatus hNone hNewest =>
        obtain ⟨s, rfl, hs⟩ := Option.map_eq_some_iff.mp hc
        obtain ⟨hEqStatus, hEqReason, hEqLast, hEqAt, hEqRevision⟩ :=
          MailboxColumns.mk.injEq .. |>.mp hs
        have hUnblocked : s.status ∉ blockedDestinationStatuses :=
          hEqStatus ▸ AppliedFeedback.destinationStatus_unblocked hStatus
        unfold AppliedFeedback.updatedMailbox
        dsimp only
        rw [hEqLast, newerEventFilters_some]
        by_cases hNewer : e.2 < applied.revision
        · rw [if_pos ⟨hUnblocked, decide_eq_true hNewer⟩]
          have hFollowed : MailboxHolds (seen ++ [(applied.feedback.event, applied.revision)])
              (some ⟨status, reasonOf applied.feedback.event status, some applied.revision,
                none, 0⟩) :=
            .followed (e := (applied.feedback.event, applied.revision)) (by simp) hNext
              (forall_mem_snoc hNone hNew)
              (forall_mem_snoc (fun e' he' hSome => (hNewest e' he' hSome).trans hNewer.le) fun _ =>
                le_refl _)
          rw [← hEqAt, ← hEqRevision] at hFollowed
          exact hFollowed
        · rw [if_neg fun hBoth => hNewer (of_decide_eq_true hBoth.2), Option.map_some, hs]
          exact .followed (by simp [hMem]) hStatus (forall_mem_snoc hNone hNew)
            (forall_mem_snoc hNewest fun _ => not_lt.mp hNewer)
      | @suppressed e first hMem hThis hNewest hFirst hFirstTerminal hEarliest =>
        obtain ⟨s, rfl, hs⟩ := Option.map_eq_some_iff.mp hc
        obtain ⟨hEqStatus, _⟩ := MailboxColumns.mk.injEq .. |>.mp hs
        have hBlocked : s.status ∈ blockedDestinationStatuses := by
          rw [hEqStatus]
          decide
        unfold AppliedFeedback.updatedMailbox
        dsimp only
        rw [if_neg fun hBoth => hBoth.1 hBlocked, Option.map_some, hs]
        exact .kept hNew hMem hThis hNewest hFirst hFirstTerminal hEarliest

theorem MailboxHolds.perm (h : MailboxHolds seen c)
    (hPerm : seen.Perm seen') : MailboxHolds seen' c := by
  have hMem : ∀ e, e ∈ seen ↔ e ∈ seen' := fun e => hPerm.mem_iff
  cases h with
  | unknown hNone hSilent =>
    exact .unknown (by simpa only [← hMem] using hNone) (by simpa only [← hMem] using hSilent)
  | followed hIn hStatus hNone hNewest =>
    exact .followed ((hMem _).mp hIn) hStatus (by simpa only [← hMem] using hNone)
      (by simpa only [← hMem] using hNewest)
  | suppressed hIn hTerminal hNewest hFirst hFirstTerminal hEarliest =>
    rw [hPerm.countP_eq]
    exact .suppressed ((hMem _).mp hIn) hTerminal (by simpa only [← hMem] using hNewest)
      ((hMem _).mp hFirst) hFirstTerminal
      (by simpa only [← hMem] using hEarliest)

theorem MailboxHolds.unique (hDistinct : ∀ e ∈ seen, ∀ e' ∈ seen, e.2 = e'.2 → e = e')
    (h : MailboxHolds seen c) (h' : MailboxHolds seen c') : c = c' := by
  cases h with
  | unknown hNone hSilent =>
    cases h' with
    | unknown => rfl
    | followed hMem hStatus =>
      rw [hSilent _ hMem] at hStatus
      cases hStatus
    | suppressed hMem hTerminal =>
      rw [hNone _ hMem] at hTerminal
      cases hTerminal
  | followed hMem hStatus hNone hNewest =>
    cases h' with
    | unknown hNone' hSilent' =>
      rw [hSilent' _ hMem] at hStatus
      cases hStatus
    | followed hMem' hStatus' hNone' hNewest' =>
      have hSame :=
        hDistinct _ hMem _ hMem' (le_antisymm (hNewest' _ hMem (by simp [hStatus]))
          (hNewest _ hMem' (by simp [hStatus'])))
      subst hSame
      rw [hStatus] at hStatus'
      cases hStatus'
      rfl
    | suppressed hMem' hTerminal' =>
      rw [hNone _ hMem'] at hTerminal'
      cases hTerminal'
  | suppressed hMem hTerminal hNewest hFirst hFirstTerminal hEarliest =>
    cases h' with
    | unknown hNone' =>
      rw [hNone' _ hMem] at hTerminal
      cases hTerminal
    | followed _ _ hNone' =>
      rw [hNone' _ hMem] at hTerminal
      cases hTerminal
    | suppressed hMem' hTerminal' hNewest' hFirst' hFirstTerminal' hEarliest' =>
      have hSame :=
        hDistinct _ hMem _ hMem' (le_antisymm (hNewest' _ hMem hTerminal)
          (hNewest _ hMem' hTerminal'))
      subst hSame
      rw [le_antisymm (hEarliest _ hFirst' hFirstTerminal') (hEarliest' _ hFirst hFirstTerminal)]

end Holds

/-! ## All orders -/

section Orders

variable {services : Services} {ring : KeyRing} {db : Database} {recipient : String}
  {target : String → EmailDelivery}
  {events : List SesFeedback} {arrivals : List Arrival}

/-- An event as a mailbox sees it. -/
def mailboxContent (services : Services) (target : String → EmailDelivery)
    (f : SesFeedback) : SesEvent × EventRevision :=
  (f.event, createEventRevision f (fingerprintOf services (target f.sesMessageId) f))

/-- Events about deliveries to one recipient, who has no alias rows yet. -/
structure FirstMailboxFeedback (services : Services) (ring : KeyRing) (db : Database)
    (recipient : String) (target : String → EmailDelivery) (events : List SesFeedback) : Prop where
  unapplied : Unapplied services ring db target events
  recipients : ∀ f ∈ events, services.normalizeEmail f.recipient = services.normalizeEmail recipient
  unknown : ∀ k ∈ services.createLookupHashes ring recipient, db.destinations.get k = none

theorem distinct_mailboxContents (h : FirstMailboxFeedback services ring db recipient target events)
    {e e' : SesEvent × EventRevision} (he : e ∈ events.map (mailboxContent services target))
    (he' : e' ∈ events.map (mailboxContent services target)) (hSame : e.2 = e'.2) : e = e' := by
  obtain ⟨f, hf, rfl⟩ := List.mem_map.mp he
  obtain ⟨g, hg, rfl⟩ := List.mem_map.mp he'
  rw [h.unapplied.distinct f hf g hg (congrArg EventRevision.fingerprint hSame)]

theorem mailbox_of_order (h : FirstMailboxFeedback services ring db recipient target events)
    (hOrder : OrderOf services db target events arrivals) :
    ∃ m, Uniform (receiveAll services ring db arrivals)
      (services.createLookupHashes ring recipient) m ∧
      MailboxHolds (events.dedup.map (mailboxContent services target))
        (m.map MailboxState.columns) := by
  have hPending := h.unapplied.pending hOrder
  obtain ⟨all, _, ⟨m, hUniform, hHolds⟩, hPairs, hFrom, _, hCover⟩ :=
    hPending.applied.receiveAll hPending
    (services.createLookupHashes_nodup ring)
    (P := fun seen db => ∃ m, Uniform db (services.createLookupHashes ring recipient) m ∧
      MailboxHolds (seen.map (mailboxContent services target)) (m.map MailboxState.columns))
    (fun seen db a hApplied hEvent hSeen hP => by
      obtain ⟨g, hg, hSame⟩ := hSeen
      obtain ⟨m, hUniform, hHolds⟩ := hP
      refine ⟨m, fun k hk => ?_, hHolds⟩
      rw [(hApplied.again hPending hEvent hg hSame).2.1]
      exact hUniform k hk)
    (fun seen db a hApplied hEvent hDrawn hOther hP => by
      obtain ⟨m, hUniform, hHolds⟩ := hP
      obtain ⟨applied, db₁, hFeedback, hRevision, hBefore, hAfter⟩ :=
        (hApplied.new hPending hEvent hDrawn (services.createLookupHashes_nodup ring) hOther).2.2.1
      obtain ⟨b, hb, hSameFeedback⟩ := hEvent
      obtain ⟨f, hf, hEq⟩ := hOrder.known b hb
      have hHashes : services.createLookupHashes ring a.feedback.recipient =
        services.createLookupHashes ring recipient := by
        rw [← hSameFeedback, hEq]
        unfold Services.createLookupHashes
        rw [h.recipients f hf]
      rw [hHashes] at hAfter
      have hUniform₁ : Uniform db₁ (services.createLookupHashes ring recipient) m := by
        intro k hk
        rw [hBefore]
        exact hUniform k hk
      refine ⟨applied.mailboxAfter m, fun k hk => ?_, ?_⟩
      · rw [hAfter]
        exact hUniform₁.destination (services.createLookupHashes_nodup ring recipient) k hk
      · have hStep := hHolds.step applied (by rw [hRevision, hFeedback]; rfl)
        rw [hFeedback, hRevision] at hStep
        rw [List.map_append]
        exact hStep)
    (fun a ha => ⟨a, ha, rfl⟩) hOrder.draws
    ⟨none, fun k hk => by rw [h.unknown k hk]; rfl, .unknown (by simp) (by simp)⟩ List.Pairwise.nil
  rw [List.nil_append] at hFrom
  have hMem :=
    mem_applied (mailboxContent services target) (fun _ _ => rfl) h.unapplied hOrder hFrom hCover
  have hNodup : (all.map (mailboxContent services target)).Nodup := by
    refine List.pairwise_map.mpr (hPairs.imp fun hNe hSame => hNe ?_)
    exact congrArg (fun e => e.2.fingerprint) hSame
  have hNodup' : (events.dedup.map (mailboxContent services target)).Nodup := by
    refine (List.nodup_map_iff_inj_on (List.nodup_dedup events)).mpr fun f hf g hg hSame => ?_
    exact h.unapplied.distinct f (List.mem_dedup.mp hf) g (List.mem_dedup.mp hg)
      (congrArg (fun e => e.2.fingerprint) hSame)
  have hPerm : (all.map (mailboxContent services target)).Perm
    (events.dedup.map (mailboxContent services target)) := by
    refine (List.perm_ext_iff_of_nodup hNodup hNodup').mpr fun e => (hMem e).trans ?_
    simp only [List.mem_map, List.mem_dedup]
  exact ⟨m, hUniform, hHolds.perm hPerm⟩

theorem columns_of_holds {c : Option MailboxColumns}
    (hHolds : MailboxHolds (events.dedup.map (mailboxContent services target)) c) :
    ((∃ s, c = some s ∧ s.status = .suppressed) ↔ ∃ t ∈ events,
      t.event.isTerminalMailboxEvent = true) ∧
      ∀ s, c = some s → s.status = .suppressed →
        (∃ first ∈ events, first.event.isTerminalMailboxEvent = true ∧
          s.suppressedAt = some first.providerTimestamp ∧
          ∀ t ∈ events, t.event.isTerminalMailboxEvent = true →
            first.providerTimestamp ≤ t.providerTimestamp) ∧
        s.suppressionRevision = events.dedup.countP fun t => t.event.isTerminalMailboxEvent := by
  have hAll : ∀ {p : SesEvent × EventRevision → Prop},
    (∀ e ∈ events.dedup.map (mailboxContent services target), p e) ↔
      ∀ f ∈ events, p (mailboxContent services target f) := by
    intro p
    simp only [List.forall_mem_map, List.mem_dedup]
  cases hHolds with
  | unknown hNone hSilent =>
    refine ⟨⟨?_, fun ⟨t, ht, hTerminal⟩ => ?_⟩, ?_⟩
    · rintro ⟨s, hs, _⟩
      cases hs
    rotate_left
    · intro s hs
      cases hs
    have hThis : t.event.isTerminalMailboxEvent = false := hAll.mp hNone t ht
    rw [hThis] at hTerminal
    cases hTerminal
  | @followed e status hMem hStatus hNone hNewest =>
    have hNot : ∀ s, some (MailboxColumns.mk status (reasonOf e.1 status) (some e.2) none 0) =
      some s →
        s.status ≠ .suppressed := by
      intro s hs hSuppressed
      cases hs
      have hSame : status = .suppressed := hSuppressed
      exact AppliedFeedback.destinationStatus_unblocked hStatus (by rw [hSame]; decide)
    refine ⟨⟨fun ⟨s, hs, hSuppressed⟩ => absurd hSuppressed (hNot s hs),
      fun ⟨t, ht, hTerminal⟩ => ?_⟩,
      fun s hs hSuppressed => absurd hSuppressed (hNot s hs)⟩
    have hThis : t.event.isTerminalMailboxEvent = false := hAll.mp hNone t ht
    rw [hThis] at hTerminal
    cases hTerminal
  | @suppressed e first hMem hTerminal hNewest hFirst hFirstTerminal hEarliest =>
    obtain ⟨f, hf, rfl⟩ := List.mem_map.mp hMem
    obtain ⟨g, hg, rfl⟩ := List.mem_map.mp hFirst
    refine ⟨⟨fun _ => ⟨f, List.mem_dedup.mp hf, hTerminal⟩, fun _ => ⟨_, rfl, rfl⟩⟩,
      fun s hs _ => ?_⟩
    cases hs
    refine ⟨⟨g, List.mem_dedup.mp hg, hFirstTerminal, rfl,
      fun t ht hThis => hAll.mp hEarliest t ht hThis⟩, ?_⟩
    show List.countP isTerminal _ = _
    rw [List.countP_map]
    rfl

end Orders

/-- Any two orders of the feedback about a new recipient, with duplicates, leave all of its alias
rows in one state, the same for both orders. The recipient is suppressed if and only if a terminal
event was among them, since the earliest of these and with their number as the revision. -/
theorem mailbox_converges (services : Services) (ring : KeyRing) (db : Database)
    (recipient : String) (target : String → EmailDelivery) (events : List SesFeedback)
    (h : FirstMailboxFeedback services ring db recipient target events)
    (arrivals arrivals' : List Arrival) (hOrder : OrderOf services db target events arrivals)
    (hOrder' : OrderOf services db target events arrivals') :
    ∃ m m' : Option MailboxState,
      Uniform (receiveAll services ring db arrivals)
        (services.createLookupHashes ring recipient) m ∧
      Uniform (receiveAll services ring db arrivals')
        (services.createLookupHashes ring recipient) m' ∧
      m.map MailboxState.columns = m'.map MailboxState.columns ∧
      ((∃ s, m = some s ∧ s.status = .suppressed) ↔ ∃ t ∈ events,
        t.event.isTerminalMailboxEvent = true) ∧
      ∀ s, m = some s → s.status = .suppressed →
        (∃ first ∈ events, first.event.isTerminalMailboxEvent = true ∧
          s.suppressedAt = some first.providerTimestamp ∧
          ∀ t ∈ events, t.event.isTerminalMailboxEvent = true →
            first.providerTimestamp ≤ t.providerTimestamp) ∧
        s.suppressionRevision = events.dedup.countP fun t => t.event.isTerminalMailboxEvent := by
  obtain ⟨m, hUniform, hHolds⟩ := mailbox_of_order h hOrder
  obtain ⟨m', hUniform', hHolds'⟩ := mailbox_of_order h hOrder'
  have hDistinct : ∀ e ∈ events.dedup.map (mailboxContent services target),
      ∀ e' ∈ events.dedup.map (mailboxContent services target), e.2 = e'.2 → e = e' := by
    have hMem : ∀ e, e ∈ events.dedup.map (mailboxContent services target) →
      e ∈ events.map (mailboxContent services target) := by
      intro e he
      simpa only [List.mem_map, List.mem_dedup] using he
    exact fun e he e' he' => distinct_mailboxContents h (hMem e he) (hMem e' he')
  obtain ⟨hIff, hRest⟩ := columns_of_holds hHolds
  refine ⟨m, m', hUniform, hUniform', hHolds.unique hDistinct hHolds', ?_,
    fun s hs hSuppressed => ?_⟩
  · rw [← hIff]
    constructor
    · rintro ⟨s, rfl, hSuppressed⟩
      exact ⟨s.columns, rfl, hSuppressed⟩
    · rintro ⟨c, hc, hSuppressed⟩
      obtain ⟨s, hs, rfl⟩ := Option.map_eq_some_iff.mp hc
      exact ⟨s, hs, hSuppressed⟩
  · exact hRest s.columns (by rw [hs]; rfl) hSuppressed

namespace Sample

def arrival (f : SesFeedback) (eventId : String) : Arrival := ⟨0, f, eventId, fun a => a.value⟩

/-- The key of the delivery is no longer the active one. -/
def rotatedRing : KeyRing where
  keys := [⟨"n", 2⟩, key]
  activeKey := ⟨"n", 2⟩
  configured := List.mem_cons_self
  versions := by decide

/-- The delivery and the bounce of a new recipient with two aliases, in either order and with a
duplicate. -/
theorem mailbox_converges_rotated :
    (services.createLookupHashes rotatedRing "user").length = 2 ∧ ∃ m m' : Option MailboxState,
    Uniform (receiveAll services rotatedRing database [arrival hardBounce "e1",
      arrival delivered "e2"])
      (services.createLookupHashes rotatedRing "user") m ∧
    Uniform (receiveAll services rotatedRing database [arrival delivered "e1",
      arrival hardBounce "e2", arrival delivered "e3"])
      (services.createLookupHashes rotatedRing "user") m' ∧
    m.map MailboxState.columns = m'.map MailboxState.columns ∧
    ((∃ s, m = some s ∧ s.status = .suppressed) ↔
      ∃ t ∈ [hardBounce, delivered], t.event.isTerminalMailboxEvent = true) ∧
    ∀ s, m = some s → s.status = .suppressed →
      (∃ first ∈ [hardBounce, delivered], first.event.isTerminalMailboxEvent = true ∧
        s.suppressedAt = some first.providerTimestamp ∧
        ∀ t ∈ [hardBounce, delivered], t.event.isTerminalMailboxEvent = true →
          first.providerTimestamp ≤ t.providerTimestamp) ∧
      s.suppressionRevision = [hardBounce, delivered].dedup.countP fun t =>
        t.event.isTerminalMailboxEvent := by
  have hUnapplied : Unapplied services rotatedRing database (fun _ => accepted)
    [hardBounce, delivered] := unapplied (by decide)
  refine ⟨by decide, mailbox_converges services rotatedRing database "user" (fun _ =>
    accepted) [hardBounce, delivered]
    ⟨hUnapplied, ?_, fun _ _ => rfl⟩ _ _
      (orderOf_of_mem hUnapplied ?_ ⟨by decide, fun _ _ h => by cases h⟩)
    (orderOf_of_mem hUnapplied ?_ ⟨by decide, fun _ _ h => by cases h⟩)⟩
  · intro f hf
    simp only [List.mem_cons, List.not_mem_nil, or_false] at hf
    rcases hf with rfl | rfl <;> rfl
  · exact fun f => Iff.rfl
  · intro f
    simp only [List.map_cons, List.map_nil, arrival, List.mem_cons, List.not_mem_nil, or_false]
    tauto

end Sample

end Pixaeron.Notifications
