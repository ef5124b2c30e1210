import Pixaeron.Notifications.Submissions
import Pixaeron.Notifications.Verified.Blocking

/-! # Blocked mailboxes

However events, commands, recoveries and clean-ups interleave while the keys stay the same: the row
of an alias that blocks goes on blocking until a recovery that has been asked for is completed, or
until the clean-up retires the alias of an old key. As long as it blocks, no new command for it is
submitted. -/

namespace Pixaeron.Notifications.Destinations

open Transactions

section Runs

variable {services : EmailServices} {now : Nat} {ring : KeyRing} {alias_ : RecipientHash}
  {w w' : World notifications Call Outcome}

theorem destinations_path (hLeads : World.Leads (keyed services ring) (start now ring) w) :
    Path (destinationRegister services ring alias_).Legal emptyDatabase 0 w.shared.history
      w.shared.db w.shared.now :=
  destinations_followed.path destinations_start hLeads fun _ _ => trivial

theorem destinations_between (hFirst : World.Leads (keyed services ring) (start now ring) w)
    (hThen : World.Leads (keyed services ring) w w') :
    ∃ es, w'.shared.history = w.shared.history ++ es ∧
      ∃ t, Path (destinationRegister services ring alias_).Legal w.shared.db t es w'.shared.db
        w'.shared.now :=
  destinations_followed.between destinations_start hFirst hThen fun _ _ => trivial

theorem blocked_entry {e : Entry notifications Call} {d : EmailDestination}
    (hLegal : (destinationRegister services ring alias_).Legal e)
    (hBefore : e.before.destinations.get alias_ = some d) (hBlocked : d.blocked = true) :
    (∃ d', e.after.destinations.get alias_ = some d' ∧ d'.id = d.id ∧ d'.blocked = true) ∨
      Unblocks services ring alias_ e.call d (e.after.destinations.get alias_) := by
  have hRead : (destinationRegister services ring alias_).read e.before = some d := hBefore
  rcases moves_iff.mp hLegal.moves with hSame | hStep
  · exact .inl ⟨d, Eq.trans hSame hBefore, rfl, hBlocked⟩
  · rw [hRead] at hStep
    exact step_blocked hStep hBlocked

/-- A blocked alias is still blocked later, under the same identifier, unless one of the
transactions in between was the completion of its pending recovery or, for the alias of an old key,
its deletion. -/
theorem blocked_until_recovered (hFirst : World.Leads (keyed services ring) (start now ring) w)
    (hThen : World.Leads (keyed services ring) w w') {d : EmailDestination}
    (hRow : w.shared.db.destinations.get alias_ = some d) (hBlocked : d.blocked = true) :
    (∃ d', w'.shared.db.destinations.get alias_ = some d' ∧ d'.id = d.id ∧ d'.blocked = true) ∨
      ∃ e ∈ w'.shared.history.drop w.shared.history.length, ∃ d',
        e.before.destinations.get alias_ = some d' ∧ d'.id = d.id ∧
        Unblocks services ring alias_ e.call d' (e.after.destinations.get alias_) := by
  obtain ⟨es, hHistory, t, hPath⟩ : ∃ es, w'.shared.history = w.shared.history ++ es ∧
      ∃ t, Path (destinationRegister services ring alias_).Legal w.shared.db t es w'.shared.db
        w'.shared.now :=
    destinations_between hFirst hThen
  rw [hHistory, List.drop_left]
  refine hPath.preserves (P := fun (db : Database) _ =>
    (∃ d', db.destinations.get alias_ = some d' ∧ d'.id = d.id ∧
    d'.blocked = true) ∨ ∃ e ∈ es, ∃ d', e.before.destinations.get alias_ = some d' ∧ d'.id = d.id ∧
      Unblocks services ring alias_ e.call d' (e.after.destinations.get alias_))
        (fun _ _ _ _ h => h) ?_ (.inl ⟨d, hRow, rfl, hBlocked⟩)
  intro e he hLegal hSoFar
  rcases hSoFar with ⟨d', hBefore, hId, hStill⟩ | hDone
  · rcases blocked_entry hLegal hBefore hStill with ⟨d'', hAfter, hId', hBlocked'⟩ | hUnblocks
    · exact .inl ⟨d'', hAfter, hId'.trans hId, hBlocked'⟩
    · exact .inr ⟨e, he, d', hBefore, hId, hUnblocks⟩
  · exact .inr hDone

/-- Nothing but a request that names the current suppression makes a recovery pending. -/
theorem pending_by_request (hFirst : World.Leads (keyed services ring) (start now ring) w)
    (hThen : World.Leads (keyed services ring) w w')
    (hBefore : ¬ Pending (w.shared.db.destinations.get alias_))
    (hAfter : Pending (w'.shared.db.destinations.get alias_)) :
    ∃ e ∈ w'.shared.history.drop w.shared.history.length,
      Requests services ring alias_ e.call (e.before.destinations.get alias_) ∧
      Pending (e.after.destinations.get alias_) := by
  obtain ⟨es, hHistory, t, hPath⟩ : ∃ es, w'.shared.history = w.shared.history ++ es ∧
      ∃ t, Path (destinationRegister services ring alias_).Legal w.shared.db t es w'.shared.db
        w'.shared.now :=
    destinations_between hFirst hThen
  rw [hHistory, List.drop_left]
  refine hPath.preserves (P := fun (db : Database) _ =>
    Pending (db.destinations.get alias_) → ∃ e ∈ es,
    Requests services ring alias_ e.call (e.before.destinations.get alias_) ∧
      Pending (e.after.destinations.get alias_))
    (fun _ _ _ _ h => h) ?_ (fun hPending => absurd hPending hBefore) hAfter
  intro e he hLegal hSoFar hPending
  have hMoves : (destinationRegister services ring alias_).Moves e.call
    (e.before.destinations.get alias_)
      (e.after.destinations.get alias_) := hLegal.moves
  rcases moves_iff.mp hMoves with hSame | hStep
  · exact hSoFar (hSame ▸ hPending)
  · rcases step_pending hStep hPending with hAlready | hRequests
    · exact hSoFar hAlready
    · exact ⟨e, he, hRequests, hPending⟩

theorem blocking_path (hLeads : World.Leads (keyed services ring) (start now ring) w) {k : String} :
    Path (fun e => (blockWatch k alias_).Legal e.call e.before e.after) emptyDatabase 0
      w.shared.history w.shared.db w.shared.now := by
  refine blocking_kept.path rests hLeads fun e he hNot hOpen => ?_
  have hLegal : (destinationRegister services ring alias_).Legal e :=
    (destinations_path hLeads).legal e he
  rcases moves_iff.mp hLegal.moves with hSame | hStep
  · exact fun d hRow => hOpen d (hSame.symm.trans hRow)
  · exact step_unblocked hStep hNot hOpen

/-- A transaction after which the delivery of a request may be attempted for the first time has
found its alias not blocked when it committed. -/
theorem attemptable_while_open (hLeads : World.Leads (keyed services ring) (start now ring) w)
    {k : String} :
    ∀ e ∈ w.shared.history, Attemptable k alias_ e.after → Attemptable k alias_ e.before ∨
      ∀ d, e.before.destinations.get alias_ = some d → d.blocked = false :=
  (blocking_path hLeads).legal

theorem permitted_keyed {k : String} (call : Call) (s : Shared notifications Call) (ext : Outside)
    (script : Script notifications Outcome)
    (hProgram : keyed services ring call s = some (ext, script)) :
    Deliveries.submissionsOf k ext = Deliveries.submissionsOf k s.ext ∧
      script.Permitted (Deliveries.submissionPermit k) (Deliveries.Counts k call)
        (fun _ _ _ => True) false false := by
  -- The service starts the same script where these keys are deployed.
  have hSame (hCall : system services call (s.setExt ⟨s.ext.submissions, ring⟩) =
    some (⟨s.ext.submissions, ring⟩, scriptOf services ring call)) :
      (scriptOf services ring call).Permitted (Deliveries.submissionPermit k)
        (Deliveries.Counts k call) (fun _ _ _ => True) false false :=
    (Deliveries.permitted_system _ _ _ hCall).2
  cases call with
  | deploy _ => cases hProgram
  | _ =>
    cases hProgram
    exact ⟨rfl, hSame rfl⟩

/-- While the alias goes on blocking, no command makes a delivery to it attemptable, and the
provider is not asked to send a new one. -/
theorem not_submitted_while_blocked (hFirst : World.Leads (keyed services ring) (start now ring) w)
    (hThen : World.Leads (keyed services ring) w w') {k : String} {d : EmailDestination}
    (hRow : w.shared.db.destinations.get alias_ = some d) (hBlocked : d.blocked = true)
    (hStays : ∀ e ∈ w'.shared.history.drop w.shared.history.length, ∀ d',
      e.before.destinations.get alias_ = some d' →
      ¬ Unblocks services ring alias_ e.call d' (e.after.destinations.get alias_))
    (hNew : ¬ Attemptable k alias_ w.shared.db) :
    ¬ Attemptable k alias_ w'.shared.db ∧ (Deliveries.Retained k w' →
      (∃ delivery, w'.shared.db.deliveries.get k = some delivery ∧
        delivery.recipientHash = alias_) →
        Deliveries.submissionsOf k w'.shared.ext = 0) := by
  obtain ⟨es, hHistory, t, hPath⟩ : ∃ es, w'.shared.history = w.shared.history ++ es ∧
      ∃ t, Path (destinationRegister services ring alias_).Legal w.shared.db t es w'.shared.db
        w'.shared.now :=
    destinations_between hFirst hThen
  rw [hHistory, List.drop_left] at hStays
  have hLast :=
    hPath.preserves (P := fun (db : Database) _ =>
      (∃ d', db.destinations.get alias_ = some d' ∧ d'.blocked = true) ∧
    ¬ Attemptable k alias_ db) (fun _ _ _ _ h => h) (fun e he hLegal hSoFar => ?_)
      ⟨⟨d, hRow, hBlocked⟩, hNew⟩
  · refine ⟨hLast.2, fun hRetained hMine => ?_⟩
    obtain ⟨delivery, hGet, hAlias⟩ := hMine
    obtain ⟨_, hGranted⟩ :=
      World.asked_once Deliveries.keeping permitted_keyed (fun _ => rfl) rfl
        (hFirst.trans hThen) hRetained
    by_contra hAsked
    have hOnce : Deliveries.submissionsOf k w'.shared.ext = 1 :=
      Nat.le_antisymm hGranted.asked (Nat.one_le_iff_ne_zero.mpr hAsked)
    obtain ⟨attempted, hAttempted, hCount⟩ := (hGranted.spent hOnce).1
    cases hGet.symm.trans hAttempted
    exact hLast.2 ⟨delivery, hGet, hAlias, .inr hCount⟩
  · obtain ⟨⟨d', hBefore, hStill⟩, hNot⟩ := hSoFar
    refine ⟨?_, fun hAfter => ?_⟩
    · rcases blocked_entry hLegal hBefore hStill with ⟨d'', hAfter, _, hBlocked'⟩ | hUnblocks
      · exact ⟨d'', hAfter, hBlocked'⟩
      · exact absurd hUnblocks (hStays e he d' hBefore)
    · have hWatched : (blockWatch k alias_).Legal e.call e.before e.after :=
        (blocking_path (hFirst.trans hThen)).legal e (hHistory ▸ List.mem_append_right _ he)
      rcases hWatched hAfter with hAlready | hFree
      · exact hNot hAlready
      · cases (hFree d' hBefore).symm.trans hStill

end Runs

namespace Sample

open Notifications.Sample

def second : SendSecurityEmailRequest :=
  ⟨"second", "subject", "user@example.com", .passwordReset, "another", 1⟩

/-- An e-mail to the mailbox bounces. -/
def bounced : List (Action notifications Call) :=
  .spawn 0 (.send ⟨"request", "subject", "user@example.com", .passwordReset, "token",
    1⟩ none "delivery" 1) :: runsOf 0 7 ++
    .spawn 1 (.processFeedback { hardBounce with recipient := "user@example.com" }
      ⟨"event", fun a => a.value⟩) :: runsOf 1 18

/-- Another e-mail is to be sent, and a recovery is asked for. -/
def meanwhile : List (Action notifications Call) :=
  .spawn 2 (.send second none "another" 1) :: runsOf 2 7 ++
    .spawn 3 (.requestRecovery "user@example.com" evidence) :: runsOf 3 7

def mailbox : RecipientHash := emailServices.create ring "user@example.com"

/-- The calls that may unblock an alias. -/
def mayUnblock : Call → Bool
  | .completeRecovery _ _ => true
  | .cleanupExpiredHistory => true
  | _ => false

theorem mayUnblock_of_unblocks {services : EmailServices} {ring : KeyRing} {alias_ : RecipientHash}
    {call : Call} {d : EmailDestination} {r : Option EmailDestination}
    (h : Unblocks services ring alias_ call d r) : mayUnblock call = true := by
  cases h with
  | completed hCall => exact hCall ▸ rfl
  | retired hCall => exact hCall ▸ rfl

structure Observation where
  before : Option (Bool × EmailDestinationStatus)
  after : Option EmailDestinationStatus
  new : Bool
  mine : Option Bool
  retained : Bool
  quiet : Bool
deriving DecidableEq

def observed : Option Observation :=
  (World.run (keyed emailServices ring) (start 0 ring) bounced).bind fun w =>
    (World.run (keyed emailServices ring) w meanwhile).map fun w' =>
      { before := (w.shared.db.destinations.get mailbox).map fun d => (d.blocked, d.status)
        after := (w'.shared.db.destinations.get mailbox).map EmailDestination.status
        new := decide (w.shared.db.deliveries.get "second" = none)
        mine := (w'.shared.db.deliveries.get "second").map fun d =>
          decide (d.recipientHash = mailbox)
        retained := decide (Deliveries.Retained "second" w')
        quiet := decide (∀ e ∈ w'.shared.history.drop w.shared.history.length,
          mayUnblock e.call = false) }

theorem meanwhile_end : ∃ w w' d, World.Leads (keyed emailServices ring) (start 0 ring) w ∧
    World.Leads (keyed emailServices ring) w w' ∧ w.shared.db.destinations.get mailbox = some d ∧
    d.blocked = true ∧
    ¬ Pending (w.shared.db.destinations.get mailbox) ∧
    Pending (w'.shared.db.destinations.get mailbox) ∧
    w.shared.db.deliveries.get "second" = none ∧
    (∃ delivery, w'.shared.db.deliveries.get "second" = some delivery ∧
      delivery.recipientHash = mailbox) ∧
    Deliveries.Retained "second" w' ∧ ∀ e ∈ w'.shared.history.drop w.shared.history.length,
      mayUnblock e.call = false := by
  have hRun : observed = some ⟨some (true, .suppressed), some .recoveryPending, true, some true,
    true, true⟩ := by
    decide +kernel
  obtain ⟨w, hW, hEnd⟩ := Option.bind_eq_some_iff.mp hRun
  obtain ⟨w', hW', hFacts⟩ := Option.map_eq_some_iff.mp hEnd
  obtain ⟨hBefore, hAfter, hNew, hMine, hRetained, hQuiet⟩ := (Observation.mk.injEq ..).mp hFacts
  obtain ⟨d, hRow, hState⟩ := Option.map_eq_some_iff.mp hBefore
  obtain ⟨hBlocked, hStatus⟩ := (Prod.mk.injEq ..).mp hState
  obtain ⟨d', hRow', hStatus'⟩ := Option.map_eq_some_iff.mp hAfter
  obtain ⟨delivery, hDelivery, hAlias⟩ := Option.map_eq_some_iff.mp hMine
  refine ⟨w, w', d, World.leads_of_run hW, World.leads_of_run hW', hRow, hBlocked, ?_,
    ⟨d', hRow', hStatus'⟩,
    of_decide_eq_true hNew, ⟨delivery, hDelivery, of_decide_eq_true hAlias⟩,
      of_decide_eq_true hRetained, of_decide_eq_true hQuiet⟩
  rintro ⟨d'', hSame, hPending⟩
  cases hRow.symm.trans hSame
  cases hStatus.symm.trans hPending

/-- The mailbox is still blocked while its recovery is pending. -/
theorem blocked_until_recovered_meanwhile : ∃ w w' d, World.Leads (keyed emailServices ring) w w' ∧
    w.shared.db.destinations.get mailbox = some d ∧
    ∃ d', w'.shared.db.destinations.get mailbox = some d' ∧ d'.id = d.id ∧ d'.blocked = true := by
  obtain ⟨w, w', d, hFirst, hThen, hRow, hBlocked, _, _, _, _, _, hQuiet⟩ := meanwhile_end
  rcases blocked_until_recovered hFirst hThen hRow hBlocked with hStill |
    ⟨e, he, d', _, _, hUnblocks⟩
  · exact ⟨w, w', d, hThen, hRow, hStill⟩
  · cases (hQuiet e he).symm.trans (mayUnblock_of_unblocks hUnblocks)

/-- The recovery is pending because it has been asked for. -/
theorem pending_by_request_meanwhile :
    ∃ w, World.Leads (keyed emailServices ring) (start 0 ring) w ∧ ∃ e ∈ w.shared.history,
    Requests emailServices ring mailbox e.call (e.before.destinations.get mailbox) ∧
    Pending (e.after.destinations.get mailbox) := by
  obtain ⟨w, w', _, hFirst, hThen, _, _, hBefore, hAfter, _, _, _, _⟩ := meanwhile_end
  obtain ⟨e, he, hRequests⟩ := pending_by_request hFirst hThen hBefore hAfter
  exact ⟨w', hFirst.trans hThen, e, List.mem_of_mem_drop he, hRequests⟩

/-- The first e-mail is delivered. The second one has found the mailbox open, but has not committed,
when a bounce is told of, which has to wait for it. -/
def raced : List (Action notifications Call) :=
  .spawn 0 (.send ⟨"request", "subject", "user@example.com", .passwordReset, "token",
    1⟩ none "delivery" 1) :: runsOf 0 7 ++
    .spawn 4 (.processFeedback { delivered with recipient := "user@example.com" }
      ⟨"early", fun a => a.value⟩) :: runsOf 4 15 ++
    .tick 1 :: .spawn 2 (.send second none "another" 1) :: runsOf 2 6 ++
    .tick 1 :: .spawn 1 (.processFeedback { hardBounce with recipient := "user@example.com" }
      ⟨"event", fun a => a.value⟩) ::
    runsOf 1 9 ++ .tick 1 :: runsOf 2 1 ++ .tick 1 :: runsOf 1 8

/-- What an entry does to the second delivery and to the mailbox, and when. -/
structure Observed where
  startedAt : Nat
  endedAt : Nat
  before : Option EmailDeliveryStatus
  after : Option (EmailDeliveryStatus × RecipientHash)
  blocked : Option Bool
  blockedAfter : Option Bool
deriving DecidableEq

def observe (e : Entry notifications Call) : Observed where
  startedAt := e.startedAt
  endedAt := e.endedAt
  before := (e.before.deliveries.get "second").map EmailDelivery.status
  after := (e.after.deliveries.get "second").map fun d => (d.status, d.recipientHash)
  blocked := (e.before.destinations.get mailbox).map EmailDestination.blocked
  blockedAfter := (e.after.destinations.get mailbox).map EmailDestination.blocked

/-- The second e-mail becomes attemptable while the bounce is being processed, which blocks the
mailbox after that. -/
theorem attemptable_while_open_raced :
    ∃ w, World.Leads (keyed emailServices ring) (start 0 ring) w ∧
    ∃ e ∈ w.shared.history, ¬ Attemptable "second" mailbox e.before ∧
      Attemptable "second" mailbox e.after ∧
      (∃ d, e.before.destinations.get mailbox = some d ∧ d.blocked = false) ∧
      ∃ e' ∈ w.shared.history, e'.startedAt < e.endedAt ∧ e.endedAt < e'.endedAt ∧
        ∃ d', e'.after.destinations.get mailbox = some d' ∧ d'.blocked = true := by
  have hRun : (World.run (keyed emailServices ring) (start 0 ring) raced).map
    (fun w => (w.shared.history.drop 2).map observe) =
      some [⟨1, 3, none, some (.pending, mailbox), some false, some false⟩,
        ⟨2, 4, some .pending, some (.pending, mailbox), some false, some true⟩] := by
    decide +kernel
  obtain ⟨w, hW, hEntries⟩ := Option.map_eq_some_iff.mp hRun
  obtain ⟨e, rest, hList, hClaim, hRest⟩ := List.map_eq_cons_iff.mp hEntries
  obtain ⟨e', rest', hList', hBounce, -⟩ := List.map_eq_cons_iff.mp hRest
  simp only [observe, Observed.mk.injEq, Option.map_eq_none_iff, Option.map_eq_some_iff,
    Prod.mk.injEq] at hClaim hBounce
  obtain ⟨-, hEnded, hNone, ⟨d, hAfter, hPending, hAlias⟩, ⟨row, hRow, -⟩, -⟩ := hClaim
  obtain ⟨hStarted', hEnded', -, -, -, hBlocked⟩ := hBounce
  have hMem : e ∈ w.shared.history := List.mem_of_mem_drop (hList ▸ List.mem_cons_self)
  have hMem' : e' ∈ w.shared.history :=
    List.mem_of_mem_drop (hList ▸ List.mem_cons_of_mem _ (hList' ▸ List.mem_cons_self))
  have hNot : ¬ Attemptable "second" mailbox e.before := by
    rintro ⟨_, hSome, _⟩
    cases hNone.symm.trans hSome
  have hNow : Attemptable "second" mailbox e.after := ⟨d, hAfter, hAlias, .inl hPending⟩
  have hLeads := World.leads_of_run hW
  have hOpen := (attemptable_while_open hLeads e hMem hNow).resolve_left hNot
  exact ⟨w, hLeads, e, hMem, hNot, hNow, ⟨row, hRow, hOpen row hRow⟩, e', hMem',
    by omega, by omega, hBlocked⟩

/-- The second e-mail is not submitted. -/
theorem not_submitted_while_blocked_meanwhile :
    ∃ w, World.Leads (keyed emailServices ring) (start 0 ring) w ∧
    (∃ delivery, w.shared.db.deliveries.get "second" = some delivery ∧
      delivery.recipientHash = mailbox) ∧
    Deliveries.submissionsOf "second" w.shared.ext = 0 := by
  obtain ⟨w, w', d, hFirst, hThen, hRow, hBlocked, _, _, hNew, hMine, hRetained, hQuiet⟩ :=
    meanwhile_end
  have hNone : ¬ Attemptable "second" mailbox w.shared.db := by
    rintro ⟨_, hSome, _⟩
    cases hNew.symm.trans hSome
  obtain ⟨_, hNever⟩ := not_submitted_while_blocked hFirst hThen hRow hBlocked
    (fun e he d' _ hUnblocks =>
      by cases (hQuiet e he).symm.trans (mayUnblock_of_unblocks hUnblocks)) hNone
  exact ⟨w', hFirst.trans hThen, hMine, hNever hRetained hMine⟩

end Sample

end Pixaeron.Notifications.Destinations
