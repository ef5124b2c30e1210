import Pixaeron.Notifications.CommandResults
import Pixaeron.Notifications.Verified.Events

/-! # Events are applied once

The provider's queue may deliver an event any number of times, and several consumers may process it
at the same time. A delivery begins to follow the event in the transaction that stores it, and in no
other. -/

namespace Pixaeron.Notifications.Events

open Transactions

section Runs

variable {services : EmailServices} {now : Nat} {ring : KeyRing}
  {w : World notifications Call Outcome} {k : String}

theorem events_path (requestId : String)
    (hLeads : World.Leads (system services) (start now ring) w) :
    Path (fun e => (eventWatch k requestId).Legal e.call e.before e.after) emptyDatabase 0
      w.shared.history w.shared.db w.shared.now :=
  events_kept.path rests hLeads fun _ _ hTrusted => hTrusted.elim

/-- A transaction after which a delivery follows an event that it has not followed before has found
the event missing, and has stored it. -/
theorem applied_with_event (hLeads : World.Leads (system services) (start now ring) w) :
    ∀ e ∈ w.shared.history, ∀ requestId, FollowsEvent k requestId e.after →
      ¬ FollowsEvent k requestId e.before →
      e.before.events.get k = none ∧ e.after.events.get k ≠ none :=
  fun e he requestId hAfter hBefore =>
    ((events_path requestId hLeads).legal e he hAfter).resolve_left hBefore

/-- The transaction lets a delivery follow the event. -/
def Applies (k : String) (e : Entry notifications Call) : Prop :=
  ∃ requestId, FollowsEvent k requestId e.after ∧ ¬ FollowsEvent k requestId e.before

/-- As long as the event is kept, at most one transaction applies it to a delivery. -/
theorem applied_once (hLeads : World.Leads (system services) (start now ring) w)
    (hKept : ∀ e ∈ w.shared.history, e.before.events.get k ≠ none → e.after.events.get k ≠ none) :
    w.shared.history.Pairwise fun e e' => Applies k e → ¬ Applies k e' := by
  have hApplies : ∀ e ∈ w.shared.history, Applies k e →
    e.before.events.get k = none ∧ e.after.events.get k ≠ none := by
    rintro e he ⟨requestId, hAfter, hBefore⟩
    exact ((events_path requestId hLeads).legal e he hAfter).resolve_left hBefore
  have hPath : Path (fun e : Entry notifications Call =>
    (Applies k e → e.before.events.get k = none ∧ e.after.events.get k ≠ none) ∧
      (e.before.events.get k ≠ none → e.after.events.get k ≠ none)) emptyDatabase 0 w.shared.history
        w.shared.db w.shared.now :=
    (events_path (k := k) "" hLeads).mono fun e he => ⟨hApplies e he, hKept e he⟩
  refine hPath.pairwise (Q := fun (e : Entry notifications Call) (db : Database) =>
    Applies k e → db.events.get k ≠ none)
    (fun e hLegal hApply => (hLegal.1 hApply).2) fun e e' hLegal hLegal' hStored =>
      ⟨fun hApply => hLegal'.2 (hStored hApply), ?_⟩
  exact fun hApply hAgain => hStored hApply (hLegal'.1 hAgain).1

end Runs

namespace Sample

open Notifications.Sample

def told (snsMessageId drawn : String) : Call :=
  .processFeedback { delivered with recipient := "user@example.com", snsMessageId := snsMessageId }
    ⟨drawn, fun a => a.value⟩

/-- The queue brings an event in two messages, and two consumers begin to process it. -/
def twice : List (Action notifications Call) :=
  .spawn 0 (.send Deliveries.Sample.request none "delivery" 1) :: runsOf 0 8 ++
    .answer 0 (.accepted "message") ::
    .spawn 1 (told "sns1" "event") :: .spawn 2 (told "sns2" "other") :: runsOf 2 3 ++
      runsOf 1 15 ++ runsOf 2 3

def fingerprint : String := "v1messageDELIVERY2kuser@example.com"

/-- The fingerprint of the event that the delivery of the request follows. -/
def followed (requestId : String) (db : Database) : Option String :=
  (db.deliveries.get requestId).bind fun d => d.lastEvent.map EventRevision.fingerprint

theorem followsEvent_iff {k requestId : String} {db : Database} :
    FollowsEvent k requestId db ↔ followed requestId db = some k := by
  constructor
  · rintro ⟨d, revision, hRow, hLast, rfl⟩
    simp [followed, hRow, hLast]
  · intro h
    obtain ⟨d, hRow, hMap⟩ := Option.bind_eq_some_iff.mp h
    obtain ⟨revision, hLast, hKey⟩ := Option.map_eq_some_iff.mp hMap
    exact ⟨d, revision, hRow, hLast, hKey⟩

structure Observation where
  kept : Bool
  applying : Option (Option String × Option String)
  returned : Bool
deriving DecidableEq

def observed : Option Observation :=
  (World.run (system emailServices) (start 0 ring) twice).map fun w =>
    { kept := decide (∀ e ∈ w.shared.history,
      e.before.events.get fingerprint ≠ none → e.after.events.get fingerprint ≠ none)
      applying := w.shared.history[2]?.map fun e =>
        (followed "request" e.before, followed "request" e.after)
      returned := (w.returned 1).isSome && (w.returned 2).isSome }

theorem twice_end : ∃ w, World.Leads (system emailServices) (start 0 ring) w ∧
    (∀ e ∈ w.shared.history, e.before.events.get fingerprint ≠ none →
      e.after.events.get fingerprint ≠ none) ∧
    ∃ e ∈ w.shared.history, FollowsEvent fingerprint "request" e.after ∧
      ¬ FollowsEvent fingerprint "request" e.before := by
  have hRun : observed = some ⟨true, some (none, some fingerprint), true⟩ := by
    decide +kernel
  obtain ⟨w, hW, hEnd⟩ := Option.map_eq_some_iff.mp hRun
  obtain ⟨hKept, hApplying, _⟩ := (Observation.mk.injEq ..).mp hEnd
  obtain ⟨e, hE, hFollowed⟩ := Option.map_eq_some_iff.mp hApplying
  obtain ⟨hBefore, hAfter⟩ := (Prod.mk.injEq ..).mp hFollowed
  refine ⟨w, World.leads_of_run hW, of_decide_eq_true hKept, e, List.mem_of_getElem? hE,
    followsEvent_iff.mpr hAfter, fun hAlready => ?_⟩
  cases hBefore.symm.trans (followsEvent_iff.mp hAlready)

theorem applied_with_event_twice :
    ∃ w e, World.Leads (system emailServices) (start 0 ring) w ∧ e ∈ w.shared.history ∧
    e.before.events.get fingerprint = none ∧ e.after.events.get fingerprint ≠ none := by
  obtain ⟨w, hLeads, _, e, he, hAfter, hBefore⟩ := twice_end
  exact ⟨w, e, hLeads, he, applied_with_event hLeads e he "request" hAfter hBefore⟩

/-- The second message of the event has changed nothing. -/
theorem applied_once_twice : ∃ w, World.Leads (system emailServices) (start 0 ring) w ∧
    w.shared.history.Pairwise fun e e' => Applies fingerprint e → ¬ Applies fingerprint e' := by
  obtain ⟨w, hLeads, hKept, _⟩ := twice_end
  exact ⟨w, hLeads, applied_once hLeads hKept⟩

end Sample

end Pixaeron.Notifications.Events
