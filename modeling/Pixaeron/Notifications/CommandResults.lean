import Pixaeron.Notifications.Verified.Deliveries
import Pixaeron.Notifications.RecoveryReplay

/-! # The results of commands

However sends, feedback, reconciliation and clean-up interleave: while the delivery of a request is
retained, its result is decided once, everyone who learns a result learns that one, and an outcome
does not overwrite what feedback has told.
-/

namespace Pixaeron.Notifications.Deliveries

open Transactions

section Runs

variable {services : EmailServices} {now : Nat} {ring : KeyRing} {requestId : String}
  {w : World notifications Call Outcome}

/-- No transaction so far has deleted the delivery of the request. -/
def Retained (requestId : String) (w : World notifications Call Outcome) : Prop :=
  ∀ e ∈ w.shared.history, e.before.deliveries.get requestId ≠ none →
    e.after.deliveries.get requestId ≠ none

instance : Decidable (Retained requestId w) :=
  inferInstanceAs (Decidable (∀ e ∈ w.shared.history,
    e.before.deliveries.get requestId ≠ none → e.after.deliveries.get requestId ≠ none))

theorem deliveries_path (hLeads : World.Leads (system services) (start now ring) w)
    (hRetained : Retained requestId w) :
    Path (deliveryRegister requestId).Legal emptyDatabase 0 w.shared.history w.shared.db
      w.shared.now :=
  deliveries_followed.path deliveries_start hLeads hRetained

theorem settled_path {db : Database} {t : Nat} {es : List (Entry notifications Call)}
    (h : Path (deliveryRegister requestId).Legal emptyDatabase 0 es db t) :
    Settled (db.deliveries.get requestId) :=
  h.preserves (P := fun (db : Database) _ => Settled (db.deliveries.get requestId))
    (fun _ _ _ _ hSettled => hSettled)
    (fun _ _ hLegal _ => hLegal.fit) (deliveries_start (k := requestId))

theorem answered_path {db : Database} {t : Nat} {es : List (Entry notifications Call)}
    (h : Path (deliveryRegister requestId).Legal emptyDatabase 0 es db t) :
    ∀ e ∈ es, ∀ d, e.after.deliveries.get requestId = some d →
      (d.status = .pending ↔ d.callerResult = none) :=
  fun e hMem d hRow => ((h.legal e hMem).fit d hRow).answered

theorem carries_path {db : Database} {t : Nat} {es : List (Entry notifications Call)}
    (h : Path (deliveryRegister requestId).Legal emptyDatabase 0 es db t) :
    es.Pairwise fun e e' => ∀ d, e.after.deliveries.get requestId = some d →
      ∃ d', e'.after.deliveries.get requestId = some d' ∧ d.Carries d' := by
  refine h.pairwise
    (Q := fun (e : Entry notifications Call) (db : Database) => ∀ d,
      e.after.deliveries.get requestId = some d →
      ∃ d', db.deliveries.get requestId = some d' ∧ d.Carries d')
    (fun _ _ d hd => ⟨d, hd, .refl d⟩) fun e e' _ hLegal hSoFar => ?_
  have hNext : ∀ d, e.after.deliveries.get requestId = some d → ∃ d',
    e'.after.deliveries.get requestId = some d' ∧ d.Carries d' := by
    intro d hd
    obtain ⟨d', hd', hCarries⟩ := hSoFar d hd
    have hCommits : (deliveryRegister requestId).Commits e'.call (some d')
      (e'.after.deliveries.get requestId) := hd' ▸ hLegal
    obtain ⟨d'', hd'', hMore⟩ := commits_carries hCommits
    exact ⟨d'', hd'', hCarries.trans hMore⟩
  exact ⟨hNext, hNext⟩

theorem spares_path {db : Database} {t : Nat} {es : List (Entry notifications Call)}
    (h : Path (deliveryRegister requestId).Legal emptyDatabase 0 es db t) :
    ∀ e ∈ es, ¬ e.call.IsFeedback → ∀ d, e.before.deliveries.get requestId = some d →
      d.lastEvent ≠ none → ∃ d', e.after.deliveries.get requestId = some d' ∧ d.Spares d' := by
  refine h.all (Q := fun (db : Database) => Settled (db.deliveries.get requestId))
    (fun e hLegal hSettled => ⟨hLegal.fit, fun hOther d hRow hEvent => ?_⟩)
    (deliveries_start (k := requestId))
  obtain ⟨hPending, hUnknown⟩ := (hSettled d hRow).followed hEvent
  have hCommits : (deliveryRegister requestId).Commits e.call (some d)
    (e.after.deliveries.get requestId) := hRow ▸ hLegal
  exact commits_spares hCommits hOther hPending hUnknown

/-- The row reports what a command for the request has returned. -/
theorem reports_of_returned (hLeads : World.Leads (system services) (start now ring) w)
    (hRetained : Retained requestId w) {sid : Nat} {session : Session notifications Call Outcome}
    (hSession : w.sessions sid = some session) {request : SendSecurityEmailRequest}
    {deadlineAt : Option Nat} {drawn : String} {polls : Nat}
    (hCall : session.call = .send request deadlineAt drawn polls)
    (hRequest : request.requestId = requestId) {response : SendSecurityEmailResponse}
    (hReturned : w.returned sid = some (.responded (.ok response))) :
    Reports response (w.shared.db.deliveries.get requestId) := by
  have hFollows (s : Shared notifications Call) (ext : Outside)
    (script : Script notifications Outcome)
      (hProgram : system services (.send request deadlineAt drawn polls) s = some (ext, script))
        (seen : Option EmailDelivery)
      (hSettled : Settled seen) : Follows requestId (.send request deadlineAt drawn polls)
        (fun stage outcome r => stage = .outside ∧ ∀ response,
          outcome = .responded (.ok response) → Reports response r)
        script .outside seen := by
    cases hProgram
    refine ((follows_sendSecurityEmail ⟨request, deadlineAt, drawn, polls, rfl⟩ hSettled).mono
      ?_).bind
    rintro stage result r ⟨rfl, hReports⟩
    refine follows_done ⟨rfl, fun response hResponse => ?_⟩
    cases hResponse
    exact hReports response rfl hRequest
  obtain ⟨seen, hReports, hLater⟩ :=
    deliveries_followed.returned deliveries_start hFollows hLeads hRetained hSession hCall hReturned
  intro hKnown
  obtain ⟨d, rfl, hResult, hResponse⟩ := hReports response rfl hKnown
  obtain ⟨d', hRow, hCarries⟩ := later_carries hLater
  obtain ⟨hSame, hCode, _⟩ := hCarries.callerResult (by simp [hResult])
  exact ⟨d', hRow, hSame.trans hResult, by rw [hCode]; exact hResponse⟩

/-- Once a transaction has left the delivery with a result, a message identifier or a time of
submission, every later one leaves it with the same; what identifies the command never changes. -/
theorem delivery_written_once (hLeads : World.Leads (system services) (start now ring) w)
    (hRetained : Retained requestId w) :
    w.shared.history.Pairwise fun e e' => ∀ d, e.after.deliveries.get requestId = some d →
      ∃ d', e'.after.deliveries.get requestId = some d' ∧ d.Carries d' :=
  carries_path (deliveries_path hLeads hRetained)

/-- In every committed state a delivery is pending exactly while it has no result. -/
theorem pending_iff_unanswered (hLeads : World.Leads (system services) (start now ring) w)
    (hRetained : Retained requestId w) {d : EmailDelivery}
    (hRow : w.shared.db.deliveries.get requestId = some d) :
    d.status = .pending ↔ d.callerResult = none :=
  (settled_path (deliveries_path hLeads hRetained) d hRow).answered

/-- What a command for the request returns is what its row says from then on, unless the command
does not know. -/
theorem response_recorded (hLeads : World.Leads (system services) (start now ring) w)
    (hRetained : Retained requestId w) {sid : Nat} {session : Session notifications Call Outcome}
    (hSession : w.sessions sid = some session) {request : SendSecurityEmailRequest}
    {deadlineAt : Option Nat} {drawn : String} {polls : Nat}
    (hCall : session.call = .send request deadlineAt drawn polls)
    (hRequest : request.requestId = requestId) {response : SendSecurityEmailResponse}
    (hReturned : w.returned sid = some (.responded (.ok response)))
    (hKnown : response.result ≠ .submissionUnknown) :
    ∃ d, w.shared.db.deliveries.get requestId = some d ∧ d.callerResult = some response.result ∧
      response = toCommandResponse response.result d.callerResultCode :=
  reports_of_returned hLeads hRetained hSession hCall hRequest hReturned hKnown

/-- A command that commits leaves alone the status, the failure code and the event of a delivery
that feedback has touched. -/
theorem outcome_spares_feedback (hLeads : World.Leads (system services) (start now ring) w)
    (hRetained : Retained requestId w) :
    ∀ e ∈ w.shared.history, ∀ request deadlineAt drawn polls,
      e.call = .send request deadlineAt drawn polls →
      ∀ d, e.before.deliveries.get requestId = some d → d.lastEvent ≠ none →
        ∃ d', e.after.deliveries.get requestId = some d' ∧ d.Spares d' := by
  intro e hMem request deadlineAt drawn polls hCall
  refine spares_path (deliveries_path hLeads hRetained) e hMem ?_
  rintro ⟨_, _, hFeedback⟩
  cases hCall.symm.trans hFeedback

end Runs

namespace Sample

open Notifications.Sample

def request : SendSecurityEmailRequest :=
  ⟨"request", "subject", "user@example.com", .passwordReset, "token", 1⟩

/-- The e-mail is submitted, and its delivery is told of before the outcome has been stored. -/
def overtaken : List (Action notifications Call) :=
  .spawn 0 (.send request none "delivery" 1) :: runsOf 0 8 ++ .answer 0 (.accepted "message") ::
    .spawn 1 (.processFeedback { delivered with recipient := "user@example.com" }
      ⟨"event", fun a => a.value⟩) ::
    runsOf 1 15 ++ runsOf 0 9

def sent : Call → Option (SendSecurityEmailRequest × Option Nat × String × Nat)
  | .send request deadlineAt drawn polls => some (request, deadlineAt, drawn, polls)
  | _ => none

theorem call_of_sent {call : Call} {request : SendSecurityEmailRequest} {deadlineAt : Option Nat}
    {drawn : String} {polls : Nat} (h : sent call = some (request, deadlineAt, drawn, polls)) :
    call = .send request deadlineAt drawn polls := by
  cases call <;> simp_all [sent]

structure Observation where
  retained : Bool
  row : Bool
  call : Option (Option (SendSecurityEmailRequest × Option Nat × String × Nat))
  response : Option (Option SendSecurityEmailResponse)
  lastCall : Option (Option (SendSecurityEmailRequest × Option Nat × String × Nat))
  lastEvent : Option (Option Bool)
deriving DecidableEq

def observed : Option Observation :=
  (World.run (system emailServices) (start 0 ring) overtaken).map fun w =>
    { retained := decide (Retained "request" w)
      row := (w.shared.db.deliveries.get "request").isSome
      call := (w.sessions 0).map fun session => sent session.call
      response := (w.returned 0).map fun outcome =>
        match outcome with | .responded (.ok response) => some response | _ => none
      lastCall := w.shared.history.getLast?.map fun e => sent e.call
      lastEvent := w.shared.history.getLast?.map fun e =>
        (e.before.deliveries.get "request").map fun d => decide (d.lastEvent ≠ none) }

theorem overtaken_end : ∃ w, World.Leads (system emailServices) (start 0 ring) w ∧
    Retained "request" w ∧
    (∃ session, w.sessions 0 = some session ∧ session.call = .send request none "delivery" 1) ∧
    w.returned 0 = some (.responded (.ok ⟨.accepted, none⟩)) ∧
    (∃ d, w.shared.db.deliveries.get "request" = some d) ∧
    ∃ e ∈ w.shared.history, e.call = .send request none "delivery" 1 ∧
      ∃ d, e.before.deliveries.get "request" = some d ∧ d.lastEvent ≠ none := by
  have hRun : observed = some ⟨true, true, some (some (request, none, "delivery", 1)),
    some (some ⟨.accepted, none⟩),
      some (some (request, none, "delivery", 1)), some (some true)⟩ := by
    decide +kernel
  obtain ⟨w, hW, hEnd⟩ := Option.map_eq_some_iff.mp hRun
  obtain ⟨hRetained, hRow', hCall, hResponse, hLastCall, hLastEvent⟩ :=
    (Observation.mk.injEq ..).mp hEnd
  obtain ⟨session, hSession, hSent⟩ := Option.map_eq_some_iff.mp hCall
  obtain ⟨outcome, hReturned, hOk⟩ := Option.map_eq_some_iff.mp hResponse
  obtain ⟨e, hE, hLastSent⟩ := Option.map_eq_some_iff.mp hLastCall
  rw [hE] at hLastEvent
  obtain ⟨d, hRow, hEvent⟩ := Option.map_eq_some_iff.mp (Option.some.inj hLastEvent)
  refine ⟨w, World.leads_of_run hW, of_decide_eq_true hRetained,
    ⟨session, hSession, call_of_sent hSent⟩, ?_,
    Option.isSome_iff_exists.mp hRow', e, List.mem_of_getLast? hE, call_of_sent hLastSent, d, hRow,
      of_decide_eq_true hEvent⟩
  rw [hReturned]
  split at hOk
  · cases hOk
    rfl
  · cases hOk

/-- The command returns what feedback and its own outcome have stored. -/
theorem response_recorded_overtaken : ∃ w d, World.Leads (system emailServices) (start 0 ring) w ∧
    w.shared.db.deliveries.get "request" = some d ∧ d.callerResult = some .accepted := by
  obtain ⟨w, hLeads, hRetained, ⟨session, hSession, hCall⟩, hReturned, _, _⟩ := overtaken_end
  obtain ⟨d, hRow, hResult, _⟩ :=
    response_recorded hLeads hRetained hSession hCall rfl hReturned (by decide)
  exact ⟨w, d, hLeads, hRow, hResult⟩

/-- The outcome that comes after the event leaves its status alone. -/
theorem outcome_spares_feedback_overtaken :
    ∃ w e d d', World.Leads (system emailServices) (start 0 ring) w ∧
    e ∈ w.shared.history ∧ e.before.deliveries.get "request" = some d ∧ d.lastEvent ≠ none ∧
    e.after.deliveries.get "request" = some d' ∧ d.Spares d' := by
  obtain ⟨w, hLeads, hRetained, _, _, _, e, hMem, hCall, d, hRow, hEvent⟩ := overtaken_end
  obtain ⟨d', hAfter, hSpares⟩ :=
    outcome_spares_feedback hLeads hRetained e hMem _ _ _ _ hCall d hRow hEvent
  exact ⟨w, e, d, d', hLeads, hMem, hRow, hEvent, hAfter, hSpares⟩

/-- The transactions of the command and of the event write the row once. -/
theorem delivery_written_once_overtaken : ∃ w, World.Leads (system emailServices) (start 0 ring) w ∧
    w.shared.history.Pairwise fun e e' => ∀ d, e.after.deliveries.get "request" = some d →
      ∃ d', e'.after.deliveries.get "request" = some d' ∧ d.Carries d' := by
  obtain ⟨w, hLeads, hRetained, _⟩ := overtaken_end
  exact ⟨w, hLeads, delivery_written_once hLeads hRetained⟩

/-- The row of the command is not pending any more. -/
theorem pending_iff_unanswered_overtaken :
    ∃ w d, World.Leads (system emailServices) (start 0 ring) w ∧
    w.shared.db.deliveries.get "request" = some d ∧
    (d.status = .pending ↔ d.callerResult = none) := by
  obtain ⟨w, hLeads, hRetained, _, _, ⟨d, hRow⟩, _⟩ := overtaken_end
  exact ⟨w, d, hLeads, hRow, pending_iff_unanswered hLeads hRetained hRow⟩

end Sample

end Pixaeron.Notifications.Deliveries
