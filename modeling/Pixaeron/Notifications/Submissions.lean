import Pixaeron.Transactions.Permits
import Pixaeron.Notifications.CommandResults
import Pixaeron.Notifications.Verified.Writes

/-! # Submissions

An e-mail is submitted only by the command whose own update has counted the first attempt of the
delivery. While the delivery is retained the count does not go back, so the provider is asked at
most once for a request, even if the command that asks dies before it has stored the outcome.
-/

namespace Pixaeron.Notifications.Deliveries

open Transactions Transactions.Script

section Service

variable {services : EmailServices} {ring : KeyRing} {k : String} {α : Type}

def Attempted (k : String) (db : Database) : Prop :=
  ∃ d, db.deliveries.get k = some d ∧ d.attemptCount ≠ 0

def submissionsOf (k : String) (ext : Outside) : Nat :=
  (ext.submissions.filter fun submission => submission.requestId = k).length

/-- Whoever submits an e-mail for the request has to have counted the first attempt. -/
def submissionPermit (k : String) : Permit notifications := ⟨Attempted k, submissionsOf k⟩

/-- What the statements of a call do to the count. -/
def Counts (k : String) (call : Call) (change : Database → Database) : Prop :=
  match call with
  | .cleanupExpiredHistory =>
    ∀ db, (change db).deliveries.get k = db.deliveries.get k ∨ (change db).deliveries.get k = none
  | _ => ∀ db, Attempted k db → Attempted k (change db)

theorem counts_of_same {call : Call} {change : Database → Database}
    (h : ∀ db, (change db).deliveries.get k = db.deliveries.get k) : Counts k call change := by
  have hAttempted : ∀ db, Attempted k db → Attempted k (change db) := by
    rintro db ⟨d, hRow, hCount⟩
    exact ⟨d, (h db).trans hRow, hCount⟩
  cases call with
  | cleanupExpiredHistory => exact fun db => .inl (h db)
  | _ => exact hAttempted

theorem keeping : World.Keeping (submissionPermit k) (Counts k)
    fun before after => before.deliveries.get k ≠ none → after.deliveries.get k ≠ none where
  same _ := counts_of_same fun _ => rfl
  comp call f g hf hg := by
    cases call with
    | cleanupExpiredHistory =>
      intro db
      rcases hf (g db) with hSame | hNone
      · exact (hg db).imp (hSame.trans ·) (hSame.trans ·)
      · exact .inr hNone
    | _ => exact fun db hAttempted => hf (g db) (hg db hAttempted)
  marked call f db hf hMarked hStays := by
    cases call with
    | cleanupExpiredHistory =>
      obtain ⟨d, hRow, hCount⟩ := hMarked
      rcases hf db with hSame | hNone
      · exact ⟨d, hSame.trans hRow, hCount⟩
      · exact absurd hNone (hStays (by simp [hRow]))
    | _ => exact hf db hMarked

variable {call : Call} {delivery : EmailDelivery} {request : SendSecurityEmailRequest}
  {tx permit : Bool}

/-- The statements of a script that is not the clean-up. -/
abbrev Counting (k : String) (call : Call) (p : Script notifications α) : Prop :=
  p.Writes (Counts k call) (submissionPermit k).Mild

abbrev Permitted (k : String) (call : Call) (Q : Bool → Bool → α → Prop)
    (p : Script notifications α) (tx permit : Bool) : Prop :=
  p.Permitted (submissionPermit k) (Counts k call) Q tx permit

section Counting

variable (hCall : call ≠ .cleanupExpiredHistory)
include hCall

theorem counts_of_attempted {change : Database → Database}
    (h : ∀ db, Attempted k db → Attempted k (change db)) :
    Counts k call change := by
  cases call with
  | cleanupExpiredHistory => exact absurd rfl hCall
  | _ => exact h

theorem counts_changeDeliveries {keys : List String} {change : DeliveryChange}
    (h : ∀ d, d.attemptCount ≠ 0 → (change.apply d).attemptCount ≠ 0) :
    Counts k call fun db => db.changeDeliveries keys change := by
  refine counts_of_attempted hCall fun db hAttempted => ?_
  obtain ⟨d, hRow, hCount⟩ := hAttempted
  refine ⟨if k ∈ keys then change.apply d else d, ?_, ?_⟩
  · simp [Database.changeDeliveries, Table.get_modify, hRow]
  · split
    · exact h d hCount
    · exact hCount

theorem allows_counts : AllowsDeliveries (Counts k call) where
  other _ h := counts_of_same fun db => congrArg (fun deliveries => Table.get deliveries k) (h db).1
  modest _ _ hModest := counts_changeDeliveries hCall fun d hCount =>
    (hModest.attempts d).symm ▸ hCount

theorem counting_createDelivery {recipientHash : RecipientHash} {blocked : Bool} {id : String}
    {now : Nat} :
    Counting k call (createDelivery services request recipientHash blocked id now) := by
  refine Writes.bind (Writes.change fun v => ?_) fun _ => Writes.check.bind fun _ => trivial
  refine counts_of_attempted hCall fun db hAttempted => ?_
  split
  · exact hAttempted
  · obtain ⟨d, hRow, hCount⟩ := hAttempted
    exact ⟨d, by simp [Database.insertDelivery, Table.get_insert, hRow], hCount⟩

end Counting

theorem counting_query {name : Statement} {answer : View notifications → α} :
    Counting k call (query name answer) :=
  Writes.query (counts_of_same fun _ => rfl)

theorem counting_aside {p : Script notifications α} (h : Aside k p) : Counting k call p :=
  h.writes fun _ hSame => counts_of_same hSame

/-! ## Commands -/

theorem asks_submit {submission : Submission} (h : submission.requestId = k) :
    (submissionPermit k).Asks (Outside.submit submission) := by
  intro reply ext ext' hEffect
  unfold Outside.submit at hEffect
  split at hEffect <;> cases hEffect
  simp [submissionPermit, submissionsOf, List.filter_append, h]

theorem mild_submit_other {submission : Submission} (h : submission.requestId ≠ k) :
    (submissionPermit k).Mild (Outside.submit submission) := by
  intro reply ext ext' hEffect
  unfold Outside.submit at hEffect
  split at hEffect <;> cases hEffect
  simp [submissionPermit, submissionsOf, List.filter_append, h]

theorem attempt_marks {v : View notifications} (hKey : delivery.requestId = k)
    (hOne : (v.db.deliveries.select fun d => delivery.is d && d.status =
      .pending && d.attemptCount = 0).length = 1) :
    ¬ Attempted k v.db ∧ Attempted k (v.db.changeDeliveries
      ((v.db.deliveries.select fun d => delivery.is d && d.status = .pending && d.attemptCount =
        0).map EmailDelivery.requestId)
      EmailDelivery.setAttempted) := by
  obtain ⟨d, hd⟩ := List.length_eq_one_iff.mp hOne
  have hMem : d ∈ v.db.deliveries.select fun d =>
    delivery.is d && d.status = .pending && d.attemptCount = 0 := by
    rw [hd]
    exact List.mem_singleton_self d
  obtain ⟨hRow, hWhere⟩ := Table.mem_select.mp hMem
  have hWhere' := hWhere
  simp only [Bool.and_eq_true, decide_eq_true_eq, is_iff] at hWhere'
  obtain ⟨⟨⟨hRequest, _⟩, _⟩, hFirst⟩ := hWhere'
  have hGet : v.db.deliveries.get k = some d := by
    rw [← hKey, ← hRequest]
    exact Table.get_of_mem hRow
  constructor
  · rintro ⟨d', hGet', hCount⟩
    cases hGet.symm.trans hGet'
    exact hCount hFirst
  · refine ⟨EmailDelivery.setAttempted.apply d, ?_, one_ne_zero⟩
    rw [get_changeDeliveries rfl, hGet, Option.map_some, if_pos hWhere]

section Sends

variable (hSend : call.IsSend)
include hSend

theorem not_cleanup : call ≠ .cleanupExpiredHistory := by
  obtain ⟨_, _, _, _, rfl⟩ := hSend
  simp

theorem permitted_claimDelivery {recipientHash : RecipientHash} {lookupHashes : List RecipientHash}
    {drawn : String} :
    Permitted k call (fun tx _ result => tx = false ∧ ∀ claim,
      result = .ok claim → claim.delivery.requestId = request.requestId)
      (claimDelivery services request recipientHash lookupHashes drawn) tx permit := by
  have hError {error : Failure} : ∀ claim : DeliveryClaim,
    (.error error : Except Failure DeliveryClaim) = .ok claim →
      claim.delivery.requestId = request.requestId := fun _ hOk => by cases hOk
  have hFound {v : View notifications} {found : EmailDelivery} {isNew : Bool}
      (hGet : v.db.deliveries.get request.requestId = some found) :
      ∀ claim, (.ok ⟨found, isNew⟩ : Except Failure DeliveryClaim) = .ok claim →
        claim.delivery.requestId = request.requestId := by
    intro claim hClaim
    cases hClaim
    exact Table.key_of_get hGet
  have hId : Counts k call id := counts_of_same fun _ => rfl
  refine Permitted.transaction (fun error => ?_)
    (Permitted.bind (Permitted.bind (Permitted.query hId fun v => ?_)))
  · dsimp only
    split
    · exact ⟨rfl, hError⟩
    · refine Permitted.bind (Permitted.query hId fun v => ?_)
      cases hGet : v.db.deliveries.get request.requestId with
      | none => exact ⟨rfl, hError⟩
      | some found =>
        dsimp only
        split
        · exact ⟨rfl, hFound hGet⟩
        · exact ⟨rfl, hError⟩
  · cases hGet : v.db.deliveries.get request.requestId with
    | some found => exact Permitted.bind (Permitted.check ⟨rfl, hFound hGet⟩)
    | none =>
      refine Permitted.bind (Permitted.of_writes (counting_aside aside_lockRecipientAliases)
        fun tx permit _ =>
        Permitted.bind (Permitted.of_writes counting_query fun tx permit blocked =>
          Permitted.bind (Permitted.of_writes Writes.readClock
          fun tx permit now => Permitted.bind ?_)))
      refine Permitted.bind fun v =>
        ⟨(counting_createDelivery (not_cleanup hSend) v).1,
        .inl (Permitted.bind (Permitted.check ?_))⟩
      refine ⟨rfl, fun claim hClaim => ?_⟩
      cases hClaim
      rfl

theorem permitted_submit {recipient : String} (hSame : delivery.requestId = request.requestId) :
    Permitted k call (fun _ _ _ => True) (submit delivery request recipient) false permit := by
  have hStored {tx permit : Bool} (submission : SesSubmissionResult) : Permitted k call
    (fun _ _ _ => True)
      ((finalizeResult delivery submission).bind fun response => .done
        (.ok response : Except Failure SendSecurityEmailResponse)) tx permit :=
    Permitted.of_writes ((writes_finalizeResult (allows_counts (not_cleanup hSend))).bind
      fun _ => trivial) fun _ _ _ => trivial
  -- The rest of a command that may submit: only with the permit if the request is this one.
  have hRest {permit : Bool} (hPermit : request.requestId = k → permit = true) : Permitted k call
    (fun _ _ _ => True)
      ((createSubmission delivery request recipient).bind fun submission =>
        (finalizeResult delivery submission).bind fun response => .done
          (.ok response : Except Failure SendSecurityEmailResponse)) false permit := by
    unfold createSubmission
    split
    · by_cases hMine : request.requestId = k
      · exact .inr ⟨hPermit hMine, asks_submit hMine, fun reply => hStored reply⟩
      · exact .inl ⟨mild_submit_other hMine, fun reply => hStored reply⟩
    · exact hStored _
  have hOther {permit : Bool} {next : Except Failure EmailDelivery →
    Script notifications (Except Failure SendSecurityEmailResponse)}
      (hNext : ∀ found, Counting k call (next found)) :
      Permitted k call (fun _ _ _ => True) ((findByIdOrThrow delivery).bind next) false permit :=
    Permitted.of_writes ((only_findByIdOrThrow (allows_counts (not_cleanup hSend))).writes.bind
      hNext) fun _ _ _ => trivial
  refine Permitted.bind fun v =>
    ⟨counts_changeDeliveries (not_cleanup hSend) fun _ _ => one_ne_zero, ?_⟩
  by_cases hGranted : request.requestId = k ∧
      (v.db.deliveries.select fun d => delivery.is d && d.status = .pending && d.attemptCount =
        0).length = 1
  · obtain ⟨hBefore, hAfter⟩ := attempt_marks (hSame.trans hGranted.1) hGranted.2
    refine .inr ⟨rfl, hBefore, hAfter, ?_⟩
    show Permitted k call _ (if _ then _ else _) _ _
    rw [if_neg (not_not.mpr hGranted.2)]
    exact hRest fun _ => rfl
  · refine .inl ?_
    show Permitted k call _ (if _ then _ else _) _ _
    split
    · exact hOther fun found => by cases found <;> trivial
    next hOne => exact hRest fun hMine => absurd ⟨hMine, not_not.mp hOne⟩ hGranted

theorem permitted_sendSecurityEmail {deadlineAt : Option Nat} {drawn : String} {polls : Nat} :
    Permitted k call (fun _ _ _ => True)
      (sendSecurityEmail services ring request deadlineAt drawn polls) false false := by
  refine Permitted.bind ((permitted_claimDelivery hSend).mono ?_)
  rintro _ permit result ⟨rfl, hClaim⟩
  cases result with
  | error error => trivial
  | ok claim =>
    dsimp only
    split
    · trivial
    · split
      · exact Permitted.of_writes (only_waitForCallerResult
          (allows_counts (not_cleanup hSend))).writes fun _ _ _ => trivial
      · exact permitted_submit hSend (hClaim claim rfl)

end Sends

/-! ## The other calls -/

section Feedback

variable {base : Services} {feedback : SesFeedback} {recipientHashes : List RecipientHash}
  {drawn : DrawnFeedback}

theorem counting_persist (hCall : call ≠ .cleanupExpiredHistory) :
    Counting k call (persist base feedback recipientHashes drawn) := by
  have hAllows := allows_counts (k := k) hCall
  refine (only_findDelivery hAllows).writes.bind fun delivery =>
    (only_attachProviderMessageId hAllows).writes.bind fun _ =>
    Writes.check.bind fun _ => counting_query.bind fun duplicate => ?_
  cases duplicate with
  | some event => exact Writes.check.bind fun _ => trivial
  | none =>
    exact (only_createEvent hAllows fun _ => counts_of_same fun _ => rfl).writes.bind fun _ =>
      Writes.bind ((only_recordProviderAcceptance hAllows).writes.bind fun _ =>
      (only_applyDeliveryTransition fun _ _ => counts_changeDeliveries hCall
        fun _ hCount => hCount).writes.bind fun _ =>
        counting_aside aside_applyDestinationTransition) fun _ => trivial

theorem counting_processFeedback (hCall : call ≠ .cleanupExpiredHistory) :
    Counting k call (processFeedback base ring feedback drawn) := by
  refine Writes.transaction ((counting_persist hCall).bind fun _ => trivial) fun error => ?_
  split
  · exact Writes.transaction ((only_isCommittedDuplicate (allows_counts hCall)).writes.bind fun _ =>
      Writes.check.bind fun _ => trivial)
      fun _ => trivial
  · trivial

end Feedback

theorem counts_aside {call : Call} (change : Database → Database)
    (h : ∀ db, (change db).deliveries = db.deliveries ∧ (change db).events = db.events) :
    Counts k call change :=
  counts_of_same fun db => congrArg (fun deliveries => Table.get deliveries k) (h db).1

theorem counting_transition {recipient : String} {change : RecoveryTransition}
    {evidence : RecoveryEvidence} :
    Counting k call (transition services ring recipient change evidence) :=
  writes_transition counts_aside

theorem counting_cleanupExpiredHistory :
    Counting k .cleanupExpiredHistory (cleanupExpiredHistory services ring) := by
  refine writes_cleanupExpiredHistory counts_aside
    (fun _ => counts_of_same fun _ => rfl) fun p db => ?_
  show (db.deliveries.delete p).get k = _ ∨ (db.deliveries.delete p).get k = none
  rw [Table.get_delete]
  cases db.deliveries.get k with
  | none => exact .inr rfl
  | some d =>
    rw [Option.filter_some]
    split
    · exact .inl rfl
    · exact .inr rfl

/-! ## The service -/

theorem permitted_system (s : Shared notifications Call) (ext : Outside)
    (script : Script notifications Outcome)
    (hProgram : system services call s = some (ext, script)) :
    submissionsOf k ext = submissionsOf k s.ext ∧
    script.Permitted (submissionPermit k) (Counts k call) (fun _ _ _ => True) false false := by
  have hCounting {β : Type} {p : Script notifications β} {outcome : β → Outcome}
    (h : Counting k call p) :
      Permitted k call (fun _ _ _ => True) (p.bind fun b => .done (outcome b)) false false :=
    Permitted.of_writes (h.bind fun _ => trivial) fun _ _ _ => trivial
  cases call with
  | deploy ring =>
    unfold system at hProgram
    dsimp only at hProgram
    split at hProgram <;> cases hProgram
    exact ⟨rfl, trivial⟩
  | send request deadlineAt drawn polls =>
    cases hProgram
    exact ⟨rfl,
      Permitted.bind ((permitted_sendSecurityEmail ⟨request, deadlineAt, drawn, polls, rfl⟩).mono
      fun _ _ _ _ => trivial)⟩
  | processFeedback feedback drawn =>
    cases hProgram
    exact ⟨rfl, hCounting (counting_processFeedback (by simp))⟩
  | expireStaleClaims =>
    cases hProgram
    exact ⟨rfl, hCounting (only_expireStaleClaims (allows_counts (by simp))).writes⟩
  | requestRecovery recipient evidence =>
    cases hProgram
    exact ⟨rfl, hCounting counting_transition⟩
  | completeRecovery recipient evidence =>
    cases hProgram
    exact ⟨rfl, hCounting counting_transition⟩
  | failRecovery recipient evidence =>
    cases hProgram
    exact ⟨rfl, hCounting counting_transition⟩
  | cleanupExpiredHistory =>
    cases hProgram
    exact ⟨rfl, hCounting counting_cleanupExpiredHistory⟩

/-- While the delivery of a request is retained, the provider is asked to send its e-mail at most
once, whatever the commands, the events and the clean-up do at the same time. -/
theorem submitted_at_most_once {now : Nat} {w : World notifications Call Outcome}
    (hLeads : World.Leads (system services) (start now ring) w) (hRetained : Retained k w) :
    submissionsOf k w.shared.ext ≤ 1 := by
  obtain ⟨_, hGranted⟩ :=
    World.asked_once keeping (fun call s ext script hProgram =>
      permitted_system s ext script hProgram)
    (fun _ => rfl) rfl hLeads hRetained
  exact hGranted.asked

/-- One request is one e-mail: it is submitted at most once, its result and its message identifier
are written once, and whoever learns a result learns that one. Neither commands nor reconciliation
change what feedback has told. -/
structure SentOnce (k : String) (w : World notifications Call Outcome) : Prop where
  submitted : submissionsOf k w.shared.ext ≤ 1
  written : w.shared.history.Pairwise fun e e' => ∀ d, e.after.deliveries.get k = some d →
    ∃ d', e'.after.deliveries.get k = some d' ∧ d.Carries d'
  answered : ∀ e ∈ w.shared.history, ∀ d, e.after.deliveries.get k = some d →
    (d.status = .pending ↔ d.callerResult = none)
  responses : ∀ sid (session : Session notifications Call Outcome) request deadlineAt drawn polls
    response, w.sessions sid = some session →
    session.call = .send request deadlineAt drawn polls → request.requestId = k →
    w.returned sid = some (.responded (.ok response)) → response.result ≠ .submissionUnknown →
    ∃ d, w.shared.db.deliveries.get k = some d ∧ d.callerResult = some response.result
  spared : ∀ e ∈ w.shared.history, ¬ e.call.IsFeedback → ∀ d,
    e.before.deliveries.get k = some d → d.lastEvent ≠ none →
    ∃ d', e.after.deliveries.get k = some d' ∧ d.Spares d'

/-- In every world, while the delivery of a request is retained. -/
theorem request_sent_once {now : Nat} {w : World notifications Call Outcome}
    (hLeads : World.Leads (system services) (start now ring) w) (hRetained : Retained k w) :
    SentOnce k w := by
  have hPath := deliveries_path hLeads hRetained
  obtain ⟨_, hGranted⟩ :=
    World.asked_once keeping (fun call s ext script hProgram =>
      permitted_system s ext script hProgram)
    (fun _ => rfl) rfl hLeads hRetained
  refine ⟨hGranted.asked, carries_path hPath, answered_path hPath, ?_, spares_path hPath⟩
  intro sid session request deadlineAt drawn polls response hSession hCall hRequest hReturned hKnown
  obtain ⟨d, hRow, hResult, _⟩ :=
    reports_of_returned hLeads hRetained hSession hCall hRequest hReturned hKnown
  exact ⟨d, hRow, hResult⟩

end Service

namespace Sample

open Notifications.Sample

/-- A second command for the request comes while the e-mail is submitted, and waits for what comes
of the first. -/
def contested : List (Action notifications Call) :=
  .spawn 0 (.send request none "delivery" 1) :: runsOf 0 8 ++
    .spawn 1 (.send request none "another" 3) :: runsOf 1 7 ++
    .answer 0 (.accepted "message") :: runsOf 0 8 ++ runsOf 1 5

def response : Outcome → Option SendSecurityEmailResponse
  | .responded (.ok response) => some response
  | _ => none

/-- Both commands are told that the e-mail is on its way, and it has been submitted once. -/
theorem submitted_at_most_once_contested :
    ∃ w, World.Leads (system emailServices) (start 0 ring) w ∧
    (w.returned 0).bind response = some ⟨.accepted, none⟩ ∧
    (w.returned 1).bind response = some ⟨.accepted, none⟩ ∧
    submissionsOf "request" w.shared.ext = 1 := by
  have hRun : (World.run (system emailServices) (start 0 ring) contested).map (fun w =>
    ((w.returned 0).bind response,
      (w.returned 1).bind response, decide (Retained "request" w),
        decide (0 < submissionsOf "request" w.shared.ext))) =
      some (some ⟨.accepted, none⟩, some ⟨.accepted, none⟩, true, true) := by
    decide +kernel
  obtain ⟨w, hW, hFacts⟩ := Option.map_eq_some_iff.mp hRun
  simp only [Prod.mk.injEq, decide_eq_true_eq] at hFacts
  obtain ⟨hFirst, hSecond, hRetained, hSubmitted⟩ := hFacts
  have hLeads := World.leads_of_run hW
  exact ⟨w, hLeads, hFirst, hSecond,
    Nat.le_antisymm (submitted_at_most_once hLeads hRetained) hSubmitted⟩

/-- Another command waits while the e-mail is submitted, and feedback overtakes the outcome. -/
def overtakenTwice : List (Action notifications Call) :=
  .spawn 0 (.send request none "delivery" 1) :: runsOf 0 8 ++
    .spawn 1 (.send request none "another" 3) :: runsOf 1 7 ++
    .answer 0 (.accepted "message") ::
    .spawn 2 (.processFeedback { delivered with recipient := "user@example.com" }
      ⟨"event", fun a => a.value⟩) ::
    runsOf 2 15 ++ runsOf 0 9 ++ runsOf 1 5

/-- Both commands are told that the e-mail is on its way, and its delivery is not forgotten. -/
theorem request_sent_once_overtaken :
    ∃ w d, World.Leads (system emailServices) (start 0 ring) w ∧
    (w.returned 0).bind response = some ⟨.accepted, none⟩ ∧
    (w.returned 1).bind response = some ⟨.accepted, none⟩ ∧
    w.shared.db.deliveries.get "request" = some d ∧ d.status = .delivered ∧
    SentOnce "request" w := by
  have hRun : (World.run (system emailServices) (start 0 ring) overtakenTwice).map (fun w =>
    ((w.returned 0).bind response, (w.returned 1).bind response, decide (Retained "request" w),
      (w.shared.db.deliveries.get "request").map EmailDelivery.status)) =
      some (some ⟨.accepted, none⟩, some ⟨.accepted, none⟩, true, some .delivered) := by
    decide +kernel
  obtain ⟨w, hW, hFacts⟩ := Option.map_eq_some_iff.mp hRun
  simp only [Prod.mk.injEq, decide_eq_true_eq] at hFacts
  obtain ⟨hFirst, hSecond, hRetained, hStatus⟩ := hFacts
  obtain ⟨d, hRow, hDelivered⟩ := Option.map_eq_some_iff.mp hStatus
  have hLeads := World.leads_of_run hW
  exact ⟨w, d, hLeads, hFirst, hSecond, hRow, hDelivered, request_sent_once hLeads hRetained⟩

end Sample

end Pixaeron.Notifications.Deliveries
