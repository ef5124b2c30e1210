import Pixaeron.Notifications.Verified.Rows

/-! # Verified: commands

A command claims the delivery of its request, submits it or waits for whoever does, and returns
what the row says.
-/

namespace Pixaeron.Notifications.Deliveries

open Transactions Transactions.Script

variable {services : EmailServices} {ring : KeyRing} {k : String} {call : Call} {stage : Stage}
  {seen r : Option EmailDelivery} {delivery : EmailDelivery}

/-! ## Waiting -/

theorem settles_expired {d : EmailDelivery} {t : Nat} (h : d.Settles)
    (hLease : d.expiredLease t = true) :
    ((EmailDelivery.expireLease t).apply d).Settles := by
  simp only [EmailDelivery.expiredLease, Bool.and_eq_true, decide_eq_true_eq] at hLease
  constructor
  · exact ⟨fun hPending => (by cases hPending), fun hNone => by cases hNone⟩
  · exact fun hEvent => absurd hLease.1.1 (h.followed hEvent).1

theorem follows_expireClaim {delivery : EmailDelivery} (hSend : call.IsSend)
    (hKnown : Known k delivery seen) :
    Follows k call (fun stage result r => stage = .outside ∧ Settled r ∧
      ∀ row, result = .ok row → row.requestId = delivery.requestId ∧ Known k row r)
        (expireClaim delivery) .outside seen := by
  refine Register.Follows.bind (Register.Follows.readClock fun now => Register.Follows.bind ?_)
  refine follows_updateDeliveries (fun d n hSees hSettles hKey hWhere => ?_)
    fun r n hSees hSettled _ => ?_
  · rw [Bool.and_eq_true] at hWhere
    have hStep : EmailDelivery.RowStep call d ((EmailDelivery.expireLease now).apply d) :=
      .send hSend (.expired hWhere.2)
    have hAfter := settles_expired (hSettles (by simp)) hWhere.2
    refine ⟨hStep, fun _ => hAfter, follows_findByIdOrThrow ⟨fun hMine => ?_, fun d' hd' => ?_⟩⟩
    · obtain ⟨d', hd', hCarries⟩ :=
        (hKnown.sees (by simp) hSees fun d' hd' => by cases hd'; exact hSettles (by simp)).row hMine
      cases hd'
      exact ⟨_, rfl, hCarries.trans hStep.carries⟩
    · cases hd'
      exact hAfter
  · exact follows_findByIdOrThrow (hKnown.sees (by simp) hSees (hSettled (by simp)))

/-- The response is what the row says, unless it is not known. -/
def Reports (response : SendSecurityEmailResponse) (r : Option EmailDelivery) : Prop :=
  response.result ≠ .submissionUnknown → ∃ d, r = some d ∧ d.callerResult = some response.result ∧
    response = toCommandResponse response.result d.callerResultCode

theorem reports_unknown {code : String} {r : Option EmailDelivery} :
    Reports (unknownResponse code) r :=
  fun hKnown => absurd rfl hKnown

theorem Known.reports {delivery : EmailDelivery} {r : Option EmailDelivery} (h : Known k delivery r)
    {result : EmailCommandResult} (hResult : delivery.callerResult = some result)
    (hKey : delivery.requestId = k) :
    Reports (toCommandResponse result delivery.callerResultCode) r := by
  intro _
  obtain ⟨d, rfl, hCarries⟩ := h.row hKey
  obtain ⟨hSame, hCode, _⟩ := hCarries.callerResult (by simp [hResult])
  refine ⟨d, rfl, hSame.trans hResult, ?_⟩
  rw [hCode]
  rfl

theorem Known.recorded {delivery : EmailDelivery} {r : Option EmailDelivery}
    (h : Known k delivery r) {otherwise : String} (hKey : delivery.requestId = k) :
    Reports (recordedResponse delivery otherwise) r := by
  cases hResult : delivery.callerResult with
  | none =>
    simp only [recordedResponse, hResult]
    exact reports_unknown
  | some result =>
    simp only [recordedResponse, hResult]
    exact h.reports hResult hKey

/-- What a command for the request returns. -/
def Answers (k requestId : String) (stage : Stage)
    (result : Except Failure SendSecurityEmailResponse) (r : Option EmailDelivery) : Prop :=
  stage = .outside ∧ ∀ response, result = .ok response → requestId = k → Reports response r

theorem answers_error {requestId : String} {error : Failure} {r : Option EmailDelivery} :
    Answers k requestId .outside (.error error) r := ⟨rfl, fun _ hOk => by cases hOk⟩

theorem answers_ok {requestId : String} {response : SendSecurityEmailResponse}
    {r : Option EmailDelivery} (h : requestId = k → Reports response r) :
    Answers k requestId .outside (.ok response) r :=
  ⟨rfl, fun _ hOk hKey => by cases hOk; exact h hKey⟩

theorem follows_waitForCallerResult {deadlineAt : Option Nat} {polls : Nat}
    {delivery : EmailDelivery} (hSend : call.IsSend) (hKnown : Known k delivery seen) :
    Follows k call (Answers k delivery.requestId)
      (waitForCallerResult deadlineAt polls delivery) .outside seen := by
  induction polls generalizing delivery seen with
  | zero => trivial
  | succ polls ih =>
    have hNext {r : Option EmailDelivery} {row : EmailDelivery}
      (hRow : row.requestId = delivery.requestId ∧ Known k row r) :
        Follows k call (Answers k delivery.requestId)
          (waitForCallerResult deadlineAt polls row) .outside r :=
      hRow.1 ▸ ih hRow.2
    refine Register.Follows.bind (Register.Follows.readClock fun time => ?_)
    split
    · exact follows_done (answers_ok fun _ => reports_unknown)
    · split
      next result hResult => exact follows_done (answers_ok fun hKey => hKnown.reports hResult hKey)
      next hNone =>
        refine Register.Follows.bind (Register.Follows.readClock fun leaseTime => ?_)
        split
        · refine ((follows_expireClaim hSend hKnown).mono ?_).bind
          rintro stage result r ⟨rfl, _, hFound⟩
          cases result with
          | error error => exact follows_done answers_error
          | ok row => exact hNext (hFound row rfl)
        · refine Register.Follows.bind (Register.Follows.readClock fun remaining => ?_)
          split
          · exact follows_done (answers_ok fun _ => reports_unknown)
          · refine ((follows_findByIdOrThrow hKnown).mono ?_).bind
            rintro stage result r ⟨rfl, _, hFound⟩
            cases result with
            | error error => exact follows_done answers_error
            | ok row => exact hNext (hFound row rfl)

/-! ## The claim -/

/-- What a claim has found or created. -/
def Claimed (k requestId : String) (stage : Stage) (result : Except Failure DeliveryClaim)
    (r : Option EmailDelivery) : Prop :=
  stage = .outside ∧ Settled r ∧ ∀ claim, result = .ok claim →
    claim.delivery.requestId = requestId ∧ Known k claim.delivery r

theorem settles_newDelivery {request : SendSecurityEmailRequest} {recipientHash : RecipientHash}
    {blocked : Bool} {id : String} {now createdAt : Nat} :
    (newDelivery services request recipientHash blocked id now createdAt).Settles := by
  cases blocked with
  | false => exact ⟨⟨fun _ => rfl, fun _ => rfl⟩, fun hEvent => absurd rfl hEvent⟩
  | true =>
    exact ⟨⟨fun hPending => (by cases hPending), fun hNone => by cases hNone⟩,
      fun hEvent => absurd rfl hEvent⟩

theorem get_insertDelivery {db : Database} {d : EmailDelivery} :
    (deliveryRegister k).read (db.insertDelivery d) =
      (db.deliveries.get k).or (if d.requestId = k then some d else none) :=
  Table.get_insert

theorem follows_createDelivery {request : SendSecurityEmailRequest} {recipientHash : RecipientHash}
    {blocked : Bool} {id : String} {now : Nat} (hSend : call.IsSend) (hStage : stage = .unlocked)
    {Q : Stage → EmailDelivery → Option EmailDelivery → Prop}
    (hCreated : ∀ d, d.requestId = request.requestId → d.Settles → request.requestId = k →
      Q .locked d (some d)) (hOther : ∀ d r, d.requestId = request.requestId →
      request.requestId ≠ k → Sees k .unlocked seen r → Settled r → Q .unlocked d r) :
    Follows k call Q (createDelivery services request recipientHash blocked id now) stage seen := by
  subst hStage
  refine Register.Follows.bind fun v hSees hFit => ?_
  by_cases hRefused : v.db.refusesDelivery request.requestId id
  · simp only [hRefused, if_true, decide_true]
    exact ⟨.inl fun _ => rfl, trivial⟩
  · simp only [hRefused, if_false, decide_false]
    by_cases hKey : request.requestId = k
    · have hNone : v.db.deliveries.get k = none := by
        rw [← hKey, ← Option.not_isSome_iff_eq_none]
        exact fun hTaken => hRefused (.inr hTaken)
      have hRead {db : Database} (hSame : db.deliveries.get k = none) : (deliveryRegister k).read
          (db.insertDelivery (newDelivery services request recipientHash blocked id now v.now)) =
            some (newDelivery services request recipientHash blocked id now v.now) := by
        rw [get_insertDelivery, hSame]
        exact if_pos hKey
      have hBefore : (deliveryRegister k).read v.db = none := hNone
      have hLock : Resource.delivery k ∈ [Resource.delivery request.requestId] :=
        hKey ▸ List.mem_singleton_self _
      refine ⟨.inr ⟨.inl hLock, ?_, fun db hSame => ?_, fun hStage => by cases hStage⟩, ?_⟩
      · rw [hRead hNone, hBefore]
        exact .created hSend hKey settles_newDelivery
      · rw [hRead hNone, hRead (hSame.trans hBefore)]
      · rw [hRead hNone, show decide ((deliveryRegister k).lock ∈ _) =
          true from decide_eq_true hLock]
        exact hCreated _ rfl settles_newDelivery hKey
    · have hAlone (db : Database) : (deliveryRegister k).read
          (db.insertDelivery (newDelivery services request recipientHash blocked id now v.now)) =
            (deliveryRegister k).read db := by
        have hOther : (newDelivery services request recipientHash blocked id now v.now).requestId ≠
          k := hKey
        rw [get_insertDelivery, if_neg hOther, Option.or_none]
        rfl
      refine ⟨.inl hAlone, ?_⟩
      rw [hAlone, after_not_mem fun hMem => ?_]
      · exact hOther _ _ rfl hKey hSees (hFit (by simp))
      · exact hKey (by simpa using (List.mem_singleton.mp hMem).symm)

theorem follows_claimDelivery {request : SendSecurityEmailRequest} {recipientHash : RecipientHash}
    {lookupHashes : List RecipientHash} {drawn : String} (hSend : call.IsSend)
    (hSettled : Settled seen) :
    Follows k call (Claimed k request.requestId)
      (claimDelivery services request recipientHash lookupHashes drawn) .outside seen := by
  -- A row that a statement outside or at the start of a transaction has found.
  have hFound {v : View notifications} {delivery : EmailDelivery} {isNew : Bool}
      (hGet : v.db.deliveries.get request.requestId = some delivery)
        (hFit : Settled ((deliveryRegister k).read v.db)) :
      Claimed k request.requestId .outside (.ok ⟨delivery, isNew⟩)
        ((deliveryRegister k).read v.db) := by
    refine ⟨rfl, hFit, fun claim hClaim => ?_⟩
    cases hClaim
    have hKey := Table.key_of_get hGet
    exact ⟨hKey, fun hMine => ⟨delivery, hMine ▸ hKey ▸ hGet, .refl delivery⟩, hFit⟩
  refine Register.Follows.transaction (fun error => ?_)
    (Register.Follows.bind (Register.Follows.bind
    (Register.Follows.query fun v hSees hFit => ?_)))
  · dsimp only
    split
    · exact follows_done ⟨rfl, hSettled, fun claim hClaim => by cases hClaim⟩
    · refine Register.Follows.bind (Register.Follows.query fun v hSees hFit => ?_)
      have hHere := hFit (by simp)
      cases hGet : v.db.deliveries.get request.requestId with
      | none => exact follows_done ⟨rfl, hHere, fun claim hClaim => by cases hClaim⟩
      | some delivery =>
        dsimp only
        split
        · exact follows_done (hFound hGet hHere)
        · exact follows_done ⟨rfl, hHere, fun claim hClaim => by cases hClaim⟩
  · have hHere : Settled ((deliveryRegister k).read v.db) := hFit (by simp)
    cases hGet : v.db.deliveries.get request.requestId with
    | some delivery =>
      refine Register.Follows.bind (Register.Follows.check fun _ => ?_)
      exact ⟨by simp, fun hLocked => (by cases hLocked), hFound hGet hHere⟩
    | none =>
      refine ((Register.Follows.of_aside (I := Settled) aside_lockRecipientAliases ?_ hHere).mono
        ?_).bind
      · exact fun _ _ _ _ hSettled => hSettled (by simp)
      · rintro stage _ r ⟨rfl, _⟩
        refine Register.Follows.bind (Register.Follows.query fun v' _ hFit' => ?_)
        refine Register.Follows.bind (Register.Follows.readClock fun now =>
          Register.Follows.bind ?_)
        refine follows_createDelivery hSend rfl (fun d hKey hSettles hMine => ?_)
          fun d r' hKey hOther _ hRow => ?_
        · have hAfter : Settled (some d) := fun d' hd' => by cases hd'; exact hSettles
          refine ⟨by simp, fun _ => hAfter, rfl, hAfter, fun claim hClaim => ?_⟩
          cases hClaim
          exact ⟨hKey, fun _ => ⟨d, rfl, .refl d⟩, hAfter⟩
        · refine ⟨by simp, fun hLocked => (by cases hLocked), rfl, hRow, fun claim hClaim => ?_⟩
          cases hClaim
          exact ⟨hKey, fun hMine => absurd (hKey.symm.trans hMine) hOther, hRow⟩

/-! ## The outcome -/

/-- The clauses of `Settles` that hold in the middle of storing an outcome. -/
def Half (d : EmailDelivery) : Prop :=
  (d.callerResult ≠ none → d.status ≠ .pending) ∧
    (d.lastEvent ≠ none → d.status ≠ .pending ∧ d.status ≠ .submissionUnknown)

theorem half_of_settles {d : EmailDelivery} (h : d.Settles) : Half d :=
  ⟨fun hSome hPending => hSome (h.answered.mp hPending), h.followed⟩

theorem stable_half : Stable Half := fun _ _ _ _ _ hAfter => half_of_settles hAfter

/-- The outcome is stored: the row is not pending any more. -/
def Recorded (d : EmailDelivery) : Prop := Half d ∧ d.status ≠ .pending

theorem stable_recorded : Stable Recorded := by
  rintro d d' ⟨_, hPending⟩ hSettles hCarries hAfter
  refine ⟨half_of_settles hAfter, fun hPending' => ?_⟩
  have hResult : d.callerResult ≠ none := fun hNone => hPending (hSettles.answered.mpr hNone)
  exact hResult ((hCarries.callerResult hResult).1.symm.trans (hAfter.answered.mp hPending'))

theorem follows_attachSubmission {recordedAt : Nat} {submission : SesSubmissionResult}
    (hSend : call.IsSend) (h : Midway k delivery Half stage seen) :
    Follows k call (fun stage _ r => Midway k delivery Half stage r)
      (attachSubmission delivery recordedAt submission) stage seen := by
  cases submission with
  | rejected code => exact follows_done h
  | failed code => exact follows_done h
  | submissionUnknown code => exact follows_done h
  | accepted messageId =>
    have hChecked {stage : Stage} {r : Option EmailDelivery} {attached : Nat}
      (hHere : Midway k delivery Half stage r) :
        Follows k call (fun stage _ r => Midway k delivery Half stage r)
          (assertAttached delivery messageId attached) stage r := by
      unfold assertAttached
      split
      · exact follows_done hHere
      · refine Register.Follows.bind (Register.Follows.query fun v hSees hFit => ?_)
        cases (v.db.deliveries.get delivery.requestId).filter delivery.is with
        | none => trivial
        | some row => exact Register.Follows.check fun _ => hHere.sees stable_half hSees hFit
    refine Register.Follows.bind ((h.follows_attach stable_half fun d hHalf hNone => ?_).mono
      fun _ _ _ hAttached => ?_)
    · exact ⟨.send hSend (.attached (of_decide_eq_true hNone)), hHalf⟩
    · refine Register.Follows.bind ((hChecked hAttached).mono fun _ _ _ hNext =>
        Register.Follows.bind ?_)
      refine hNext.follows_update stable_half (fun d hHalf hNone => ?_) fun d hHalf _ => hHalf
      exact ⟨.send hSend (.submitted (of_decide_eq_true hNone)), hHalf⟩

theorem status_ne_pending {submission : SesSubmissionResult} : submission.status ≠ .pending := by
  cases submission <;> simp [SesSubmissionResult.status]

theorem pending_mem_replaceable {submission : SesSubmissionResult} :
    .pending ∈ submission.replaceableStatuses := by
  cases submission <;> simp [SesSubmissionResult.replaceableStatuses]

theorem replaceable_cases {submission : SesSubmissionResult} {status : EmailDeliveryStatus}
    (h : status ∈ submission.replaceableStatuses) :
    status = .pending ∨ status = .submissionUnknown := by
  cases submission <;> simp [SesSubmissionResult.replaceableStatuses] at h <;> simp [h]

theorem follows_recordOutcome {submission : SesSubmissionResult} (hSend : call.IsSend)
    (h : Midway k delivery Half stage seen) :
    Follows k call (fun stage _ r => Midway k delivery Recorded stage r)
      (updateDeliveries .recordOutcome (fun d =>
        delivery.is d && d.status ∈ submission.replaceableStatuses)
        (EmailDelivery.setOutcome submission)) stage seen := by
  refine h.follows_update stable_half (fun d hHalf hWhere => ?_) fun d hHalf hSkipped =>
    ⟨hHalf, fun hPending => ?_⟩
  · have hReplaced := of_decide_eq_true hWhere
    refine ⟨.send hSend (.recorded hReplaced), ⟨fun _ => status_ne_pending, fun hEvent => ?_⟩,
      status_ne_pending⟩
    -- No event has been followed, or the status would not be replaceable.
    obtain ⟨hPending, hUnknown⟩ := hHalf.2 hEvent
    rcases replaceable_cases hReplaced with hSame | hSame
    · exact absurd hSame hPending
    · exact absurd hSame hUnknown
  · rw [hPending, decide_eq_true pending_mem_replaceable] at hSkipped
    cases hSkipped

theorem follows_setCallerResult {submission : SesSubmissionResult} {now : Nat} (hSend : call.IsSend)
    (h : Midway k delivery Recorded stage seen) :
    Follows k call (fun stage _ r => Midway k delivery EmailDelivery.Settles stage r)
      (updateDeliveries .setCallerResult (fun d => delivery.is d && d.callerResult = none)
        (EmailDelivery.setCallerResult submission now)) stage seen := by
  refine h.follows_update stable_recorded (fun d hRecorded hWhere => ?_) fun d hRecorded hSkipped =>
    ?_
  · refine ⟨.send hSend (.answered (of_decide_eq_true hWhere)), ?_, hRecorded.1.2⟩
    exact ⟨fun hPending => absurd hPending hRecorded.2, fun hNone => by cases hNone⟩
  · exact ⟨⟨fun hPending => absurd hPending hRecorded.2,
      fun hNone => absurd hNone (of_decide_eq_false hSkipped)⟩, hRecorded.1.2⟩

theorem follows_readRecordedResult :
    Follows k call (fun stage response r => stage = .outside ∧
      (delivery.requestId = k → Reports response r))
      (readRecordedResult delivery) .outside seen := by
  refine Register.Follows.bind (Register.Follows.query fun v hSees hFit => ?_)
  cases hFound : (v.db.deliveries.get delivery.requestId).filter delivery.is with
  | none => exact follows_done ⟨rfl, fun _ => reports_unknown⟩
  | some row =>
    obtain ⟨hSame, hRead⟩ := found_of_known (k := k) hFound
    refine follows_done ⟨rfl, fun hMine => ?_⟩
    exact Known.recorded ⟨fun hKey => ⟨row, hRead hMine, .refl row⟩, hFit (by simp)⟩
      (hSame.trans hMine)

theorem follows_finalizeResult {submission : SesSubmissionResult} (hSend : call.IsSend)
    (hKnown : Known k delivery seen) :
    Follows k call (fun stage response r => stage = .outside ∧
      (delivery.requestId = k → Reports response r))
      (finalizeResult delivery submission) .outside seen := by
  refine Register.Follows.transaction (fun _ => follows_readRecordedResult)
    (Register.Follows.bind (Register.Follows.bind
    (Register.Follows.readClock fun now => Register.Follows.bind (Register.Follows.bind ?_))))
  refine (follows_attachSubmission hSend (hKnown.midway fun _ => half_of_settles)).mono
    fun stage _ r hAttached => ?_
  refine Register.Follows.bind ((follows_recordOutcome hSend hAttached).mono
    fun stage _ r hRecorded => follows_done ?_)
  refine Register.Follows.bind ((follows_setCallerResult hSend hRecorded).mono
    fun stage _ r hAnswered => ?_)
  refine Register.Follows.bind (Register.Follows.query fun v hSees hFit => ?_)
  have hHere := hAnswered.sees stable_settles hSees hFit
  cases hFound : (v.db.deliveries.get delivery.requestId).filter delivery.is with
  | none => trivial
  | some row =>
    obtain ⟨hSame, hRead⟩ := found_of_known (k := k) hFound
    refine ⟨hHere.inside, fun _ => hHere.settled, rfl, fun hMine => ?_⟩
    exact Known.recorded ⟨fun hKey => ⟨row, hRead hMine, .refl row⟩, hHere.settled⟩
      (hSame.trans hMine)

theorem follows_submit {request : SendSecurityEmailRequest} {recipient : String}
    (hSend : call.IsSend) (hKnown : Known k delivery seen) :
    Follows k call (Answers k delivery.requestId)
      (submit delivery request recipient) .outside seen := by
  refine Register.Follows.bind (Register.Follows.mono
    (?_ : Follows k call (fun stage _ r => stage = .outside ∧ Known k delivery r)
    _ .outside seen) ?_)
  · refine follows_updateDeliveries (fun d n hSees hSettles hKey hWhere => ?_)
      fun r n hSees hSettled _ => ?_
    · simp only [Bool.and_eq_true, decide_eq_true_eq] at hWhere
      have hStep : EmailDelivery.RowStep call d (EmailDelivery.setAttempted.apply d) :=
        .send hSend (.attempted hWhere.1.2 hWhere.2)
      have hSettlesAfter : (EmailDelivery.setAttempted.apply d).Settles :=
        ⟨(hSettles (by simp)).answered, (hSettles (by simp)).followed⟩
      refine ⟨hStep, fun _ => hSettlesAfter, rfl, fun hMine => ?_, fun d' hd' => ?_⟩
      · obtain ⟨d', hd', hCarries⟩ :=
          (hKnown.sees (by simp) hSees fun d' hd' => by cases hd'; exact hSettles (by simp)).row
            hMine
        cases hd'
        exact ⟨_, rfl, hCarries.trans hStep.carries⟩
      · cases hd'
        exact hSettlesAfter
    · exact ⟨rfl, hKnown.sees (by simp) hSees (hSettled (by simp))⟩
  · rintro stage n r ⟨rfl, hHere⟩
    split
    · refine ((follows_findByIdOrThrow hHere).mono ?_).bind
      rintro stage result r' ⟨rfl, _, hFound⟩
      cases result with
      | error error => exact follows_done answers_error
      | ok row =>
        obtain ⟨hSame, hRow⟩ := hFound row rfl
        exact follows_done (answers_ok fun hMine => hRow.recorded (hSame.trans hMine))
    · have hStored (submission : SesSubmissionResult) : Follows k call
        (Answers k delivery.requestId)
          ((finalizeResult delivery submission).bind fun response => .done (.ok response))
            .outside r := by
        refine ((follows_finalizeResult hSend hHere).mono ?_).bind
        rintro stage response r' ⟨rfl, hReports⟩
        exact follows_done (answers_ok hReports)
      unfold createSubmission
      split
      · exact Register.Follows.bind fun reply => hStored reply
      · exact hStored _

theorem follows_sendSecurityEmail {request : SendSecurityEmailRequest} {deadlineAt : Option Nat}
    {drawn : String} {polls : Nat} (hSend : call.IsSend) (hSettled : Settled seen) :
    Follows k call (Answers k request.requestId)
      (sendSecurityEmail services ring request deadlineAt drawn polls) .outside seen := by
  refine ((follows_claimDelivery hSend hSettled).mono ?_).bind
  rintro stage result r ⟨rfl, _, hClaimed⟩
  cases result with
  | error error => exact follows_done answers_error
  | ok claim =>
    obtain ⟨hSame, hKnown⟩ := hClaimed claim rfl
    dsimp only
    rw [← hSame]
    cases hResult : claim.delivery.callerResult with
    | some result => exact follows_done (answers_ok fun hMine => hKnown.reports hResult hMine)
    | none =>
      dsimp only
      split
      · exact follows_waitForCallerResult hSend hKnown
      · exact follows_submit hSend hKnown

end Pixaeron.Notifications.Deliveries
