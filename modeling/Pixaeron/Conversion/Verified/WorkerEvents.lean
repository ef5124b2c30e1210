import Pixaeron.Conversion.Verified.Intake
import Pixaeron.Conversion.Verified.Rollup

/-! # Verified: worker events -/

namespace Pixaeron.Conversion

open Transactions Transactions.Script

variable {services : Services} {p : Policy} {call : Call} {s : Shared conversion Call}
  {replies : List Reply}
  {event : WorkerEvent}

theorem Call.handles.admission (h : call.handles event) : call.admission = none := by
  cases call <;> first | rfl | exact h.elim

/-! ## STARTED -/

theorem wp_applyStarted (hCall : call.handles event) (hStarted : event.report = .started)
    (hDelivery : p.closed = true → ∃ d ∈ s.ext.deliveries,
      d.fileId = event.fileId ∧ d.attempt = event.attempt) :
    Wp (discipline services p) call (applyStarted event) (fun _ l s' => AtRest l ∧
      Grows s.ext s'.ext)
      (.outside replies) s := by
  refine wp_autocommit (fun v id hMem => by simp at hMem) fun s₁ v hRely₁ hDb _ _ =>
    ⟨?_, fun hRecord₁ => ?_⟩
  · rw [hDb]
    refine ⟨.start _ event v.clock, rfl, rfl, le_rfl, ⟨hCall, hStarted, ?_⟩, rfl,
      fun h => absurd rfl h,
      fun _ => storageChecked_of_call hCall.admission, fun hClosed => ?_, ?_⟩
    · intro id hMem
      obtain ⟨f, hf, rfl⟩ := List.mem_map.mp hMem
      simp only [Table.mem_select, Bool.and_eq_true, decide_eq_true_eq] at hf
      exact ⟨f, Table.get_of_mem hf.1, hf.2.1.1.1, hf.2.1.1.2, hf.2.1.2, hf.2.2⟩
    · obtain ⟨d, hd, hSame⟩ := hDelivery hClosed
      exact ⟨d, (rely_grows hRely₁).deliveries hd, hSame⟩
    · rintro r ⟨id, hMem, rfl⟩
      obtain ⟨f, hf, rfl⟩ := List.mem_map.mp hMem
      exact List.mem_map_of_mem hf
  · rw [Script.bind_done]
    split
    · exact wp_at_rest fun _ hRely =>
        ⟨atRest_outside _, rely_grows ((hRely₁.trans hRecord₁).trans hRely)⟩
    · refine wp_autocommit (fun v id hMem => by simp at hMem) fun s₂ v' hRely₂ hDb' _ _ =>
        ⟨?_, fun hRecord₂ => ?_⟩
      · rw [hDb']
        refine ⟨.process _, rfl, rfl, le_rfl, ?_, rfl, fun h => absurd rfl h,
          fun _ => storageChecked_of_call hCall.admission, trivial, ?_⟩
        · intro id hMem
          obtain ⟨b, hb, rfl⟩ := List.mem_map.mp hMem
          simp only [Table.mem_select, Bool.and_eq_true, decide_eq_true_eq] at hb
          exact ⟨b, Table.get_of_mem hb.1, hb.2.2⟩
        · rintro r ⟨id, hMem, rfl⟩
          obtain ⟨b, hb, rfl⟩ := List.mem_map.mp hMem
          exact List.mem_map_of_mem hb
      · refine wp_at_rest fun _ hRely => ⟨atRest_outside _, ?_⟩
        exact rely_grows ((((hRely₁.trans hRecord₁).trans hRely₂).trans hRecord₂).trans hRely)

/-! ## RESULT -/

theorem answersOutputHead_same (reply : Reply) (x y : Outside)
    (h : answersOutputHead reply x = some y) : y = x := by
  unfold answersOutputHead at h
  split at h <;> cases h <;> rfl

theorem wp_verifiedCompletion {result : CompletedOutcome}
    (hReport : event.report = .result (.completed result)) :
    Wp (discipline services p) call (verifiedCompletion event result)
      (fun data l s' => (∃ replies', l = .outside replies' ∧ data.Reports event replies') ∧
        (discipline services p).Rely (fun _ => False) s s') (.outside replies) s := by
  refine wp_require fun hOutput => wp_require fun hPreview =>
    wp_ask answersOutputHead_same fun s₁ reply hRely₁ hReply => ?_
  rw [Script.bind_done]
  split
  · next stored =>
    split
    · exact Wp.fail_outside
    · next checksumSha256 hChecksum =>
      refine wp_require fun hBytes => wp_require fun hSame =>
        Wp.clock safe_outside fun s₂ hRely₂ => ?_
      refine wp_at_rest fun s₃ hRely₃ =>
        ⟨⟨_, rfl, .completed hReport hOutput (fun key hKey => ?_) ?_ hBytes ?_⟩,
        (hRely₁.trans hRely₂).trans hRely₃⟩
      · rw [hKey] at hPreview
        simpa using hPreview
      · exact List.mem_append_right _ List.mem_cons_self
      · rw [hChecksum, hSame]
  · exact Wp.fail_outside
  · exact Wp.fail_outside

theorem FileResult.write_status (data : FileResult) (f : ConversionFile) :
    (data.write f).status ∈ terminalFileStatuses ∧ (data.write f).status ≠ .expired := by
  cases data <;> simp [write, terminalFileStatuses]

theorem PassesLock.of_terminal {young : Prop} {st st' : ConversionFileStatus}
    (h : PassesLock young st st') (hTerminal : st ∈ terminalFileStatuses) :
    st' = st ∨ st = .completed ∧ st' = .expired := by
  rcases h with (hSame | ⟨hNot, _⟩) | ⟨hCompleted, hExpired, _⟩
  · exact .inl hSame
  · exact absurd hTerminal hNot
  · exact .inr ⟨hCompleted, hExpired⟩

theorem PassesLock.not_terminal {young : Prop} {st st' : ConversionFileStatus}
    (h : PassesLock young st st') (hOpen : st ∉ terminalFileStatuses) :
    st' ∉ terminalFileStatuses := by
  rcases h with hQuiet | ⟨rfl, _⟩
  · exact fun hTerminal => hOpen (hQuiet.terminal.mp hTerminal)
  · exact absurd (by decide) hOpen

/-- The statuses a result leaves, with the roll-up that follows it. `db` is what the roll-up has
read, `db'` what the transaction commits to. -/
theorem finish_agrees {young : Prop} {db db' found : Database} {b : ConversionBatch}
    {f : ConversionFile} {data : FileResult} {rolled : List Uuid}
    (hLock : SameFiles young f.batchId db db') (hGet : db.files.get f.id = some f)
    (hGet' : db'.files.get f.id = some f) (hAccepting : f.status ∈ eventAcceptingFileStatuses)
    (hBatch : db'.batches.get f.batchId = some b) (hFound : found.batches.get f.batchId = some b)
    (hAgrees : Agrees b.status (db'.statuses f.batchId))
    (hRolled : RolledUp f.batchId (db.changeFiles [f.id] data.write data.write_id) found rolled) :
    ((db'.changeFiles [f.id] data.write data.write_id).changeBatches rolled fun b => { b with
      status := rolledStatus ((db.changeFiles [f.id] data.write data.write_id).statuses
        f.batchId) }).AgreesOn f.batchId := by
  obtain ⟨_, hNotTerminal⟩ := ConversionFileStatus.accepting_moves hAccepting
  have hMatches := hLock.matches data.write_id data.write_batchId fun k hk f' hf' => by
    rw [List.mem_singleton] at hk
    subst hk
    cases hGet.symm.trans hf'
    exact hGet'
  have hBefore : f.status ∈ db'.statuses f.batchId :=
    mem_statuses.mpr ⟨f, Table.mem_of_get hGet', rfl, rfl⟩
  have hAfter {db : Database} (hGet : db.files.get f.id = some f) :
      (data.write f).status ∈ (db.changeFiles [f.id] data.write data.write_id).statuses f.batchId :=
    (mem_statuses_changeFiles data.write_batchId).mpr ⟨f, Table.mem_of_get hGet, rfl, by simp⟩
  have hNot : b.status ∉ [.completed, .partialBatch, .failed, .expired] := fun hTerminal =>
    hNotTerminal (hAgrees.terminal.mp hTerminal _ hBefore)
  intro b' hb'
  rw [Database.changeBatches_batches, Table.get_modify, Database.changeFiles_batches, hBatch,
    Option.map_some, Option.some.injEq] at hb'
  by_cases hAll : ∀ st ∈ (db.changeFiles [f.id] data.write data.write_id).statuses f.batchId,
    st ∈ terminalFileStatuses
  · have hMem : f.batchId ∈ rolled :=
      (hRolled.mem hAll _).mpr ⟨rfl, b, hFound,
        open_mem_rolledFrom (openBatch_of_not_terminal hNot hAgrees.known) _⟩
    rw [if_pos hMem] at hb'
    rw [← hb']
    refine (agrees_rolledStatus (List.ne_nil_of_mem (hAfter hGet)) hAll).evicted
      (hMatches.mono fun st hSt _ _ hPasses => hPasses.of_terminal (hAll st hSt)) ?_
    exact ⟨_, hAfter hGet', (data.write_status f).2⟩
  · push Not at hAll
    rw [hRolled.quiet hAll, if_neg List.not_mem_nil] at hb'
    rw [← hb']
    obtain ⟨st, hSt, hOpen⟩ := hAll
    obtain ⟨st', hSt', hPasses⟩ := hMatches.1 st hSt
    refine hAgrees.still_open ⟨_, hBefore, hNotTerminal⟩ ⟨st', hSt',
      hPasses.not_terminal hOpen⟩ fun hUploading => ?_
    have hEarly := hAgrees.uploading hUploading _ hBefore
    rcases hEarly with hStatus | hStatus <;>
      (rw [hStatus] at hAccepting; exact absurd hAccepting (by decide))

theorem Traffic.outdated_of_refused (hTraffic : Traffic p s) {d : Delivery}
    (hd : d ∈ s.ext.deliveries) (hReports : d.Reports event)
    (hRefused : ∀ f, s.db.files.get event.fileId = some f → f.batchId = event.batchId →
      f.status ∈ eventAcceptingFileStatuses → ¬ f.attempt ≤ event.attempt) :
    event.fileId ∈ s.db.issued ∧ s.db.Outdated event := by
  obtain ⟨hFile, hBatch, _⟩ := hReports
  obtain ⟨hIssued, _, hPast⟩ := hTraffic.of_delivery hd
  rw [hFile] at hIssued hPast
  refine ⟨hIssued, fun f hGet => ?_⟩
  obtain ⟨hSame, hRank⟩ := hPast f hGet
  by_contra hNot
  push Not at hNot
  refine hRefused f hGet (hSame.trans hBatch) ?_ hNot.2
  have hOpen := hNot.1
  revert hRank hOpen
  cases f.status <;> decide

theorem wp_finishFile {data : FileResult} {known : Prop} (hCall : call.handles event)
    (hData : data.Reports event replies) (hIssued : event.batchId ∈ s.db.issued)
    (hKnown : known → ∃ d ∈ s.ext.deliveries, d.Reports event) :
    Wp (discipline services p) call
      (transaction transactionTimeoutMs (do
        lockBatches .lockBatch fun b => b.id = event.batchId
        let claimed ← updateFiles .finishFile
          (fun _ f => f.id = event.fileId && f.batchId =
            event.batchId && f.status ∈ eventAcceptingFileStatuses &&
            f.attempt ≤ event.attempt)
          (fun _ => data.write) fun _ => data.write_id
        if claimed = 0 then pure ()
        else
          let _ ← rollUpBatch event.batchId) .fail)
      (fun _ l s' => (AtRest l ∧ Grows s.ext s'.ext) ∧
        (known → s'.db.Outdated event)) (.outside replies) s := by
  refine wp_transaction (fun _ _ _ _ => Wp.fail_outside) fun s₀ l₀ tx₀ hRely₀ hWithin₀ hOpened => ?_
  refine wp_statement hWithin₀ (fun v id hMem => by simp at hMem)
    fun s₁ v₁ l₁ tx₁ hRely₁ _ hDb₁ _ _ hWithin₁ hRan₁ => ?_
  rw [Script.bind_done]
  refine wp_statement hWithin₁ (fun v id hMem => by simp at hMem)
    fun s₂ v₂ l₂ tx₂ hRely₂ _ hDb₂ _ _ hWithin₂ hRan₂ => ?_
  rw [Script.bind_done]
  rw [hOpened.pending] at hDb₁
  rw [hRan₁.pending, hOpened.pending] at hDb₂
  change v₁.db = s₁.db at hDb₁
  change v₂.db = s₂.db at hDb₂
  have hRely₀₁ := hRely₀.trans (rely_outside hRely₁)
  have hRely₀₂ := hRely₀₁.trans (rely_outside hRely₂)
  have hFind : ∀ f, f ∈ v₂.db.files.select (fun f => f.id = event.fileId &&
      f.batchId = event.batchId && f.status ∈ eventAcceptingFileStatuses &&
      f.attempt ≤ event.attempt) ↔
      s₂.db.files.get event.fileId = some f ∧ f.batchId = event.batchId ∧
      f.status ∈ eventAcceptingFileStatuses ∧ f.attempt ≤ event.attempt := by
    intro f
    rw [hDb₂, Table.get_eq_some_iff]
    simp [and_assoc]
  split
  · next hNone =>
    -- nothing was claimed
    have hEmpty := List.length_eq_zero_iff.mp hNone
    have hPending : ∀ db, tx₂.pending db = db := by
      intro db
      rw [hRan₂.pending, hRan₁.pending, hOpened.pending]
      change Database.changeFiles db (List.map _ (Table.select _ _)) _ _ = db
      rw [hEmpty]
      exact changeFiles_nil
    refine wp_finish hWithin₂ fun s₃ hRely₃ hWithin₃ => ?_
    refine wp_commit hWithin₃ fun s₄ hRely₄ _ => ⟨⟨.nothing, fun _ => ?_⟩,
      fun s₅ _ hRely₅ => ⟨⟨atRest_outside _, ?_⟩, fun hIs => ?_⟩⟩
    · exact committing_unchanged (hWithin₃.later hRely₄) (hPending _)
        (storageChecked_of_call hCall.admission)
    · have hBefore := rely_grows ((hRely₀₂.trans (rely_outside hRely₃)).trans (rely_outside hRely₄))
      exact hBefore.trans (rely_grows_record hRely₅)
    · obtain ⟨d, hd, hReports⟩ := hKnown hIs
      have hOutdated :=
        hRely₂.inv.2.outdated_of_refused ((rely_grows hRely₀₂).deliveries hd) hReports
        fun f hGet hSame hAccepting hAttempt => by
          have hMem := (hFind f).mpr ⟨hGet, hSame, hAccepting, hAttempt⟩
          rw [hEmpty] at hMem
          cases hMem
      have hLast := rely_outdated hRely₄ (rely_outdated hRely₃ hOutdated)
      rw [← hPending s₄.db] at hLast
      exact (rely_outdated hRely₅ hLast).2
  · next hSome =>
    obtain ⟨f, hMem⟩ := List.exists_mem_of_length_pos (Nat.pos_of_ne_zero hSome)
    obtain ⟨hGet, hBatchId, hAccepting, hAttempt⟩ := (hFind f).mp hMem
    have hFileId := Table.key_of_get hGet
    have hIds : (v₂.db.files.select fun f => f.id = event.fileId && f.batchId = event.batchId &&
        f.status ∈ eventAcceptingFileStatuses && f.attempt ≤ event.attempt).map
        ConversionFile.id = [event.fileId] := by
      rw [Table.select_eq_singleton hMem fun f' hf' => hDb₂ ▸ ((hFind f').mp hf').1]
      exact congrArg (fun id => [id]) hFileId
    have hPending₂ : ∀ db,
        tx₂.pending db = db.changeFiles [event.fileId] data.write data.write_id := by
      intro db
      rw [hRan₂.pending, hRan₁.pending, hOpened.pending, ← hIds]
      rfl
    have hFileHeld : l₂.held (.file f.id) := hRan₂.takes (List.mem_map_of_mem hMem)
    obtain ⟨b, hBatch⟩ := (rely_consistent hRely₂).owned f (Table.mem_of_get hGet)
    have hBatchHeld : l₂.held (.batch f.batchId) := by
      rw [hBatchId] at hBatch ⊢
      obtain ⟨b₁, hb₁⟩ := rely_existed hRely₂ (rely_issued hRely₀₁ hIssued) hBatch
      refine hRan₂.keeps _ (hRan₁.takes ?_)
      exact locked_batch (hDb₁ ▸ hb₁)
    refine Wp.bind hRely₂.inv (wp_rollUpBatch hWithin₂ fun s₃ s₄ s₅ rolled l₅ tx₅ result
      hRely₃ hRely₄ hRely₅ hWithin₅ hExtends hRolled hPending hHeld => ?_)
    refine wp_finish hWithin₅ fun s₆ hRely₆ hWithin₆ => ?_
    refine wp_commit hWithin₆ fun s₇ hRely₇ _ => ?_
    have hRely₃₄ := hRely₃.trans hRely₄
    have hRely₃₇ := hRely₄.trans (hExtends.rely (hRely₅.trans (hRely₆.trans hRely₇)))
    rw [← hFileId] at hGet
    have hGet₃ := rely_file hRely₃ hFileHeld hGet
    have hGet₇ := rely_file hRely₃₇ hFileHeld hGet₃
    have hBatch₇ := rely_batch (hRely₃.trans hRely₃₇) hBatchHeld hBatch
    have hAfter : ∀ db,
        tx₅.pending db = (db.changeFiles [f.id] data.write data.write_id).setStatus rolled
          (rolledStatus ((s₃.db.changeFiles [f.id] data.write data.write_id).statuses
            f.batchId)) := by
      intro db
      rw [hPending, Function.comp_apply, hPending₂, hPending₂, hFileId, hBatchId]
    rw [hPending₂, hPending₂, ← hFileId, ← hBatchId] at hRolled
    have hAgrees : (tx₅.pending s₇.db).AgreesOn f.batchId := by
      rw [hAfter]
      refine finish_agrees (rely_lock hRely₃₇ hBatchHeld (rely_batch hRely₃ hBatchHeld hBatch))
        hGet₃ hGet₇ hAccepting hBatch₇ ?_ ((rely_consistent hRely₇).agrees _ b hBatch₇) hRolled
      exact rely_batch hRely₃₄ hBatchHeld hBatch
    refine ⟨⟨.finish event data rolled
      (rolledStatus ((s₃.db.changeFiles [f.id] data.write data.write_id).statuses f.batchId)),
        fun _ => ?_⟩,
      fun s₈ _ hRely₈ => ⟨⟨atRest_outside _, ?_⟩, fun _ => ?_⟩⟩
    · have hApply : tx₅.pending s₇.db = (Commit.finish event data rolled (rolledStatus
          ((s₃.db.changeFiles [f.id] data.write data.write_id).statuses f.batchId))).apply
          services s₇.db := by
        rw [hAfter, hFileId]
        rfl
      refine ⟨rfl, rfl, (hWithin₆.later hRely₇).started,
        ⟨hCall, ?_, ⟨f, ?_, hBatchId, hAccepting, hAttempt⟩,
        fun id hMem => ⟨?_, rolledStatus_ne_uploading⟩, ?_⟩, hApply, fun h => absurd rfl h,
        fun _ => storageChecked_of_call hCall.admission, trivial, ?_⟩
      · have hReplies : l₅.replies = replies := by
          rw [hExtends.replies, hRan₂.replies, hRan₁.replies, hOpened.replies]
        rw [← hReplies] at hData
        exact hData
      · exact hFileId ▸ hGet₇
      · exact (hRolled.eq_batchId hMem).trans hBatchId
      · rw [← hBatchId]
        exact hApply ▸ hAgrees
      · rintro r (rfl | rfl)
        · exact hExtends.held _ (hFileId ▸ hFileHeld)
        · exact hExtends.held _ (hBatchId ▸ hBatchHeld)
    · have hBefore :=
        rely_grows ((hRely₀₂.trans (rely_outside hRely₃)).trans (rely_outside hRely₃₇))
      exact hBefore.trans (rely_grows_record hRely₈)
    · have hIssuedFile := (rely_consistent hRely₇).issuedFiles f (Table.mem_of_get hGet₇)
      refine (rely_outdated hRely₈ ⟨?_, fun f' hGet' => .inl ?_⟩).2
      · change event.fileId ∈ (tx₅.pending s₇.db).issued
        rw [hAfter, ← hFileId]
        exact hIssuedFile
      · change (tx₅.pending s₇.db).files.get event.fileId = some f' at hGet'
        rw [hAfter, ← hFileId] at hGet'
        have hWritten : (s₇.db.changeFiles [f.id] data.write data.write_id).files.get f.id =
            some (data.write f) := by
          rw [Database.changeFiles_files, Table.get_modify_of_mem List.mem_cons_self, hGet₇,
            Option.map_some]
        cases hWritten.symm.trans hGet'
        exact (data.write_status f).1

theorem wp_applyResult {outcome : WorkerOutcome} {known : Prop} (hCall : call.handles event)
    (hReport : event.report = .result outcome) (hIssued : event.batchId ∈ s.db.issued)
    (hKnown : known → ∃ d ∈ s.ext.deliveries, d.Reports event)
    (hInv : (ledger services p).Sound s) :
    Wp (discipline services p) call (applyResult event outcome)
      (fun _ l s' => (AtRest l ∧ Grows s.ext s'.ext) ∧ (known → s'.db.Outdated event))
        (.outside replies) s := by
  have hLater : ∀ s', (discipline services p).Rely (fun _ => False) s s' →
      event.batchId ∈ s'.db.issued ∧ (known → ∃ d ∈ s'.ext.deliveries, d.Reports event) := by
    intro s' hRely
    refine ⟨rely_issued hRely hIssued, fun hIs => ?_⟩
    obtain ⟨d, hd, hReports⟩ := hKnown hIs
    exact ⟨d, (rely_grows hRely).deliveries hd, hReports⟩
  unfold applyResult
  cases outcome with
  | completed result =>
    refine Wp.bind hInv ((wp_verifiedCompletion hReport).mono fun data l s' _ hDone => ?_)
    obtain ⟨⟨replies', rfl, hData⟩, hRely⟩ := hDone
    exact (wp_finishFile hCall hData (hLater s' hRely).1 (hLater s' hRely).2).mono fun _ _ _ _ h =>
      ⟨⟨h.1.1, (rely_grows hRely).trans h.1.2⟩, h.2⟩
  | failed failureCode =>
    refine Wp.clock safe_outside fun s₁ hRely₁ => ?_
    exact (wp_finishFile hCall (.failed hReport) (hLater s₁ hRely₁).1 (hLater s₁ hRely₁).2).mono
      fun _ _ _ _ h => ⟨⟨h.1.1, (rely_grows hRely₁).trans h.1.2⟩, h.2⟩

theorem wp_apply {known : Prop} (hCall : call.handles event) (hIssued : event.batchId ∈ s.db.issued)
    (hKnown : known → ∃ d ∈ s.ext.deliveries, d.Reports event) (hClosed : p.closed = true → known)
    (hInv : (ledger services p).Sound s) :
    Wp (discipline services p) call (apply event)
      (fun _ l s' => (AtRest l ∧ Grows s.ext s'.ext) ∧
        (event.isResult = true → known → s'.db.Outdated event))
      (.outside replies) s := by
  unfold apply
  split
  · next hStarted =>
    refine (wp_applyStarted hCall hStarted fun hIs => ?_).mono fun _ _ _ _ hRest =>
      ⟨hRest, fun hResult => ?_⟩
    · obtain ⟨d, hd, hFile, _, hAttempt⟩ := hKnown (hClosed hIs)
      exact ⟨d, hd, hFile, hAttempt⟩
    · simp [WorkerEvent.isResult, hStarted] at hResult
  · next outcome hReport =>
    exact (wp_applyResult hCall hReport hIssued hKnown hInv).mono fun _ _ _ _ h =>
      ⟨h.1, fun _ => h.2⟩

/-! ## The consumer -/

theorem Traffic.event_delivery {message : Nat} {body : WorkerEvent} (h : Traffic p s)
    (hBody : s.ext.eventBodies[message]? = some body) : ∃ d ∈ s.ext.deliveries, d.Reports body := by
  obtain ⟨m, hm, rfl⟩ := List.mem_map.mp (List.mem_of_getElem? hBody)
  exact h.reported m hm

theorem wp_handleEvent {message : Nat} {body : WorkerEvent}
    (hBody : s.ext.eventBodies[message]? = some body) (hInv : (ledger services p).Sound s) :
    Wp (discipline services p) (.consume message body) (handleEvent message body)
      (fun _ l _ => AtRest l)
      (.outside replies) s := by
  obtain ⟨d, hd, hReports⟩ := hInv.2.event_delivery hBody
  unfold handleEvent
  split
  · exact wp_at_rest fun _ _ => atRest_outside _
  · next event hParsed =>
    obtain rfl := parseWorkerEvent_eq_some hParsed
    have hIssued : event.batchId ∈ s.db.issued := hReports.2.1 ▸ (hInv.2.of_delivery hd).2.1
    have hCall : (Call.consume message event).handles event := rfl
    have hKnown : True → ∃ d ∈ s.ext.deliveries, d.Reports event := fun _ => ⟨d, hd, hReports⟩
    refine Wp.bind hInv ((wp_apply hCall hIssued hKnown (fun _ => trivial) hInv).mono
      fun _ l s' hInv' hDone => ?_)
    obtain ⟨⟨⟨replies', rfl⟩, hGrows⟩, hOutdated⟩ := hDone
    refine Wp.answer safe_outside fun s₁ reply y hRely₁ hDeletes => ?_
    have hBody₁ := (rely_grows hRely₁).event (hGrows.event hBody)
    have hTraffic : Traffic p (s₁.setExt y) := by
      refine hRely₁.inv.2.deletesEvent hDeletes hBody₁ fun hResult => ?_
      obtain ⟨d', hd', hReports'⟩ := hInv'.2.event_delivery (hGrows.event hBody)
      refine (rely_outdated hRely₁ ⟨?_, hOutdated hResult trivial⟩).2
      exact hReports'.1 ▸ (hInv'.2.of_delivery hd').1
    refine ⟨guarantee_answer hRely₁.inv hTraffic (deletesEvent_grows hDeletes)
      (deletesEvent_bodies hDeletes), ?_⟩
    rw [Script.bind_done]
    split
    · exact Wp.fail_outside
    · exact wp_at_rest fun _ _ => atRest_outside _

end Pixaeron.Conversion
