import Pixaeron.Conversion.Runs

/-! # Results

A file gets its result from one event at most, and keeps it.
-/

namespace Pixaeron.Conversion

open Transactions

/-- What a result writes into its file, but for the status. -/
structure ResultFields where
  outputObjectKey : Option String
  previewObjectKey : Option String
  outputBytes : Option Nat
  outputChecksum : Option String
  resultKind : Option ConversionResultKind
  inputFormat : Option String
  outputFormat : Option String
  frameCount : Option Nat
  width : Option Nat
  height : Option Nat
  failureCode : Option String
  completedAt : Option Nat
deriving DecidableEq

def ConversionFile.resultFields (f : ConversionFile) : ResultFields where
  outputObjectKey := f.outputObjectKey
  previewObjectKey := f.previewObjectKey
  outputBytes := f.outputBytes
  outputChecksum := f.outputChecksum
  resultKind := f.resultKind
  inputFormat := f.inputFormat
  outputFormat := f.outputFormat
  frameCount := f.frameCount
  width := f.width
  height := f.height
  failureCode := f.failureCode
  completedAt := f.completedAt

/-- The entry writes some of the result fields, or makes the file COMPLETED or FAILED. -/
def WritesResult (e : LogEntry) (id : Uuid) : Prop :=
  ∃ f f', e.before.files.get id = some f ∧ e.after.files.get id = some f' ∧
    (f'.resultFields ≠ f.resultFields ∨ f'.status ≠ f.status ∧
      (f'.status = .completed ∨ f'.status = .failed))

def Starts (e : LogEntry) (event : WorkerEvent) : Prop :=
  e.call.handles event ∧ event.report = .started ∧
    ∃ f f', e.before.files.get event.fileId = some f ∧ e.after.files.get event.fileId = some f' ∧
      f.attempt < f'.attempt

def Finishes (e : LogEntry) (event : WorkerEvent) : Prop :=
  e.call.handles event ∧ (∃ outcome, event.report = .result outcome) ∧ WritesResult e event.fileId

/-- The entry has recorded the output that the file has: its event names the keys of its own
batch, file and attempt, and the store has confirmed its size and checksum. -/
def RecordsOutput (e : LogEntry) (f : ConversionFile) : Prop :=
  ∃ event result stored, Finishes e event ∧ event.fileId = f.id ∧ event.batchId = f.batchId ∧
    event.report = .result (.completed result) ∧ .head (some stored) ∈ e.replies ∧
    stored.bytes = result.outputBytes ∧ stored.checksumSha256 = some result.outputChecksumSha256 ∧
    f.outputBytes = some result.outputBytes ∧ f.outputChecksum = some result.outputChecksumSha256 ∧
    f.outputObjectKey = some (outputObjectKey f.batchId f.id event.attempt) ∧
    ∀ key, f.previewObjectKey = some key → key = previewObjectKey f.batchId f.id event.attempt

variable {services : Services} {p : Policy} {e : LogEntry} {id : Uuid} {now : Nat}
  {w : World conversion Call Outcome}

theorem Call.handles_unique {call : Call} {event event' : WorkerEvent} (h : call.handles event)
    (h' : call.handles event') : event = event' := by
  cases call <;> first | exact h.trans h'.symm | exact h.elim

theorem Legal.writesResult (h : Legal services p e) (hWrites : WritesResult e id) :
    ∃ event data rolled status f, (Commit.finish event data rolled status).Allowed services p e ∧
      event.fileId = id ∧
      e.before.files.get id = some f ∧ e.after.files.get id = some (data.write f) := by
  obtain ⟨f, f', hGet, hGet', hChange⟩ := hWrites
  obtain ⟨c, hAllowed, hApply⟩ := h.commit
  obtain rfl := Table.key_of_get hGet
  have hChanges := c.changes hAllowed hGet (hApply ▸ hGet')
  cases hChanges with
  | finish hId => exact ⟨_, _, _, _, f, hAllowed, hId.symm, hGet, hGet'⟩
  | same => exact absurd hChange (by simp)
  | _ => exact absurd hChange (by simp [ConversionFile.resultFields, ConversionFile.expireAt])

theorem Legal.finishes (h : Legal services p e) (hWrites : WritesResult e id) :
    ∃ event, Finishes e event ∧ event.fileId = id := by
  obtain ⟨event, data, _, _, _, hAllowed, hId, _⟩ := h.writesResult hWrites
  refine ⟨event, ⟨hAllowed.1, ?_, hId.symm ▸ hWrites⟩, hId⟩
  cases hAllowed.2.1 with
  | failed hReport => exact ⟨_, hReport⟩
  | completed hReport => exact ⟨_, hReport⟩

theorem Legal.terminal_of_result (h : Legal services p e) (hWrites : WritesResult e id)
    {f' : ConversionFile} (hGet' : e.after.files.get id = some f') :
    f'.status ∈ terminalFileStatuses := by
  obtain ⟨_, data, _, _, f, _, _, _, hAfter⟩ := h.writesResult hWrites
  cases hGet'.symm.trans hAfter
  cases data <;> simp [FileResult.write, terminalFileStatuses]

theorem not_writesResult (h : Legal services p e)
    (hTerminal : ∀ f, e.before.files.get id = some f → f.status ∈ terminalFileStatuses) :
    ¬ WritesResult e id := by
  intro hWrites
  obtain ⟨event, data, _, _, f, hAllowed, rfl, hGet, _⟩ := h.writesResult hWrites
  obtain ⟨f', hGet', _, hAccepting, _⟩ := hAllowed.2.2.1
  cases hGet.symm.trans hGet'
  exact (ConversionFileStatus.accepting_moves hAccepting).2 (hTerminal f hGet)

theorem Legal.starts (h : Legal services p e) {event : WorkerEvent} (hStarts : Starts e event)
    {f' : ConversionFile} (hGet' : e.after.files.get event.fileId = some f') :
    f'.attempt = event.attempt := by
  obtain ⟨hCall, _, f, f₁, hGet, hGet₁, hMore⟩ := hStarts
  cases hGet'.symm.trans hGet₁
  obtain ⟨c, hAllowed, hApply⟩ := h.commit
  have hKey := Table.key_of_get hGet
  rw [hApply, ← hKey] at hGet'
  rcases c.attempt_cases hAllowed (hKey ▸ hGet) hGet' with hSame | ⟨_, event', _, rfl, _, hAttempt⟩
  · omega
  · rw [hAttempt, Call.handles_unique hAllowed.1 hCall]

theorem WritesResult.issued (h : WritesResult e id) (hLegal : Legal services p e)
    (hCons : Consistent e.before e.endedAt) :
    id ∈ e.after.issued := by
  obtain ⟨f, _, hGet, _⟩ := h
  exact hLegal.issued (Table.key_of_get hGet ▸ hCons.issuedFiles f (Table.mem_of_get hGet))

/-! ## One event at most -/

theorem results_once (h : World.Leads (system services) (start now) w) :
    w.shared.history.Pairwise fun e e' => ∀ id, WritesResult e id → ¬ WritesResult e' id := by
  refine (system_path h).pairwise (Q := fun e db => ∀ id, WritesResult e id → id ∈ db.issued ∧
    ∀ f, db.files.get id = some f → f.status ∈ terminalFileStatuses) (fun e hLegal id hWrites => ?_)
    fun e e' _ hLegal' hLeft => ⟨fun id hWrites => ?_, fun id hWrites => ?_⟩
  · exact ⟨hWrites.issued hLegal.1 hLegal.2, fun f hGet => hLegal.1.terminal_of_result hWrites hGet⟩
  · obtain ⟨hIssued, hTerminal⟩ := hLeft id hWrites
    refine ⟨hLegal'.1.issued hIssued, fun f' hGet' => ?_⟩
    obtain ⟨f, hGet, hStep⟩ := hLegal'.1.of_issued hIssued hGet'
    exact ConversionFileStatus.terminal_of_moves hStep.progress (hTerminal f hGet)
  · exact not_writesResult hLegal'.1 (hLeft id hWrites).2

theorem results_current (h : World.Leads (system services) (start now) w) :
    w.shared.history.Pairwise fun e e' => ∀ event event', Starts e event → Finishes e' event' →
      event.fileId = event'.fileId → event.attempt ≤ event'.attempt := by
  refine (system_path h).pairwise (Q := fun e db => ∀ event,
    Starts e event → event.fileId ∈ db.issued ∧
    ∀ f, db.files.get event.fileId = some f → event.attempt ≤ f.attempt)
      (fun e hLegal event hStarts => ?_)
    fun e e' _ hLegal' hLeft =>
      ⟨fun event hStarts => ?_, fun event event' hStarts hFinishes hSame => ?_⟩
  · refine ⟨?_, fun f' hGet' => (hLegal.1.starts hStarts hGet').ge⟩
    obtain ⟨_, _, f, _, hGet, _⟩ := hStarts
    exact hLegal.1.issued (Table.key_of_get hGet ▸ hLegal.2.issuedFiles f (Table.mem_of_get hGet))
  · obtain ⟨hIssued, hAttempt⟩ := hLeft event hStarts
    refine ⟨hLegal'.1.issued hIssued, fun f' hGet' => ?_⟩
    obtain ⟨f, hGet, hStep⟩ := hLegal'.1.of_issued hIssued hGet'
    exact (hAttempt f hGet).trans hStep.attempt
  · obtain ⟨hCall, _, hWrites⟩ := hFinishes
    obtain ⟨event₁, _, _, _, _, hAllowed, _⟩ := hLegal'.1.writesResult hWrites
    obtain rfl := Call.handles_unique hAllowed.1 hCall
    obtain ⟨f, hGet, _, _, hNotOlder⟩ := hAllowed.2.2.1
    exact ((hLeft event hStarts).2 f (hSame ▸ hGet)).trans hNotOlder

/-! ## What is recorded -/

/-- The output of a file survives every step but the one that writes it. -/
theorem RecordsOutput.congr {f f' : ConversionFile} (h : RecordsOutput e f) (hId : f'.id = f.id)
    (hBatchId : f'.batchId = f.batchId) (hFields : f'.resultFields = f.resultFields) :
    RecordsOutput e f' := by
  simp only [ConversionFile.resultFields, ResultFields.mk.injEq] at hFields
  obtain ⟨hOutput, hPreview, hBytes, hChecksum, _⟩ := hFields
  unfold RecordsOutput
  rw [hId, hBatchId, hOutput, hPreview, hBytes, hChecksum]
  exact h

theorem Legal.recordsOutput (h : Legal services p e) {f f' : ConversionFile}
    (hGet : e.before.files.get id = some f) (hGet' : e.after.files.get id = some f')
    (hWrites : WritesResult e id) (hOutput : f'.outputObjectKey ≠ f.outputObjectKey ∨
      f'.previewObjectKey ≠ f.previewObjectKey) : RecordsOutput e f' := by
  obtain ⟨event, data, _, _, f₀, hAllowed, rfl, hGet₀, hAfter⟩ := h.writesResult hWrites
  cases hGet.symm.trans hGet₀
  cases hGet'.symm.trans hAfter
  obtain ⟨f₁, hGet₁, hBatchId, _⟩ := hAllowed.2.2.1
  cases hGet.symm.trans hGet₁
  have hId := Table.key_of_get hGet
  cases hAllowed.2.1 with
  | failed _ => simp [FileResult.write] at hOutput
  | @completed result stored completedAt hReport hKey hPreview hHead hBytes hChecksum =>
    refine ⟨event, result, stored, ⟨hAllowed.1, ⟨_, hReport⟩, hWrites⟩, hId.symm, hBatchId.symm,
      hReport, hHead, hBytes,
      hChecksum, rfl, rfl, ?_, fun key hSome => ?_⟩
    · rw [FileResult.write_id, FileResult.write_batchId, hId, hBatchId, ← hKey]
      rfl
    · rw [FileResult.write_id, FileResult.write_batchId, hId, hBatchId]
      exact hPreview key hSome

theorem outputs_recorded (h : World.Leads (system services) (start now) w) :
    ∀ f ∈ w.shared.db.files.rows, f.outputObjectKey ≠ none ∨ f.previewObjectKey ≠ none →
      ∃ e ∈ w.shared.history, RecordsOutput e f := by
  have hAll :=
    (system_path h).preserves (P := fun (db : Database) _ => ∀ id f, db.files.get id = some f →
    f.outputObjectKey ≠ none ∨ f.previewObjectKey ≠ none →
      f.status ∈ terminalFileStatuses ∧ ∃ e ∈ w.shared.history, RecordsOutput e f)
    (fun _ _ _ _ hSame => hSame) (fun e he hLegal hHere id f' hGet' hSome => ?_) fun id f hGet =>
      by cases hGet
  · exact fun f hf hSome => (hAll f.id f (Table.get_of_mem hf) hSome).2
  · rcases hLegal.1.file_origin hGet' with ⟨f, hGet, hStep⟩ | ⟨_, _, _, _, _, _, _, _, rfl⟩
    · by_cases hWrites : WritesResult e id
      · have hNone : ¬ (f.outputObjectKey ≠ none ∨ f.previewObjectKey ≠ none) := fun hOld =>
          not_writesResult hLegal.1 (fun f₀ hGet₀ => Option.some.inj (hGet.symm.trans hGet₀) ▸
            (hHere id f hGet hOld).1) hWrites
        push Not at hNone
        have hOutput : f'.outputObjectKey ≠ f.outputObjectKey ∨
          f'.previewObjectKey ≠ f.previewObjectKey := by
          rw [hNone.1, hNone.2]
          exact hSome
        exact ⟨hLegal.1.terminal_of_result hWrites hGet', e, he,
          hLegal.1.recordsOutput hGet hGet' hWrites hOutput⟩
      · have hFields : f'.resultFields = f.resultFields := by
          by_contra hNew
          exact hWrites ⟨f, f', hGet, hGet', .inl hNew⟩
        have hKeys := hFields
        simp only [ConversionFile.resultFields, ResultFields.mk.injEq] at hKeys
        rw [hKeys.1, hKeys.2.1] at hSome
        obtain ⟨hTerminal, e', he', hRecords⟩ := hHere id f hGet hSome
        exact ⟨ConversionFileStatus.terminal_of_moves hStep.progress hTerminal, e', he',
          hRecords.congr hStep.id hStep.batchId hFields⟩
    · simp [newFile] at hSome

/-! ## Under any order and duplication -/

theorem results_robust (h : World.Leads (system services) (start now) w) :
    (∀ w', World.Leads (system services) w w' → ∀ f ∈ w.shared.db.files.rows,
      ∀ f' ∈ w'.shared.db.files.rows,
      f'.id = f.id → f.attempt ≤ f'.attempt ∧ (f.status ∈ terminalFileStatuses →
        f' = f ∨ f.status = .completed ∧ f' = f.expireAt f'.expiresAt)) ∧
    (∀ e ∈ w.shared.history, ∀ id, WritesResult e id → ∃ event,
      Finishes e event ∧ event.fileId = id) ∧
    (w.shared.history.Pairwise fun e e' => ∀ id, WritesResult e id → ¬ WritesResult e' id) ∧
    (w.shared.history.Pairwise fun e e' => ∀ event event', Starts e event → Finishes e' event' →
      event.fileId = event'.fileId → event.attempt ≤ event'.attempt) ∧
    ∀ f ∈ w.shared.db.files.rows, f.outputObjectKey ≠ none ∨ f.previewObjectKey ≠ none →
      ∃ e ∈ w.shared.history, RecordsOutput e f := by
  refine ⟨fun w' h' f hf f' hf' hId => ?_, fun e he id hWrites =>
    (system_legal h e he).1.finishes hWrites,
    results_once h, results_current h, outputs_recorded h⟩
  refine rely_file_steps (system_rely h h') (P := fun f f' => f.attempt ≤ f'.attempt ∧
    (f.status ∈ terminalFileStatuses →
    f' = f ∨ f.status = .completed ∧ f' = f.expireAt f'.expiresAt)) (fun _ =>
      ⟨le_rfl, fun _ => .inl rfl⟩)
    (fun f f₁ f₂ hSoFar hStep => ⟨hSoFar.1.trans hStep.attempt, fun hTerminal => ?_⟩) hf hf' hId
  rcases hSoFar.2 hTerminal with rfl | ⟨hCompleted, hExpired⟩
  · exact hStep.final hTerminal
  · have hStatus : f₁.status = .expired := by rw [hExpired]; rfl
    rcases hStep.final (by rw [hStatus]; decide) with rfl | ⟨hNot, _⟩
    · exact .inr ⟨hCompleted, hExpired⟩
    · cases hStatus.symm.trans hNot

theorem results_robust_converted : ∃ w, World.Leads (system Sample.services) (start 0) w ∧
    w.shared.db.files.rows.map (fun f => (f.id, f.status)) = [(Sample.fileId, .completed)] ∧
    ∀ e ∈ w.shared.history, ∀ id, WritesResult e id → ∃ event,
      Finishes e event ∧ event.fileId = id := by
  obtain ⟨w, hLeads, hFiles, _⟩ := Sample.conversionRun_leads
  exact ⟨w, hLeads, hFiles, (results_robust hLeads).2.1⟩

end Pixaeron.Conversion
