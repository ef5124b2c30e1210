import Pixaeron.Conversion.CommitFacts

/-! # The invariant of the rows

Every committed state is consistent: files belong to batches that agree with them, what is READY
is measured, and nothing live expires within an hour of the creation of its batch.
-/

namespace Pixaeron.Conversion

open Transactions

structure Consistent (db : Database) (now : Nat) : Prop where
  owned : ∀ f ∈ db.files.rows, ∃ b, db.batches.get f.batchId = some b
  peopled : ∀ b ∈ db.batches.rows, ∃ f ∈ db.files.rows, f.batchId = b.id
  agrees : ∀ id, db.AgreesOn id
  measured : ∀ f ∈ db.files.rows, f.status = .ready → f.inputBytes.isSome ∧ f.inputEtag.isSome
  lasting : ∀ f ∈ db.files.rows, f.status ∈ liveFileStatuses → ∀ b,
    db.batches.get f.batchId = some b →
    b.createdAt + hourMs ≤ f.expiresAt
  windowed : ∀ f ∈ db.files.rows, ∀ b, db.batches.get f.batchId = some b → b.status = .uploading →
    f.expiresAt = b.expiresAt
  born : ∀ b ∈ db.batches.rows, b.createdAt ≤ now
  issuedFiles : ∀ f ∈ db.files.rows, f.id ∈ db.issued
  issuedBatches : ∀ b ∈ db.batches.rows, b.id ∈ db.issued
  numbered : ∀ event ∈ db.outbox.rows, event.id < db.outboxSeq

theorem consistent_initial (now : Nat) : Consistent .initial now where
  owned f hf := by cases hf
  peopled b hb := by cases hb
  agrees id b hGet := by cases hGet
  measured f hf := by cases hf
  lasting f hf := by cases hf
  windowed f hf := by cases hf
  born b hb := by cases hb
  issuedFiles f hf := by cases hf
  issuedBatches b hb := by cases hb
  numbered event hEvent := by cases hEvent

theorem Consistent.later {db : Database} {t t' : Nat} (h : Consistent db t)
    (hTime : t ≤ t') : Consistent db t' :=
  { h with born := fun b hb => (h.born b hb).trans hTime }

section Agreement

variable {db db' : Database} {id : Uuid}

theorem mem_statuses {s : ConversionFileStatus} :
    s ∈ db.statuses id ↔ ∃ f ∈ db.files.rows, f.batchId = id ∧ f.status = s := by
  simp [Database.statuses, and_assoc]

/-- A batch that keeps its status and whose files change unnoticed still agrees. -/
theorem Database.AgreesOn.unnoticed (h : db.AgreesOn id)
    (hBatch : ∀ b', db'.batches.get id = some b' → ∃ b,
      db.batches.get id = some b ∧ b'.status = b.status)
    (hTo : ∀ f ∈ db.files.rows, f.batchId = id → ∃ f' ∈ db'.files.rows,
      f'.batchId = id ∧ Unnoticed f.status f'.status)
    (hFrom : ∀ f' ∈ db'.files.rows, f'.batchId = id → ∃ f ∈ db.files.rows,
      f.batchId = id ∧ Unnoticed f.status f'.status) :
    db'.AgreesOn id := by
  intro b' hb'
  obtain ⟨b, hb, hStatus⟩ := hBatch b' hb'
  rw [hStatus]
  refine (h b hb).unnoticed ?_ ?_
  · intro s hs
    obtain ⟨f, hf, hId, rfl⟩ := mem_statuses.mp hs
    obtain ⟨f', hf', hId', hSame⟩ := hTo f hf hId
    exact ⟨f'.status, mem_statuses.mpr ⟨f', hf', hId', rfl⟩, hSame⟩
  · intro s' hs'
    obtain ⟨f', hf', hId', rfl⟩ := mem_statuses.mp hs'
    obtain ⟨f, hf, hId, hSame⟩ := hFrom f' hf' hId'
    exact ⟨f.status, mem_statuses.mpr ⟨f, hf, hId, rfl⟩, hSame⟩

theorem Database.AgreesOn.same (h : db.AgreesOn id)
    (hBatch : ∀ b', db'.batches.get id = some b' → ∃ b,
      db.batches.get id = some b ∧ b'.status = b.status)
    (hFiles : ∀ f, f.batchId = id → (f ∈ db'.files.rows ↔ f ∈ db.files.rows)) : db'.AgreesOn id :=
  h.unnoticed hBatch (fun f hf hId => ⟨f, (hFiles f hId).mpr hf, hId, .refl _⟩)
    fun f hf hId => ⟨f, (hFiles f hId).mp hf, hId, .refl _⟩

/-- Files of other batches may change as they like. -/
theorem mem_changeFiles_of_other {ids : List Uuid} {g : ConversionFile → ConversionFile}
    {h : ∀ row, (g row).id = row.id} {f : ConversionFile}
    (hBatch : ∀ row, (g row).batchId = row.batchId)
    (hOther : ∀ k ∈ ids, ∀ row, db.files.get k = some row → row.batchId ≠ f.batchId) :
    f ∈ (db.changeFiles ids g h).files.rows ↔ f ∈ db.files.rows := by
  rw [Table.mem_rows_iff, Table.mem_rows_iff, Database.changeFiles_files, Table.get_modify]
  by_cases hMem : f.id ∈ ids
  · cases hGet : db.files.get f.id with
    | none => simp
    | some row =>
      have hNot := hOther f.id hMem row hGet
      simp only [hMem, if_true, Option.map_some, Option.some.injEq]
      exact iff_of_false (fun hEq => hNot (by rw [← hEq, hBatch])) (fun hEq => hNot (by rw [hEq]))
  · simp [hMem]

theorem Database.AgreesOn.changeFiles {ids : List Uuid} {g : ConversionFile → ConversionFile}
    {h : ∀ row, (g row).id = row.id} (hAgrees : db.AgreesOn id)
    (hBatch : ∀ row, (g row).batchId = row.batchId)
    (hQuiet : ∀ k ∈ ids, ∀ row, db.files.get k = some row → Unnoticed row.status (g row).status) :
    (db.changeFiles ids g h).AgreesOn id := by
  refine hAgrees.unnoticed (fun b hb => ⟨b, hb, rfl⟩) ?_ ?_
  · intro f hf hId
    have hGet : (db.changeFiles ids g h).files.get f.id = some (if f.id ∈ ids then g f else f) := by
      rw [Database.changeFiles_files, Table.get_modify, Table.get_of_mem hf, Option.map_some]
    refine ⟨_, Table.mem_of_get hGet, ?_, ?_⟩
    · split
      · rw [hBatch, hId]
      · exact hId
    · split
      · next hMem => exact hQuiet f.id hMem f (Table.get_of_mem hf)
      · exact .refl _
  · intro f' hf' hId'
    obtain ⟨f, hf, rfl⟩ := List.mem_map.mp hf'
    refine ⟨f, hf, ?_, ?_⟩
    · split at hId'
      · rw [← hId', hBatch]
      · exact hId'
    · split
      · next hMem => exact hQuiet f.id hMem f (Table.get_of_mem hf)
      · exact .refl _

theorem get_changeBatches_of_not_mem {ids : List Uuid} {g : ConversionBatch → ConversionBatch}
    {h : ∀ row, (g row).id = row.id} (hMem : id ∉ ids) :
    (db.changeBatches ids g h).batches.get id = db.batches.get id := by
  rw [Database.changeBatches_batches, Table.get_modify_of_not_mem hMem]

end Agreement

variable {services : Services} {p : Policy} {e : LogEntry}

/-! ## Creation -/

theorem find_newFile {batchId fileId : Uuid} {expiresAt : Nat} {fileIds : List Uuid}
    (hMem : fileId ∈ fileIds) :
    (fileIds.map fun id => newFile batchId id expiresAt).find? (fun f => f.id = fileId) =
      some (newFile batchId fileId expiresAt) := by
  induction fileIds with
  | nil => cases hMem
  | cons id rest ih =>
    rw [List.map_cons, List.find?_cons]
    by_cases hId : id = fileId
    · subst hId
      simp [newFile]
    · have hRest := ih ((List.mem_cons.mp hMem).resolve_left fun h => hId h.symm)
      simp only [show (newFile batchId id expiresAt).id = id from rfl, hId, decide_false]
      exact hRest

section Creation

variable {t now : Nat} {input : CreateBatchInput} {snapshot : EntitlementSnapshot}
  {planCode : ConversionPlanCode}
  {drawn : Drawn} (hCons : Consistent e.before t)
  (hAllowed : (Commit.create input snapshot planCode drawn now).Allowed services p e)

include hCons hAllowed

theorem Consistent.fresh_batch : e.before.batches.get drawn.batchId = none := by
  obtain ⟨_, _, _, _, _, hBatch, _⟩ := hAllowed
  simp only [Database.acceptsBatch, Bool.and_eq_true, decide_eq_true_eq] at hBatch
  exact Table.get_eq_none_iff.mpr fun b hb hId => hBatch.1 (hId ▸ hCons.issuedBatches b hb)

theorem Consistent.fresh_files : ∀ fileId ∈ drawn.fileIds, e.before.files.get fileId = none := by
  intro fileId hMem
  obtain ⟨_, _, _, _, _, _, hFiles⟩ := hAllowed
  simp only [Database.acceptsFiles, Bool.and_eq_true, List.all_eq_true, decide_eq_true_eq] at hFiles
  exact Table.get_eq_none_iff.mpr fun f hf hId =>
    hFiles.1 fileId hMem (hId ▸ hCons.issuedFiles f hf)

theorem Consistent.no_file : ∀ f ∈ e.before.files.rows, f.batchId ≠ drawn.batchId := by
  intro f hf hId
  obtain ⟨b, hb⟩ := hCons.owned f hf
  rw [hId, hCons.fresh_batch hAllowed] at hb
  cases hb

theorem Consistent.created_batch :
    ((Commit.create input snapshot planCode drawn now).apply services e.before).batches.get
      drawn.batchId =
      some (newBatch services input snapshot planCode drawn now) := by
  rw [Commit.apply, Database.get_insertBatch_batches, hCons.fresh_batch hAllowed, Option.none_or]
  exact if_pos rfl

theorem Consistent.created_file {fileId : Uuid} (hMem : fileId ∈ drawn.fileIds) :
    ((Commit.create input snapshot planCode drawn now).apply services e.before).files.get fileId =
      some (newFile drawn.batchId fileId (now + uploadWindowMs)) := by
  rw [Commit.apply, Database.get_insertBatch_files, hCons.fresh_files hAllowed fileId hMem,
    Option.none_or]
  exact find_newFile hMem

theorem Commit.agrees_create (id : Uuid) :
    ((Commit.create input snapshot planCode drawn now).apply services e.before).AgreesOn id := by
  have hNew : ∀ f,
    f ∈ ((Commit.create input snapshot planCode drawn now).apply services e.before).files.rows →
      f ∈ e.before.files.rows ∨ f.status = .uploading ∧ f.batchId = drawn.batchId := by
    intro f hf
    have hGet := Table.get_of_mem hf
    rw [Commit.apply, Database.get_insertBatch_files, Option.or_eq_some_iff] at hGet
    rcases hGet with hOld | ⟨_, hFound⟩
    · exact .inl (Table.mem_of_get hOld)
    · obtain ⟨fileId, _, rfl⟩ := List.mem_map.mp (List.mem_of_find?_eq_some hFound)
      exact .inr ⟨rfl, rfl⟩
  by_cases hId : id = drawn.batchId
  · subst hId
    intro b hb
    cases (hCons.created_batch hAllowed).symm.trans hb
    refine agrees_uploading ?_ ?_
    · obtain ⟨fileId, hFileId⟩ := List.exists_mem_of_ne_nil _ hAllowed.2.2.2.1
      refine List.ne_nil_of_mem (a := .uploading) (mem_statuses.mpr ?_)
      exact ⟨_, Table.mem_of_get (hCons.created_file hAllowed hFileId), rfl, rfl⟩
    · intro s hs
      obtain ⟨f, hf, hBatchId, rfl⟩ := mem_statuses.mp hs
      rcases hNew f hf with hOld | ⟨hUploading, _⟩
      · exact absurd hBatchId (hCons.no_file hAllowed f hOld)
      · exact hUploading
  · refine (hCons.agrees id).same (fun b hb => ⟨b, ?_, rfl⟩) fun f hf =>
      ⟨fun hMem => ?_, fun hMem => ?_⟩
    · rw [Commit.apply, Database.get_insertBatch_batches] at hb
      simpa [newBatch, Ne.symm hId] using hb
    · exact (hNew f hMem).resolve_right fun hNewFile => hId (hf ▸ hNewFile.2)
    · refine Table.mem_of_get (k := f.id) ?_
      rw [Commit.apply, Database.get_insertBatch_files, Table.get_of_mem hMem, Option.some_or]

end Creation

/-! ## Agreement -/

section Agreement

variable {t : Nat} (hCons : Consistent e.before t)

include hCons

theorem Admission.agrees {a : Admission} (hAllowed : a.Allowed services p e) (id : Uuid) :
    (a.write services e.before).AgreesOn id := by
  by_cases hOwn : id = a.batch.id
  · subst hOwn
    intro b hb
    rw [get_write_batches] at hb
    obtain ⟨b₀, _, hEq⟩ := Option.map_eq_some_iff.mp hb
    rw [if_pos rfl] at hEq
    obtain ⟨c, hc⟩ := List.exists_mem_of_ne_nil _ hAllowed.nonempty
    obtain ⟨f, hGet, _, hBatchId, _⟩ := hAllowed.claimed c hc
    refine .of_open (.inl (by rw [← hEq])) ⟨.queued, mem_statuses.mpr ?_, by decide⟩
    refine ⟨{ f with status := .queued, expiresAt := a.retentionExpiresAt },
      Table.mem_of_get (k := c.id) ?_,
      hBatchId, rfl⟩
    rw [hAllowed.get_claimed (List.mem_map_of_mem hc), hGet]
    rfl
  · by_cases hEvicted : ∃ k ∈ a.evicted, ∃ row, e.before.files.get k = some row ∧ row.batchId = id
    · obtain ⟨k, hk, row, hRow, rfl⟩ := hEvicted
      exact hAllowed.agrees k hk row hRow hOwn
    · push Not at hEvicted
      refine (hCons.agrees id).same (fun b hb => ?_) fun f hf => ?_
      · rw [get_write_batches] at hb
        obtain ⟨b₀, hb₀, hEq⟩ := Option.map_eq_some_iff.mp hb
        have hNotRolled : id ∉ a.rolled := by
          intro hRolled
          obtain ⟨k, hk, row, hRow, hId⟩ := hAllowed.rolled id hRolled
          exact hEvicted k hk row hRow hId
        rw [if_neg hOwn, if_neg hNotRolled] at hEq
        exact ⟨b₀, hb₀, by rw [hEq]⟩
      · rw [write_files, queueFiles]
        rw [mem_changeFiles_of_other (by exact fun _ => rfl), evict,
          mem_changeFiles_of_other (by exact fun _ => rfl)]
        · intro k hk row hRow hId
          exact hEvicted k hk row hRow (hId.trans hf)
        · intro k hk row hRow hId
          obtain ⟨c, hc, rfl⟩ := List.mem_map.mp hk
          obtain ⟨f₀, hGet, _, hBatchId, _⟩ := hAllowed.claimed c hc
          rw [evict, Database.changeFiles_files, Table.get_modify, hGet, Option.map_some,
            Option.some.injEq] at hRow
          refine hOwn ?_
          rw [← hf, ← hId, ← hRow, ← hBatchId]
          split <;> rfl

theorem agrees_rollUp {ids rolled : List Uuid} {batchId id : Uuid}
    {g : ConversionFile → ConversionFile} {h : ∀ row, (g row).id = row.id}
    {status : ConversionBatchStatus} (hBatch : ∀ row, (g row).batchId = row.batchId)
    (hIds : ∀ k ∈ ids, ∀ row, e.before.files.get k = some row → row.batchId = batchId)
    (hRolled : ∀ k ∈ rolled, k = batchId)
    (hOwn : ((e.before.changeFiles ids g h).changeBatches rolled
      fun b => { b with status := status }).AgreesOn batchId) :
    ((e.before.changeFiles ids g h).changeBatches rolled
      fun b => { b with status := status }).AgreesOn id := by
  by_cases hId : id = batchId
  · exact hId ▸ hOwn
  · refine (hCons.agrees id).same (fun b hb => ?_) fun f hf => ?_
    · rw [get_changeBatches_of_not_mem fun hMem => hId (hRolled id hMem)] at hb
      exact ⟨b, hb, rfl⟩
    · rw [Database.changeBatches_files]
      exact mem_changeFiles_of_other hBatch fun k hk row hRow hSame =>
        hId (by rw [← hf, ← hSame, hIds k hk row hRow])

theorem Commit.agrees_process {ids : List Uuid}
    (hQueued : ∀ k ∈ ids, ∃ b, e.before.batches.get k = some b ∧ b.status = .queued) (id : Uuid) :
    (e.before.changeBatches ids fun b => { b with status := .processing }).AgreesOn id := by
  by_cases hMem : id ∈ ids
  · intro b hb
    obtain ⟨b₀, hb₀, hStatus⟩ := hQueued id hMem
    rw [Database.changeBatches_batches, Table.get_modify_of_mem hMem, hb₀] at hb
    cases hb
    have hAgrees := hCons.agrees id b₀ hb₀
    have hSome : ∃ s ∈ e.before.statuses id, s ∉ terminalFileStatuses := by
      by_contra hNone
      push Not at hNone
      have hTerminal := hAgrees.terminal.mpr hNone
      rw [hStatus] at hTerminal
      exact absurd hTerminal (by decide)
    exact .of_open (.inr rfl) hSome
  · refine (hCons.agrees id).same (fun b hb => ⟨b, ?_, rfl⟩) fun _ _ => Iff.rfl
    rwa [get_changeBatches_of_not_mem hMem] at hb

theorem Commit.agrees_purge {ids : List Uuid} (id : Uuid) :
    (e.before.deleteBatches ids).AgreesOn id := by
  intro b hb
  rw [Database.get_deleteBatches_batches, Option.filter_eq_some_iff] at hb
  obtain ⟨hb, hKept⟩ := hb
  have hSame : (e.before.deleteBatches ids).AgreesOn id := by
    refine (hCons.agrees id).same (fun b' hb' => ⟨b', ?_, rfl⟩) fun f hf => ?_
    · rw [Database.get_deleteBatches_batches, Option.filter_eq_some_iff] at hb'
      exact hb'.1
    · rw [Table.mem_rows_iff, Table.mem_rows_iff, Database.get_deleteBatches_files,
        Option.filter_eq_some_iff]
      simp only [hf]
      exact ⟨fun h => h.1, fun h => ⟨h, hKept⟩⟩
  refine hSame b ?_
  rw [Database.get_deleteBatches_batches, Option.filter_eq_some_iff]
  exact ⟨hb, hKept⟩

theorem Commit.agrees {c : Commit} (hAllowed : c.Allowed services p e) (id : Uuid) :
    (c.apply services e.before).AgreesOn id := by
  cases c with
  | nothing => exact hCons.agrees id
  | create input snapshot planCode drawn now => exact agrees_create hCons hAllowed id
  | verify ids stored =>
    refine (hCons.agrees id).changeFiles (fun _ => rfl) fun k hk row hRow => ?_
    obtain ⟨f, hf, hStatus⟩ := hAllowed k hk
    cases hRow.symm.trans hf
    exact .inr
      ⟨by rw [hStatus]; decide, (by decide : .ready ∉ terminalFileStatuses), fun _ => .inr rfl⟩
  | admission a => exact Admission.agrees hCons hAllowed id
  | start ids event startedAt =>
    refine (hCons.agrees id).changeFiles (fun _ => rfl) fun k hk row hRow => ?_
    obtain ⟨f, hf, _, _, hAccepting, _⟩ := hAllowed.2.2 k hk
    cases hRow.symm.trans hf
    refine .inr ⟨(ConversionFileStatus.accepting_moves hAccepting).2,
      (by decide : .processing ∉ terminalFileStatuses), ?_⟩
    rintro (hEarly | hEarly) <;> (rw [hEarly] at hAccepting; exact absurd hAccepting (by decide))
  | process ids => exact agrees_process hCons hAllowed id
  | finish event data rolled status =>
    obtain ⟨_, _, ⟨f, hf, hBatchId, _⟩, hRolled, hOwn⟩ := hAllowed
    refine agrees_rollUp hCons data.write_batchId (fun k hk row hRow => ?_)
      (fun k hk => (hRolled k hk).1) hOwn
    rw [List.mem_singleton] at hk
    subst hk
    cases hRow.symm.trans hf
    exact hBatchId
  | sweep batchId ids rolled status =>
    obtain ⟨hIds, hRolled, hOwn⟩ := hAllowed
    refine agrees_rollUp hCons (fun _ => rfl) (fun k hk row hRow => ?_)
      (fun k hk => (hRolled k hk).1) hOwn
    obtain ⟨f, hf, hBatchId, _⟩ := hIds k hk
    cases hRow.symm.trans hf
    exact hBatchId
  | purge ids => exact agrees_purge hCons id
  | purgeUsage keys => exact hCons.agrees id
  | publish deliveredIds failedIds now => exact hCons.agrees id

end Agreement

/-! ## Every entry -/

theorem hourMs_le_retention {hours : Nat} {outputRetention : ConversionRetentionClass}
    (h : retentionClassByHours hours = some outputRetention) : hourMs ≤ hours * hourMs := by
  refine Nat.le_mul_of_pos_left _ (Nat.pos_of_ne_zero ?_)
  rintro rfl
  cases h

/-- A file that becomes QUEUED from READY does so by an admission. -/
theorem Legal.queued {id : Uuid} {f f' : ConversionFile} (h : Legal services p e)
    (hGet : e.before.files.get id = some f) (hGet' : e.after.files.get id = some f')
    (hReady : f.status = .ready) (hQueued : f'.status = .queued) :
    ∃ a : Admission, a.Allowed services p e ∧ e.after = a.write services e.before ∧
      id ∈ a.claimedIds ∧ f' = { f with status := .queued, expiresAt := a.retentionExpiresAt } := by
  obtain ⟨c, hAllowed, hApply⟩ := h.commit
  obtain rfl := Table.key_of_get hGet
  rw [hApply] at hGet'
  cases c.changes hAllowed hGet hGet' with
  | queue hClaimed => exact ⟨_, hAllowed, hApply, hClaimed, rfl⟩
  | same => cases hReady.symm.trans hQueued
  | @finish _ data =>
    cases data <;> cases hQueued
  | _ => cases hQueued

theorem Legal.uploading_batch {id : Uuid} {b' : ConversionBatch} (h : Legal services p e)
    (hGet' : e.after.batches.get id = some b') (hUploading : b'.status = .uploading)
    (hOld : e.before.batches.get id ≠ none) : e.before.batches.get id = some b' := by
  obtain ⟨c, hAllowed, hApply⟩ := h.commit
  rw [hApply] at hGet'
  have hChanged {ids : List Uuid} {status : ConversionBatchStatus} {db : Database}
      (hBatches : db.batches =
        (e.before.changeBatches ids fun b => { b with status := status }).batches)
      (hOther : id ∈ ids → status ≠ .uploading) (hGet' : db.batches.get id = some b') :
      e.before.batches.get id = some b' := by
    rw [hBatches, Database.changeBatches_batches, Table.get_modify] at hGet'
    obtain ⟨b, hb, hEq⟩ := Option.map_eq_some_iff.mp hGet'
    split at hEq
    · next hMem =>
      rw [← hEq] at hUploading
      exact absurd hUploading (hOther hMem)
    · rw [hb, hEq]
  cases c with
  | create input snapshot planCode drawn now =>
    obtain ⟨b, hb⟩ := Option.ne_none_iff_exists'.mp hOld
    rw [Commit.apply, Database.get_insertBatch_batches, hb, Option.some_or] at hGet'
    rw [hb, hGet']
  | admission a =>
    rw [Commit.apply, Admission.get_write_batches] at hGet'
    obtain ⟨b, hb, hEq⟩ := Option.map_eq_some_iff.mp hGet'
    split at hEq
    · rw [← hEq] at hUploading
      cases hUploading
    · split at hEq
      · rw [← hEq] at hUploading
        cases hUploading
      · rw [hb, hEq]
  | process ids => exact hChanged rfl (fun _ => by decide) hGet'
  | finish event data rolled status =>
    exact hChanged rfl (fun hMem => (hAllowed.2.2.2.1 id hMem).2) hGet'
  | sweep batchId ids rolled status =>
    exact hChanged rfl (fun hMem => (hAllowed.2.1 id hMem).2) hGet'
  | purge ids =>
    rw [Commit.apply, Database.get_deleteBatches_batches, Option.filter_eq_some_iff] at hGet'
    exact hGet'.1
  | nothing => exact hGet'
  | verify ids stored => exact hGet'
  | start ids event startedAt => exact hGet'
  | purgeUsage keys => exact hGet'
  | publish deliveredIds failedIds now => exact hGet'

/-- The row a message becomes under the given number. -/
def outboxRow (now : Nat) (message : (String × ConversionRequestMessage) × Nat) : OutboxEvent :=
  ⟨message.2, message.1.1, message.1.2, .pending, 0, now⟩

theorem Database.insertOutbox_outboxSeq {db : Database} {now : Nat}
    {messages : List (String × ConversionRequestMessage)} :
    (db.insertOutbox now messages).outboxSeq = db.outboxSeq + messages.length := by
  unfold insertOutbox
  induction messages generalizing db with
  | nil => rfl
  | cons message rest ih =>
    rw [List.foldl_cons, ih, List.length_cons]
    simp only
    omega

/-- New outbox rows are numbered from `outboxSeq` on. -/
theorem Database.insertOutbox_rows {db : Database} {now : Nat}
    {messages : List (String × ConversionRequestMessage)}
    (hNumbered : ∀ event ∈ db.outbox.rows, event.id < db.outboxSeq) :
    (db.insertOutbox now messages).outbox.rows =
      db.outbox.rows ++ (messages.zipIdx db.outboxSeq).map (outboxRow now) := by
  unfold insertOutbox
  induction messages generalizing db with
  | nil => simp
  | cons message rest ih =>
    have hFresh : db.outbox.get db.outboxSeq = none :=
      Table.get_eq_none_iff.mpr fun event hEvent hId => absurd hId (hNumbered event hEvent).ne
    rw [List.foldl_cons, ih, Table.rows_insert hFresh, List.zipIdx_cons, List.map_cons,
      List.append_assoc]
    · rfl
    · intro event hEvent
      rw [Table.rows_insert hFresh, List.mem_append, List.mem_singleton] at hEvent
      rcases hEvent with hOld | rfl
      · exact (hNumbered event hOld).trans (Nat.lt_succ_self _)
      · exact Nat.lt_succ_self _

theorem Legal.issued (h : Legal services p e) : e.before.issued ⊆ e.after.issued := by
  obtain ⟨c, _, hApply⟩ := h.commit
  rw [hApply]
  cases c with
  | create input snapshot planCode drawn now => exact List.subset_append_left _ _
  | admission a => rw [Commit.apply, Admission.write_issued]; exact List.Subset.refl _
  | _ => exact List.Subset.refl _

theorem Admission.write_outbox {a : Admission} {db : Database}
    (hNumbered : ∀ event ∈ db.outbox.rows, event.id < db.outboxSeq) :
    (a.write services db).outbox.rows =
      db.outbox.rows ++ ((a.messages services).zipIdx db.outboxSeq).map
        (outboxRow a.startedAt) := by
  have hOutbox : (a.queueBatch (a.queueFiles (a.charge (a.rollUp (a.evict db))))).outbox =
    db.outbox := by
    simp [queueBatch, queueFiles, rollUp, evict]
  have hSeq : (a.queueBatch (a.queueFiles (a.charge (a.rollUp (a.evict db))))).outboxSeq =
    db.outboxSeq := by
    simp [queueBatch, queueFiles, rollUp, evict]
  rw [write, Database.insertOutbox_rows (by rw [hOutbox, hSeq]; exact hNumbered), hOutbox, hSeq]

theorem Admission.write_outboxSeq {a : Admission} {db : Database} :
    (a.write services db).outboxSeq = db.outboxSeq + a.claimed.length := by
  simp [write, Database.insertOutbox_outboxSeq, messages, queueBatch, queueFiles, rollUp, evict]

theorem Legal.numbered (h : Legal services p e)
    (hNumbered : ∀ event ∈ e.before.outbox.rows, event.id < e.before.outboxSeq) :
    ∀ event ∈ e.after.outbox.rows, event.id < e.after.outboxSeq := by
  obtain ⟨c, hAllowed, hApply⟩ := h.commit
  rw [hApply]
  intro event hEvent
  cases c with
  | admission a =>
    rw [Commit.apply, Admission.write_outbox hNumbered, List.mem_append] at hEvent
    rw [Commit.apply, Admission.write_outboxSeq]
    rcases hEvent with hOld | hNew
    · exact Nat.lt_add_right _ (hNumbered event hOld)
    · obtain ⟨⟨message, i⟩, hMem, rfl⟩ := List.mem_map.mp hNew
      have hLast := (List.mem_zipIdx hMem).2.1
      simpa [Admission.messages, outboxRow] using hLast
  | publish deliveredIds failedIds now =>
    obtain ⟨old, hOld, rfl⟩ := List.mem_map.mp hEvent
    have hId : (if old.id ∈ failedIds then old.backOff now else old).id = old.id := by split <;> rfl
    rw [hId]
    exact hNumbered old (List.mem_of_mem_filter hOld)
  | _ => exact hNumbered event hEvent

theorem Consistent.step (hCons : Consistent e.before e.endedAt) (h : Legal services p e) :
    Consistent e.after e.endedAt where
  owned f' hf' := by
    rcases h.file_origin (Table.get_of_mem hf') with ⟨f, hGet, hStep⟩ |
      ⟨_, _, _, _, _, hAllowed, hApply, _, hNew⟩
    · obtain ⟨b, hb⟩ := hCons.owned f (Table.mem_of_get hGet)
      have hKey := Table.key_of_get hb
      rw [← hKey] at hb
      rw [hStep.batchId, ← hKey]
      rcases h.batchAfter hb with ⟨b', hb', _⟩ | ⟨_, hNone⟩
      · exact ⟨b', hb'⟩
      · exact absurd (hStep.batchId.trans hKey.symm) (hNone f' hf')
    · rw [hNew, hApply]
      exact ⟨_, hCons.created_batch hAllowed⟩
  peopled b' hb' := by
    rcases h.batch_origin (Table.get_of_mem hb') with ⟨b, hGet, hStep⟩ |
      ⟨_, _, _, _, _, hAllowed, hApply, hId, _⟩
    · obtain ⟨f, hf, hBatchId⟩ := hCons.peopled b (Table.mem_of_get hGet)
      rcases h.fileAfter (Table.get_of_mem hf) with ⟨f', hf', hFile⟩ | ⟨_, hGone, _⟩
      · refine ⟨f', Table.mem_of_get hf', ?_⟩
        rw [hFile.batchId, hBatchId, Table.key_of_get hGet]
      · rw [hBatchId, Table.key_of_get hGet, Table.get_of_mem hb'] at hGone
        cases hGone
    · obtain ⟨fileId, hFileId⟩ := List.exists_mem_of_ne_nil _ hAllowed.2.2.2.1
      rw [hApply, hId]
      exact ⟨_, Table.mem_of_get (hCons.created_file hAllowed hFileId), rfl⟩
  agrees id := by
    obtain ⟨c, hAllowed, hApply⟩ := h.commit
    rw [hApply]
    exact Commit.agrees hCons hAllowed id
  measured f' hf' hReady := by
    rcases h.file_origin (Table.get_of_mem hf') with ⟨f, hGet, hStep⟩ |
      ⟨_, _, _, _, _, _, _, _, hNew⟩
    · rcases hStep.measured hReady with hOld | hMeasured
      · obtain ⟨hBytes, hEtag⟩ := hStep.input (by rw [hOld]; decide)
        rw [hBytes, hEtag]
        exact hCons.measured f (Table.mem_of_get hGet) hOld
      · exact hMeasured
    · rw [hNew] at hReady
      cases hReady
  lasting f' hf' hLive b' hb' := by
    rcases h.file_origin (Table.get_of_mem hf') with ⟨f, hGet, hStep⟩ |
      ⟨_, _, _, _, _, hAllowed, hApply, _, hNew⟩
    · obtain ⟨b, hb⟩ := hCons.owned f (Table.mem_of_get hGet)
      have hKey := Table.key_of_get hb
      have hSame : BatchStep b b' := by
        rcases h.batchAfter (hKey ▸ hb) with ⟨b'', hb'', hBatch⟩ | ⟨hGone, _⟩
        · rw [hStep.batchId, ← hKey] at hb'
          cases hb'.symm.trans hb''
          exact hBatch
        · rw [hStep.batchId, ← hKey, hGone] at hb'
          cases hb'
      rw [hSame.createdAt]
      rcases hStep.expiry hLive with hExpiry | ⟨hReady, hQueued⟩
      · rw [hExpiry]
        refine hCons.lasting f (Table.mem_of_get hGet) ?_ b hb
        have hMoves := hStep.progress
        revert hMoves hLive
        cases f.status <;> cases f'.status <;> decide
      · obtain ⟨a, hAllowed, _, hClaimed, hf'⟩ :=
          h.queued hGet (Table.get_of_mem hf') hReady hQueued
        obtain ⟨t, hFrom, _, hExpires⟩ := hAllowed.retention
        obtain ⟨c, hc, hId⟩ := List.mem_map.mp hClaimed
        obtain ⟨f₀, hGet₀, _, hBatchId, _⟩ := hAllowed.claimed c hc
        obtain ⟨b₀, hb₀, hBatch, _⟩ := hAllowed.batch
        rw [hId] at hGet₀
        cases hGet.symm.trans hGet₀
        rw [hBatchId, hb₀, Option.some.injEq] at hb
        have hBorn := hAllowed.born
        have hHour := hourMs_le_retention hAllowed.retentionClass
        rw [← hb, hBatch.createdAt, hf']
        simp only
        omega
    · rw [hApply] at hb'
      rw [hNew] at hb' ⊢
      cases (hCons.created_batch hAllowed).symm.trans hb'
      simp only [newBatch, newFile, hourMs, uploadWindowMs]
      omega
  windowed f' hf' b' hb' hUploading := by
    rcases h.file_origin (Table.get_of_mem hf') with ⟨f, hGet, hStep⟩ |
      ⟨_, _, _, _, _, hAllowed, hApply, _, hNew⟩
    · obtain ⟨b, hb⟩ := hCons.owned f (Table.mem_of_get hGet)
      have hEarly : f'.status = .uploading ∨ f'.status = .ready := by
        obtain ⟨c, hAllowed, hApply⟩ := h.commit
        have hAgrees := Commit.agrees hCons hAllowed f'.batchId
        rw [← hApply] at hAgrees
        exact (hAgrees b' hb').uploading hUploading f'.status (mem_statuses.mpr ⟨f', hf', rfl, rfl⟩)
      have hSame : e.before.batches.get f'.batchId = some b' :=
        h.uploading_batch hb' hUploading (by rw [hStep.batchId, hb]; simp)
      rw [hStep.batchId] at hSame
      rw [← hCons.windowed f (Table.mem_of_get hGet) b' hSame hUploading]
      refine (hStep.expiry ?_).resolve_right fun hQueued => ?_
      · rcases hEarly with hStatus | hStatus <;> (rw [hStatus]; decide)
      · rw [hQueued.2] at hEarly
        exact absurd hEarly (by decide)
    · rw [hApply] at hb'
      rw [hNew] at hb' ⊢
      cases (hCons.created_batch hAllowed).symm.trans hb'
      rfl
  born b' hb' := by
    rcases h.batch_origin (Table.get_of_mem hb') with ⟨b, hGet, hStep⟩ |
      ⟨_, _, _, _, _, _, _, _, hNew⟩
    · rw [hStep.createdAt]
      exact hCons.born b (Table.mem_of_get hGet)
    · rw [hNew]
      exact le_rfl
  issuedFiles f' hf' := by
    rcases h.file_origin (Table.get_of_mem hf') with ⟨f, hGet, hStep⟩ |
      ⟨_, _, _, _, _, _, hApply, hId, _⟩
    · rw [hStep.id]
      exact h.issued (hCons.issuedFiles f (Table.mem_of_get hGet))
    · rw [hApply]
      refine List.mem_append_right _ (List.mem_cons_of_mem _ ?_)
      rw [List.map_map]
      exact List.mem_map.mpr ⟨f'.id, hId, rfl⟩
  issuedBatches b' hb' := by
    rcases h.batch_origin (Table.get_of_mem hb') with ⟨b, hGet, hStep⟩ |
      ⟨_, _, _, _, _, _, hApply, hId, _⟩
    · rw [← Table.key_of_get hGet]
      exact h.issued (hCons.issuedBatches b (Table.mem_of_get hGet))
    · rw [hApply, hId]
      exact List.mem_append_right _ List.mem_cons_self
  numbered := h.numbered hCons.numbered

end Pixaeron.Conversion
