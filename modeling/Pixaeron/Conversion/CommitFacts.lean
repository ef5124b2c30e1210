import Pixaeron.Conversion.Commits

/-! # What a commit does to one row -/

namespace Pixaeron.Conversion

open Transactions

namespace Database

variable {db : Database} {batch : ConversionBatch} {files : List ConversionFile} {subject : String}
  {day n now : Nat} {messages : List (String × ConversionRequestMessage)}

@[simp] theorem reserve_files : (db.reserve subject day n).files = db.files := rfl

@[simp] theorem reserve_batches : (db.reserve subject day n).batches = db.batches := rfl

@[simp] theorem reserve_outbox : (db.reserve subject day n).outbox = db.outbox := rfl

@[simp] theorem reserve_issued : (db.reserve subject day n).issued = db.issued := rfl

@[simp] theorem reserve_outboxSeq : (db.reserve subject day n).outboxSeq = db.outboxSeq := rfl

theorem insertOutbox_keeps {α : Type} (field : Database → α)
    (hField : ∀ (db : Database) outbox outboxSeq, field { db with outbox, outboxSeq } = field db) :
    field (db.insertOutbox now messages) = field db := by
  unfold insertOutbox
  induction messages generalizing db with
  | nil => rfl
  | cons message rest ih => rw [List.foldl_cons, ih, hField]

@[simp] theorem insertOutbox_files : (db.insertOutbox now messages).files = db.files :=
  insertOutbox_keeps files fun _ _ _ => rfl

@[simp] theorem insertOutbox_batches : (db.insertOutbox now messages).batches = db.batches :=
  insertOutbox_keeps batches fun _ _ _ => rfl

@[simp] theorem insertOutbox_usage : (db.insertOutbox now messages).usage = db.usage :=
  insertOutbox_keeps usage fun _ _ _ => rfl

@[simp] theorem insertOutbox_issued : (db.insertOutbox now messages).issued = db.issued :=
  insertOutbox_keeps issued fun _ _ _ => rfl

end Database

namespace Admission

variable {services : Services} {a : Admission} {db : Database}

@[simp] theorem charge_files : (a.charge db).files = db.files := by
  unfold charge
  split <;> rfl

@[simp] theorem charge_batches : (a.charge db).batches = db.batches := by
  unfold charge
  split <;> rfl

@[simp] theorem charge_outbox : (a.charge db).outbox = db.outbox := by
  unfold charge
  split <;> rfl

@[simp] theorem charge_issued : (a.charge db).issued = db.issued := by
  unfold charge
  split <;> rfl

@[simp] theorem charge_outboxSeq : (a.charge db).outboxSeq = db.outboxSeq := by
  unfold charge
  split <;> rfl

theorem write_files : (a.write services db).files = (a.queueFiles (a.evict db)).files := by
  simp [write, queueBatch, queueFiles, rollUp]

theorem write_batches : (a.write services db).batches = (a.queueBatch (a.rollUp db)).batches := by
  simp [write, queueBatch, queueFiles, rollUp, evict]

theorem write_usage : (a.write services db).usage = (a.charge db).usage := by
  simp only [write, queueBatch, queueFiles, rollUp, evict, Database.insertOutbox_usage,
    Database.changeBatches_usage, Database.changeFiles_usage, charge]
  split <;> rfl

@[simp] theorem write_issued : (a.write services db).issued = db.issued := by
  simp [write, queueBatch, queueFiles, rollUp, evict]

theorem get_write_files {id : Uuid} :
    (a.write services db).files.get id = (db.files.get id).map fun f =>
      if id ∈ a.claimedIds then
        { (if id ∈ a.evicted then f.expireAt a.evictedAt else f) with
          status := .queued
          expiresAt := a.retentionExpiresAt }
      else if id ∈ a.evicted then f.expireAt a.evictedAt else f := by
  rw [write_files, queueFiles, evict, Database.changeFiles_files, Database.changeFiles_files,
    Table.get_modify, Table.get_modify, Option.map_map]
  rfl

theorem get_write_batches {id : Uuid} :
    (a.write services db).batches.get id = (db.batches.get id).map fun b =>
      if id = a.batch.id then { b with status := .queued, expiresAt := a.retentionExpiresAt }
    else if id ∈ a.rolled then { b with status := .expired } else b := by
  rw [write_batches, queueBatch, rollUp, Database.changeBatches_batches,
    Database.changeBatches_batches, Table.get_modify, Table.get_modify, Option.map_map]
  congr 1
  funext b
  simp only [Function.comp, List.mem_singleton]
  split
  · split <;> rfl
  · rfl

variable {p : Policy} {e : LogEntry}

theorem Allowed.apart (h : a.Allowed services p e) {id : Uuid}
    (hClaimed : id ∈ a.claimedIds) : id ∉ a.evicted := by
  intro hEvicted
  obtain ⟨c, hc, rfl⟩ := List.mem_map.mp hClaimed
  obtain ⟨f, hGet, hReady, _⟩ := h.claimed c hc
  obtain ⟨f', hGet', hCompleted, _⟩ := h.evicted c.id hEvicted
  rw [hGet, Option.some.injEq] at hGet'
  subst hGet'
  rw [hReady] at hCompleted
  cases hCompleted

theorem Allowed.get_claimed (h : a.Allowed services p e) {id : Uuid}
    (hClaimed : id ∈ a.claimedIds) :
    (a.write services e.before).files.get id = (e.before.files.get id).map fun f =>
      { f with status := .queued, expiresAt := a.retentionExpiresAt } := by
  rw [get_write_files]
  simp only [hClaimed, h.apart hClaimed, if_true, if_false]

theorem get_not_claimed {id : Uuid} (hClaimed : id ∉ a.claimedIds) :
    (a.write services db).files.get id = (db.files.get id).map fun f =>
      if id ∈ a.evicted then f.expireAt a.evictedAt else f := by
  rw [get_write_files]
  simp only [hClaimed, if_false]

end Admission

namespace Database

variable {db : Database} {ids : List Uuid} {id : Uuid} {batch : ConversionBatch}
  {files : List ConversionFile}

theorem get_insertBatch_files :
    (db.insertBatch batch files).files.get id =
      (db.files.get id).or (files.find? fun f => f.id = id) :=
  Table.get_insertAll

theorem get_insertBatch_batches :
    (db.insertBatch batch files).batches.get id =
      (db.batches.get id).or (if batch.id = id then some batch else none) :=
  Table.get_insert

theorem get_deleteBatches_files :
    (db.deleteBatches ids).files.get id = (db.files.get id).filter fun f => f.batchId ∉ ids := by
  unfold deleteBatches
  rw [Table.get_delete]
  congr 1
  funext f
  simp

theorem get_deleteBatches_batches :
    (db.deleteBatches ids).batches.get id = (db.batches.get id).filter fun _ => id ∉ ids := by
  unfold deleteBatches
  rw [Table.get_delete]
  cases hFound : db.batches.get id with
  | none => rfl
  | some b => simp [Option.filter, Table.key_of_get hFound]

end Database

/-! ## Files -/

section Files

variable {services : Services} {p : Policy} {e : LogEntry} {id : Uuid} {f f' : ConversionFile}

/-- What has become of a file: one step, or it went with its batch. -/
def FileAfter (f : ConversionFile) (db : Database) : Prop :=
  (∃ f', db.files.get f.id = some f' ∧ FileStep f f') ∨
    db.files.get f.id = none ∧ db.batches.get f.batchId = none ∧ f.status ∉ liveFileStatuses

theorem FileStep.expire (hLive : f.status ∈ liveFileStatuses) (expiresAt : Nat) :
    FileStep f (f.expireAt expiresAt) where
  id := rfl
  batchId := rfl
  inputObjectKey := rfl
  attempt := le_rfl
  progress := ConversionFileStatus.expired_mem_moves hLive
  input _ := ⟨rfl, rfl⟩
  measured h := by cases h
  final hTerminal := .inr ⟨ConversionFileStatus.completed_of_live hLive hTerminal, rfl⟩
  expiry h := absurd h (by decide : .expired ∉ liveFileStatuses)

theorem FileStep.queue (hReady : f.status = .ready) (expiresAt : Nat) :
    FileStep f { f with status := .queued, expiresAt } where
  id := rfl
  batchId := rfl
  inputObjectKey := rfl
  attempt := le_rfl
  progress := (by rw [hReady]; decide : .queued ∈ f.status.moves)
  input _ := ⟨rfl, rfl⟩
  measured h := by cases h
  final hTerminal := absurd hTerminal (by rw [hReady]; decide)
  expiry _ := .inr ⟨hReady, rfl⟩

theorem FileStep.verify (hUploading : f.status = .uploading) (bytes : Nat) (etag : String) :
    FileStep f { f with status := .ready, inputBytes := some bytes, inputEtag := some etag } where
  id := rfl
  batchId := rfl
  inputObjectKey := rfl
  attempt := le_rfl
  progress := (by rw [hUploading]; decide : .ready ∈ f.status.moves)
  input h := absurd hUploading h
  measured _ := .inr ⟨rfl, rfl⟩
  final hTerminal := absurd hTerminal (by rw [hUploading]; decide)
  expiry _ := .inl rfl

theorem FileStep.start (hAccepting : f.status ∈ eventAcceptingFileStatuses) {attempt : Nat}
    (hAttempt : f.attempt < attempt) (startedAt : Nat) :
    FileStep f { f with status := .processing, attempt, startedAt := some startedAt } where
  id := rfl
  batchId := rfl
  inputObjectKey := rfl
  attempt := hAttempt.le
  progress := (ConversionFileStatus.accepting_moves hAccepting).1.1
  input _ := ⟨rfl, rfl⟩
  measured h := by cases h
  final hTerminal := absurd hTerminal (ConversionFileStatus.accepting_moves hAccepting).2
  expiry _ := .inl rfl

theorem FileStep.finish (hAccepting : f.status ∈ eventAcceptingFileStatuses) (data : FileResult) :
    FileStep f (data.write f) := by
  obtain ⟨⟨_, hCompleted, hFailed⟩, hNotFinal⟩ := ConversionFileStatus.accepting_moves hAccepting
  cases data with
  | completed result completedAt =>
    exact ⟨rfl, rfl, rfl, le_rfl, hCompleted, fun _ => ⟨rfl, rfl⟩, fun h => (by cases h),
      fun h => absurd h hNotFinal,
      fun _ => .inl rfl⟩
  | failed failureCode completedAt =>
    exact ⟨rfl, rfl, rfl, le_rfl, hFailed, fun _ => ⟨rfl, rfl⟩, fun h => (by cases h),
      fun h => absurd h hNotFinal,
      fun _ => .inl rfl⟩

inductive Commit.Changes : Commit → ConversionFile → ConversionFile → Prop where
  | same {c : Commit} {f : ConversionFile} : Changes c f f
  | verify {ids : List Uuid} {stored : StoredObject} {f : ConversionFile} : f.id ∈ ids →
      Changes (.verify ids stored) f
    { f with status := .ready, inputBytes := some stored.bytes, inputEtag := some stored.etag }
  | queue {a : Admission} {f : ConversionFile} : f.id ∈ a.claimedIds →
    Changes (.admission a) f { f with status := .queued, expiresAt := a.retentionExpiresAt }
  | evict {a : Admission} {f : ConversionFile} : f.id ∈ a.evicted →
      Changes (.admission a) f (f.expireAt a.evictedAt)
  | start {ids : List Uuid} {event : WorkerEvent} {startedAt : Nat}
      {f : ConversionFile} : f.id ∈ ids →
    Changes (.start ids event startedAt) f
      { f with status := .processing, attempt := event.attempt, startedAt := some startedAt }
  | finish {event : WorkerEvent} {data : FileResult} {rolled : List Uuid}
      {status : ConversionBatchStatus}
    {f : ConversionFile} : f.id = event.fileId →
      Changes (.finish event data rolled status) f (data.write f)
  | sweep {batchId : Uuid} {ids rolled : List Uuid} {status : ConversionBatchStatus}
      {f : ConversionFile} : f.id ∈ ids →
    Changes (.sweep batchId ids rolled status) f (f.expireAt f.expiresAt)

theorem changes_changeFiles {c : Commit} {db : Database} {ids : List Uuid}
    {g : ConversionFile → ConversionFile} (hKey : ∀ row, (g row).id = row.id)
    (hChange : f.id ∈ ids → c.Changes f (g f)) (hGet : db.files.get f.id = some f)
    (hGet' : (db.changeFiles ids g hKey).files.get f.id = some f') : c.Changes f f' := by
  rw [Database.changeFiles_files, Table.get_modify, hGet, Option.map_some,
    Option.some.injEq] at hGet'
  rw [← hGet']
  split
  · next hMem => exact hChange hMem
  · exact .same

/-- A file that an entry leaves is as the commit has changed it. -/
theorem Commit.changes {c : Commit} (hAllowed : c.Allowed services p e)
    (hGet : e.before.files.get f.id = some f)
    (hGet' : (c.apply services e.before).files.get f.id = some f') : c.Changes f f' := by
  have hSame (hStill : e.before.files.get f.id = some f') : c.Changes f f' := by
    cases hGet.symm.trans hStill
    exact .same
  cases c with
  | create input snapshot planCode drawn now =>
    rw [Commit.apply, Database.get_insertBatch_files, hGet, Option.some_or] at hGet'
    exact hSame (hGet.trans hGet')
  | verify ids stored => exact changes_changeFiles (by exact fun _ => rfl) .verify hGet hGet'
  | admission a =>
    rw [Commit.apply] at hGet'
    by_cases hClaimed : f.id ∈ a.claimedIds
    · rw [hAllowed.get_claimed hClaimed, hGet, Option.map_some, Option.some.injEq] at hGet'
      exact hGet' ▸ .queue hClaimed
    · rw [Admission.get_not_claimed hClaimed, hGet, Option.map_some, Option.some.injEq] at hGet'
      split at hGet'
      · next hEvicted => exact hGet' ▸ .evict hEvicted
      · exact hGet' ▸ .same
  | start ids event startedAt => exact changes_changeFiles (by exact fun _ => rfl) .start hGet hGet'
  | finish event data rolled status =>
    exact changes_changeFiles data.write_id
      (fun hMem => .finish (List.mem_singleton.mp hMem)) hGet hGet'
  | sweep batchId ids rolled status =>
    exact changes_changeFiles (by exact fun _ => rfl) .sweep hGet hGet'
  | purge ids =>
    rw [Commit.apply, Database.get_deleteBatches_files, Option.filter_eq_some_iff] at hGet'
    exact hSame hGet'.1
  | nothing => exact hSame hGet'
  | process ids => exact hSame hGet'
  | purgeUsage keys => exact hSame hGet'
  | publish deliveredIds failedIds now => exact hSame hGet'

theorem Commit.Changes.step {c : Commit} (h : c.Changes f f') (hAllowed : c.Allowed services p e)
    (hGet : e.before.files.get f.id = some f) : FileStep f f' := by
  cases h with
  | same => exact .refl f
  | verify hMem =>
    obtain ⟨row, hRow, hUploading⟩ := hAllowed f.id hMem
    cases hGet.symm.trans hRow
    exact .verify hUploading _ _
  | queue hClaimed =>
    obtain ⟨c, hc, hId⟩ := List.mem_map.mp hClaimed
    obtain ⟨row, hRow, hReady, _⟩ := hAllowed.claimed c hc
    cases hGet.symm.trans (hId ▸ hRow)
    exact .queue hReady _
  | evict hEvicted =>
    obtain ⟨row, hRow, hCompleted, _⟩ := hAllowed.evicted f.id hEvicted
    cases hGet.symm.trans hRow
    exact .expire (by rw [hCompleted]; decide) _
  | start hMem =>
    obtain ⟨row, hRow, _, _, hAccepting, hAttempt⟩ := hAllowed.2.2 f.id hMem
    cases hGet.symm.trans hRow
    exact .start hAccepting hAttempt _
  | finish hId =>
    obtain ⟨row, hRow, _, hAccepting, _⟩ := hAllowed.2.2.1
    cases hGet.symm.trans (hId ▸ hRow)
    exact .finish hAccepting _
  | sweep hMem =>
    obtain ⟨row, hRow, _, hLive, _⟩ := hAllowed.1 f.id hMem
    cases hGet.symm.trans hRow
    exact .expire hLive _

theorem Commit.purged {c : Commit} (hAllowed : c.Allowed services p e)
    (hGet : e.before.files.get f.id = some f)
    (hGone : (c.apply services e.before).files.get f.id = none) :
    (c.apply services e.before).batches.get f.batchId = none ∧ f.status ∉ liveFileStatuses := by
  cases c with
  | purge ids =>
    rw [Commit.apply, Database.get_deleteBatches_files, hGet] at hGone
    have hMem : f.batchId ∈ ids := by simpa [Option.filter] using hGone
    refine ⟨?_, ?_⟩
    · rw [Commit.apply, Database.get_deleteBatches_batches]
      cases e.before.batches.get f.batchId <;> simp [Option.filter, hMem]
    · obtain ⟨b, hb, _, hDead⟩ := hAllowed f.batchId hMem
      exact hDead f (by simp [Table.mem_of_get hGet])
  | create input snapshot planCode drawn now =>
    rw [Commit.apply, Database.get_insertBatch_files, hGet, Option.some_or] at hGone
    cases hGone
  | admission a => simp [Commit.apply, Admission.get_write_files, hGet] at hGone
  | _ => simp [Commit.apply, Table.get_modify, hGet] at hGone

theorem Commit.fileAfter {c : Commit} (hAllowed : c.Allowed services p e)
    (hGet : e.before.files.get f.id = some f) :
    FileAfter f (c.apply services e.before) := by
  cases hAfter : (c.apply services e.before).files.get f.id with
  | some f' => exact .inl ⟨f', hAfter, (c.changes hAllowed hGet hAfter).step hAllowed hGet⟩
  | none => exact .inr ⟨hAfter, c.purged hAllowed hGet hAfter⟩

theorem Legal.fileAfter (h : Legal services p e)
    (hGet : e.before.files.get f.id = some f) : FileAfter f e.after := by
  obtain ⟨c, hAllowed, hApply⟩ := h.commit
  rw [hApply]
  exact c.fileAfter hAllowed hGet

/-- What has become of a batch: one step, or it is gone with all its files. -/
def BatchAfter (b : ConversionBatch) (db : Database) : Prop :=
  (∃ b', db.batches.get b.id = some b' ∧ BatchStep b b') ∨
    db.batches.get b.id = none ∧ ∀ f ∈ db.files.rows, f.batchId ≠ b.id

theorem batchAfter_changeBatches {b : ConversionBatch} {db : Database} {ids : List Uuid}
    {g : ConversionBatch → ConversionBatch} {h : ∀ row, (g row).id = row.id}
    (hStep : ∀ b, BatchStep b (g b)) (hGet : db.batches.get b.id = some b) {db' : Database}
    (hBatches : db'.batches = (db.changeBatches ids g h).batches) :
    BatchAfter b db' := by
  refine .inl ?_
  rw [hBatches, Database.changeBatches_batches, Table.get_modify, hGet, Option.map_some]
  refine ⟨_, rfl, ?_⟩
  split
  · exact hStep b
  · exact .refl b

theorem batchAfter_same {b : ConversionBatch} {db db' : Database}
    (hGet : db.batches.get b.id = some b) (hBatches : db'.batches = db.batches) :
    BatchAfter b db' :=
  .inl ⟨b, by rw [hBatches, hGet], .refl b⟩

theorem Commit.batchAfter {b : ConversionBatch} {db : Database} (c : Commit)
    (hGet : db.batches.get b.id = some b) :
    BatchAfter b (c.apply services db) := by
  cases c with
  | create input snapshot planCode drawn now =>
    refine .inl ⟨b, ?_, .refl b⟩
    rw [Commit.apply, Database.get_insertBatch_batches, hGet, Option.some_or]
  | admission a =>
    refine .inl ?_
    rw [Commit.apply, Admission.get_write_batches, hGet]
    refine ⟨_, rfl, ?_⟩
    split
    · rfl
    · split <;> rfl
  | process ids => exact batchAfter_changeBatches (fun _ => by rfl) hGet rfl
  | finish event data rolled status => exact batchAfter_changeBatches (fun _ => by rfl) hGet rfl
  | sweep batchId ids rolled status => exact batchAfter_changeBatches (fun _ => by rfl) hGet rfl
  | purge ids =>
    rw [Commit.apply]
    by_cases hMem : b.id ∈ ids
    · refine .inr ⟨?_, fun f hf hId => ?_⟩
      · rw [Database.get_deleteBatches_batches, hGet]
        simp [Option.filter, hMem]
      · have hGetF := Table.get_of_mem hf
        rw [Database.get_deleteBatches_files] at hGetF
        have hKept := Option.filter_eq_some_iff.mp hGetF
        simp [hId, hMem] at hKept
    · refine .inl ⟨b, ?_, .refl b⟩
      rw [Database.get_deleteBatches_batches, hGet]
      simp [Option.filter, hMem]
  | nothing => exact batchAfter_same hGet rfl
  | verify ids stored => exact batchAfter_same hGet rfl
  | start ids event startedAt => exact batchAfter_same hGet rfl
  | purgeUsage keys => exact batchAfter_same hGet rfl
  | publish deliveredIds failedIds now => exact batchAfter_same hGet rfl

theorem Legal.batchAfter {b : ConversionBatch} (h : Legal services p e)
    (hGet : e.before.batches.get b.id = some b) :
    BatchAfter b e.after := by
  obtain ⟨c, _, hApply⟩ := h.commit
  rw [hApply]
  exact c.batchAfter hGet

theorem Legal.file_origin (h : Legal services p e) (hGet' : e.after.files.get id = some f') :
    (∃ f, e.before.files.get id = some f ∧ FileStep f f') ∨ e.before.files.get id = none ∧
      ∃ input snapshot planCode drawn,
        (Commit.create input snapshot planCode drawn e.endedAt).Allowed services p e ∧
        e.after = (Commit.create input snapshot planCode drawn e.endedAt).apply services e.before ∧
        id ∈ drawn.fileIds ∧ f' = newFile drawn.batchId id (e.endedAt + uploadWindowMs) := by
  cases hGet : e.before.files.get id with
  | some f =>
    refine .inl ⟨f, rfl, ?_⟩
    have hKey := Table.key_of_get hGet
    subst hKey
    rcases h.fileAfter hGet with ⟨f'', hGet'', hStep⟩ | ⟨hGone, _⟩
    · cases hGet'.symm.trans hGet''
      exact hStep
    · cases hGet'.symm.trans hGone
  | none =>
    refine .inr ⟨rfl, ?_⟩
    obtain ⟨c, hAllowed, hApply⟩ := h.commit
    rw [hApply] at hGet'
    cases c with
    | create input snapshot planCode drawn now =>
      obtain rfl : now = e.endedAt := hAllowed.2.2.1
      rw [Commit.apply, Database.get_insertBatch_files, hGet, Option.none_or] at hGet'
      obtain ⟨fileId, hFileId, rfl⟩ := List.mem_map.mp (List.mem_of_find?_eq_some hGet')
      have hFound := List.find?_some hGet'
      have hId : fileId = id := of_decide_eq_true hFound
      subst hId
      exact ⟨input, snapshot, planCode, drawn, hAllowed, hApply, hFileId, rfl⟩
    | purge ids => simp [Commit.apply, Database.get_deleteBatches_files, hGet] at hGet'
    | admission a => simp [Commit.apply, Admission.get_write_files, hGet] at hGet'
    | _ => simp [Commit.apply, Table.get_modify, hGet] at hGet'

theorem Legal.batch_origin {b' : ConversionBatch} (h : Legal services p e)
    (hGet' : e.after.batches.get id = some b') :
    (∃ b, e.before.batches.get id = some b ∧ BatchStep b b') ∨ e.before.batches.get id = none ∧
      ∃ input snapshot planCode drawn,
        (Commit.create input snapshot planCode drawn e.endedAt).Allowed services p e ∧
        e.after = (Commit.create input snapshot planCode drawn e.endedAt).apply services e.before ∧
        id = drawn.batchId ∧ b' = newBatch services input snapshot planCode drawn e.endedAt := by
  cases hGet : e.before.batches.get id with
  | some b =>
    refine .inl ⟨b, rfl, ?_⟩
    have hKey := Table.key_of_get hGet
    subst hKey
    rcases h.batchAfter hGet with ⟨b'', hGet'', hStep⟩ | ⟨hGone, _⟩
    · cases hGet'.symm.trans hGet''
      exact hStep
    · cases hGet'.symm.trans hGone
  | none =>
    refine .inr ⟨rfl, ?_⟩
    obtain ⟨c, hAllowed, hApply⟩ := h.commit
    rw [hApply] at hGet'
    cases c with
    | create input snapshot planCode drawn now =>
      obtain rfl : now = e.endedAt := hAllowed.2.2.1
      rw [Commit.apply, Database.get_insertBatch_batches, hGet, Option.none_or] at hGet'
      split at hGet'
      · next hId =>
        exact ⟨input, snapshot, planCode, drawn, hAllowed, hApply, hId.symm,
          (Option.some.inj hGet').symm⟩
      · cases hGet'
    | purge ids => simp [Commit.apply, Database.get_deleteBatches_batches, hGet] at hGet'
    | admission a => simp [Commit.apply, Admission.get_write_batches, hGet] at hGet'
    | _ => simp [Commit.apply, Table.get_modify, hGet] at hGet'

end Files

end Pixaeron.Conversion
